-- A channel library over its whole life. Labels may be any strings, and those of
-- outputs and measurements are made by putting strings together, but each change
-- checks the labels that it takes, so every library there can be is wired.
import PulseSequencer.Proofs.WiredLibrary

namespace PulseSequencer

/-! ## Changes -/

/-- A change that can be made in a transaction. -/
inductive Change where
  | install (model : Edit.Model) (label address : String)
  | addQubit (label : String)
  | addMarker (label physical : String)
  | driveQubit (qubit transmitter : String)
  | measureQubit (qubit transmitter : String)

def Change.edit : Change → Edit Unit
  | install model label address => discard (Edit.installTransmitter model label address)
  | addQubit label => discard (Edit.addQubit label)
  | addMarker label physical => discard (Edit.addMarker label physical)
  | driveQubit qubit transmitter => Edit.driveQubit qubit transmitter
  | measureQubit qubit transmitter => discard (Edit.measureQubit qubit transmitter)

/-- What a change that succeeds writes. -/
inductive Write where
  | put (channel : LogicalChannel)
  | install (model : Edit.Model) (label address : String)

def Write.on (write : Write) (lib : ChannelLibrary) : ChannelLibrary :=
  match write with
  | put channel => lib.put channel
  | install model label address => lib.install model label address

/-! ## What a change can do -/

/-- Nothing has the label, or a measurement has it. -/
def ChannelLibrary.Measurable (lib : ChannelLibrary) (label : String) : Prop :=
  lib.contains label = false ∨
    ∃ old, lib.logical.get? label = some old ∧ old.kind = .measurement

theorem ChannelLibrary.Measurable.of_not {lib : ChannelLibrary} {label : String}
    (h : ¬ (lib.contains label ∧
      ∀ c, lib.logical.get? label = some c → c.kind ≠ .measurement)) : lib.Measurable label := by
  rcases not_and_or.mp h with hfree | hold
  · exact Or.inl (by simpa using hfree)
  · exact Or.inr (by simpa using hold)

namespace Change

/-- The changes that a library lets be made, with what each of them writes. A change asks only for
what stands in its case. -/
inductive Writes (lib : ChannelLibrary) : Change → Write → Prop
  | install {model : Edit.Model} {label : String} (address : String)
    (hfree : lib.Free model label) :
    Writes lib (.install model label address) (.install model label address)
  | addQubit {label : String} (hfree : lib.contains label = false) :
    Writes lib (.addQubit label) (.put ⟨label, .qubit, none⟩)
  | addMarker {label physical : String} {output : PhysicalChannel}
    (houtput : lib.physical.get? physical = some output) (hkind : output.kind = .marker)
    (hfree : lib.contains label = false) :
    Writes lib (.addMarker label physical) (.put ⟨label, .marker, some physical⟩)
  | driveQubit {qubit transmitter : String} {physical : Option String} {output : PhysicalChannel}
    (hqubit : lib.logical.get? qubit = some ⟨qubit, .qubit, physical⟩)
    (houtput : lib.firstQuadrature transmitter = .ok output) :
    Writes lib (.driveQubit qubit transmitter) (.put ⟨qubit, .qubit, some output.label⟩)
  | measureQubit {qubit transmitter : String} {physical : Option String} {output : PhysicalChannel}
    (hqubit : lib.logical.get? qubit = some ⟨qubit, .qubit, physical⟩)
    (houtput : lib.firstQuadrature transmitter = .ok output)
    (hlabel : lib.Measurable (Edit.measurementLabel qubit)) :
    Writes lib (.measureQubit qubit transmitter)
      (.put ⟨Edit.measurementLabel qubit, .measurement, some output.label⟩)

variable {lib : ChannelLibrary}

theorem qubit_of_logicalOfKind (h : lib.Labelled) {qubit : String} {c : LogicalChannel}
    (hc : lib.logicalOfKind .qubit qubit = .ok c) :
    c = ⟨qubit, .qubit, c.physical⟩ ∧
      lib.logical.get? qubit = some ⟨qubit, .qubit, c.physical⟩ := by
  obtain ⟨hget, hkind⟩ := ChannelLibrary.logicalOfKind_eq_ok.mp hc
  obtain ⟨label, kind, physical⟩ := c
  cases h.logical qubit _ hget
  cases hkind
  exact ⟨rfl, hget⟩

/-- A change fails and does nothing, or it makes its one write. -/
theorem on_cases (h : lib.Labelled) (change : Change) :
    (∃ e, change.edit.on lib = (.error e, lib)) ∨
      ∃ write, change.Writes lib write ∧ change.edit.on lib = (.ok (), write.on lib) := by
  cases change with
  | install model label address =>
    rw [edit, Edit.on_discard, Edit.on_installTransmitter]
    cases hfind : (model.labels label).find? lib.contains with
    | some taken => exact Or.inl ⟨_, rfl⟩
    | none =>
      refine Or.inr ⟨_, .install address fun l hl => ?_, rfl⟩
      simpa using List.find?_eq_none.mp hfind l hl
  | addQubit label =>
    rw [edit, Edit.on_discard, Edit.on_addQubit]
    cases hfree : lib.contains label with
    | true => exact Or.inl ⟨_, rfl⟩
    | false => exact Or.inr ⟨_, .addQubit hfree, rfl⟩
  | addMarker label physical =>
    rw [edit, Edit.on_discard, Edit.on_addMarker]
    cases houtput : lib.physicalChannel physical with
    | error e => exact Or.inl ⟨_, rfl⟩
    | ok output =>
      dsimp only
      by_cases hkind : output.kind = .marker
      · cases hfree : lib.contains label with
        | true => exact Or.inl ⟨.duplicateLabel label, by simp [hkind, Except.map]⟩
        | false =>
          have hget := ChannelLibrary.physicalChannel_eq_ok.mp houtput
          exact Or.inr ⟨_, .addMarker hget hkind hfree, by simp [hkind, Except.map, Write.on]⟩
      · exact Or.inl ⟨.notMarkerOutput label physical, by simp [hkind, Except.map]⟩
  | driveQubit qubit transmitter =>
    rw [edit, Edit.on_driveQubit]
    cases hchannel : lib.logicalOfKind .qubit qubit with
    | error e => exact Or.inl ⟨_, rfl⟩
    | ok channel =>
      obtain ⟨heq, hget⟩ := qubit_of_logicalOfKind h hchannel
      cases houtput : lib.firstQuadrature transmitter with
      | error e => exact Or.inl ⟨_, rfl⟩
      | ok output =>
        refine Or.inr ⟨_, .driveQubit hget houtput, ?_⟩
        rw [heq]
        rfl
  | measureQubit qubit transmitter =>
    rw [edit, Edit.on_discard, Edit.on_measureQubit]
    cases hchannel : lib.logicalOfKind .qubit qubit with
    | error e => exact Or.inl ⟨_, rfl⟩
    | ok channel =>
      obtain ⟨_, hget⟩ := qubit_of_logicalOfKind h hchannel
      cases houtput : lib.firstQuadrature transmitter with
      | error e => exact Or.inl ⟨_, rfl⟩
      | ok output =>
        dsimp only
        split
        · exact Or.inl ⟨_, rfl⟩
        · rename_i hfree
          exact Or.inr ⟨_, .measureQubit hget houtput (.of_not hfree), rfl⟩

theorem writes_of_ok (h : lib.Labelled) {change : Change} (hok : (change.edit.on lib).1 = .ok ()) :
    ∃ write, change.Writes lib write ∧ (change.edit.on lib).2 = write.on lib := by
  rcases change.on_cases h with ⟨e, hon⟩ | ⟨write, hwrites, hon⟩
  · rw [hon] at hok
    cases hok
  · exact ⟨write, hwrites, by rw [hon]⟩

end Change

namespace Edit

/-- A change that fails does nothing; one that succeeds makes one of the two writes, where that
may be made. -/
inductive Effect {α : Type} (lib : ChannelLibrary) : Except ChannelError α × ChannelLibrary → Prop
  | failed (e : ChannelError) : Effect lib (.error e, lib)
  | put (a : α) {channel : LogicalChannel} (h : lib.Fits channel) :
    Effect lib (.ok a, lib.put channel)
  | installed (a : α) {model : Model} {label : String} (address : String)
    (h : lib.Free model label) : Effect lib (.ok a, lib.install model label address)

variable {lib : ChannelLibrary}

theorem Effect.wired {α : Type} {outcome : Except ChannelError α × ChannelLibrary}
    (heffect : Effect lib outcome) (h : lib.Wired) : outcome.2.Wired := by
  cases heffect with
  | failed e => exact h
  | put a hfits => exact h.put hfits
  | installed a address hfree => exact h.install hfree

end Edit

namespace Change

variable {lib : ChannelLibrary}

theorem Writes.effect (h : lib.Wired) {change : Change} {write : Write}
    (hwrites : change.Writes lib write) :
    Edit.Effect lib ((.ok () : Except ChannelError Unit), write.on lib) := by
  cases hwrites with
  | install address hfree => exact .installed () address hfree
  | addQubit hfree => exact .put () (.of_free hfree nofun nofun)
  | @addMarker label physical output houtput hkind hfree =>
    have hplays := ChannelLibrary.plays_some label .marker houtput hkind
    exact .put () (.of_free hfree hplays nofun)
  | @driveQubit qubit transmitter physical output hqubit houtput =>
    obtain ⟨hphysical, hquadrature⟩ := h.labelled.firstQuadrature_eq_ok houtput
    have hplays := ChannelLibrary.plays_some qubit .qubit hphysical hquadrature
    have hfits : lib.Fits ⟨qubit, .qubit, some output.label⟩ :=
      .of_same_kind h.unambiguous hqubit rfl hplays nofun
    exact .put () hfits
  | @measureQubit qubit transmitter physical output hqubit houtput hlabel =>
    obtain ⟨hphysical, hquadrature⟩ := h.labelled.firstQuadrature_eq_ok houtput
    have hplays := ChannelLibrary.plays_some (Edit.measurementLabel qubit) .measurement hphysical
      hquadrature
    have hnamed : lib.NamesQubit (Edit.measurementLabel qubit) := ⟨qubit, _, rfl, hqubit, rfl⟩
    rcases hlabel with hfree | ⟨old, hold, hkind⟩
    · exact .put () (.of_free hfree hplays fun _ => hnamed)
    · exact .put () (.of_same_kind h.unambiguous hold hkind hplays fun _ => hnamed)

theorem effect (h : lib.Wired) (change : Change) : Edit.Effect lib (change.edit.on lib) := by
  rcases change.on_cases h.labelled with ⟨e, hon⟩ | ⟨write, hwrites, hon⟩
  · rw [hon]
    exact .failed e
  · rw [hon]
    exact hwrites.effect h

end Change

/-! ## What can be in the way of playing a qubit -/

namespace Edit

variable {lib : ChannelLibrary}

theorem driveQubit_error (h : lib.Wired) {qubit transmitter : String} {e : ChannelError}
    (he : ((driveQubit qubit transmitter).on lib).1 = .error e) :
    e = .unknown (.logical .qubit) qubit ∨ e = .unknown .transmitter transmitter := by
  rw [on_driveQubit] at he
  split at he
  · rename_i hchannel
    cases he
    exact Or.inl (ChannelLibrary.logicalOfKind_eq_error hchannel)
  · split at he
    · rename_i houtput
      cases he
      exact Or.inr (h.equipped.firstQuadrature_eq_error houtput)
    · cases he

theorem measureQubit_error (h : lib.Wired) {qubit transmitter : String} {e : ChannelError}
    (he : ((measureQubit qubit transmitter).on lib).1 = .error e) :
    e = .unknown (.logical .qubit) qubit ∨ e = .unknown .transmitter transmitter ∨
      e = .duplicateLabel (measurementLabel qubit) := by
  rw [on_measureQubit] at he
  split at he
  · rename_i hchannel
    cases he
    exact Or.inl (ChannelLibrary.logicalOfKind_eq_error hchannel)
  · split at he
    · rename_i houtput
      cases he
      exact Or.inr (Or.inl (h.equipped.firstQuadrature_eq_error houtput))
    · split at he
      · cases he
        exact Or.inr (Or.inr rfl)
      · cases he

end Edit

/-! ## Transactions and snapshots -/

/-- The changes made one after another; one that fails is passed over. -/
def Transaction.applyAll (t : Transaction) (changes : List Change) : Transaction :=
  changes.foldl (fun t change => (t.apply change.edit).1) t

/-- Where a channel library is in its life: published, or with changes staged on top of it. -/
inductive Stage where
  | published (lib : ChannelLibrary)
  | staged (t : Transaction)

namespace Stage

/-- The stages there can be, from the empty library on. Any snapshot can be started from, as often
as one likes, and a change may fail. -/
inductive Reachable : Stage → Prop
  | empty : Reachable (published .empty)
  | start {lib : ChannelLibrary} (h : Reachable (published lib)) : Reachable (staged (.start lib))
  | change {t : Transaction} (h : Reachable (staged t)) (change : Change) :
    Reachable (staged (t.apply change.edit).1)
  | commit {t : Transaction} (h : Reachable (staged t)) {lib : ChannelLibrary} {event : Event}
    (hcommit : t.commit = .ok (lib, event)) : Reachable (published lib)
  | rollback {t : Transaction} (h : Reachable (staged t)) : Reachable (published t.rollback)

def Wired : Stage → Prop
  | published lib => lib.Wired
  | staged t => t.base.Wired ∧ t.working.Wired

/-- A transaction over a wired library can be committed, with all that it staged. -/
theorem commit_eq_ok {t : Transaction} (h : t.working.Wired) :
    ∃ event, t.commit = .ok (t.working, event) := by
  unfold Transaction.commit
  rw [h.validate_eq_ok]
  exact ⟨_, rfl⟩

theorem Reachable.applyAll {t : Transaction} (h : Reachable (staged t)) (changes : List Change) :
    Reachable (staged (t.applyAll changes)) := by
  induction changes generalizing t with
  | nil => exact h
  | cons change rest ih => exact ih (h.change change)

theorem Reachable.wired {stage : Stage} (h : Reachable stage) : stage.Wired := by
  induction h with
  | empty => exact ChannelLibrary.wired_empty
  | start h ih => exact ⟨ih, ih⟩
  | @change t h change ih => exact ⟨ih.1, (change.effect ih.2).wired ih.2⟩
  | @commit t h lib event hcommit ih =>
    obtain ⟨event', hok⟩ := commit_eq_ok ih.2
    rw [hok] at hcommit
    cases hcommit
    exact ih.2
  | rollback h ih => exact ih.1

/-- A transmitter with a qubit, its measurement and a marker. The label of another qubit is that of
an output of the second transmitter, which is therefore not installed. -/
def rig : List Change :=
  [.install .aps2 "A" "10.0.0.1", .addQubit "q", .addQubit "B-34", .install .aps "B" "10.0.0.2",
    .driveQubit "q" "A", .measureQubit "q" "A", .addMarker "trigger" "A-m1"]

end Stage

/-! ## The law -/

/-- Every library that is published and every one that is being changed is wired. So a channel has a
real output or none; whatever is staged can be committed; and to play a qubit, only the qubit or
the transmitter can be missing, never an output. -/
theorem every_channel_library_is_wired :
    (∀ lib, Stage.Reachable (.published lib) → lib.Wired ∧
      ∀ label e, lib.outputOf label = .error e →
        e = .unknown .anyLogical label ∨ e = .unmapped label) ∧
    ∀ t, Stage.Reachable (.staged t) → t.working.Wired ∧
      (∃ event, t.commit = .ok (t.working, event)) ∧
      (∀ qubit transmitter e, (t.apply (Edit.driveQubit qubit transmitter)).2 = .error e →
        e = .unknown (.logical .qubit) qubit ∨ e = .unknown .transmitter transmitter) ∧
      ∀ qubit transmitter e, (t.apply (Edit.measureQubit qubit transmitter)).2 = .error e →
        e = .unknown (.logical .qubit) qubit ∨ e = .unknown .transmitter transmitter ∨
          e = .duplicateLabel (Edit.measurementLabel qubit) := by
  refine ⟨fun lib hreachable => ?_, fun t hreachable => ?_⟩
  · have hwired : lib.Wired := hreachable.wired
    exact ⟨hwired, fun label e => hwired.played.outputOf_eq_error⟩
  · have hwired : t.working.Wired := hreachable.wired.2
    exact ⟨hwired, Stage.commit_eq_ok hwired,
      fun qubit transmitter e => Edit.driveQubit_error hwired,
      fun qubit transmitter e => Edit.measureQubit_error hwired⟩

theorem a_rig_is_wired :
    let t := (Transaction.start .empty).applyAll Stage.rig
    t.working.logical.keys = ["q", "B-34", "M-q", "trigger"] ∧
      t.working.transmitters.keys = ["A"] ∧ t.working.Wired ∧
      ∃ lib event, t.commit = .ok (lib, event) ∧ Stage.Reachable (.published lib) ∧ lib.Wired := by
  intro t
  have hreachable : Stage.Reachable (.staged t) := Stage.Reachable.empty.start.applyAll Stage.rig
  obtain ⟨hwired, ⟨event, hcommit⟩, _⟩ := every_channel_library_is_wired.2 t hreachable
  have hpublished := hreachable.commit hcommit
  exact ⟨by decide, by decide, hwired, t.working, event, hcommit, hpublished,
    (every_channel_library_is_wired.1 t.working hpublished).1⟩

end PulseSequencer
