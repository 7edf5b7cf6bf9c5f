-- A change is made whole or not at all. One that succeeds keeps every record that
-- was there, but for the output of the one channel that it sets, and adds no label
-- that is not its own.
import PulseSequencer.Proofs.ChannelHistory

namespace PulseSequencer

namespace Change

/-! ## What belongs to a change -/

/-- The logical channel whose output a change sets. -/
def sets? : Change → Option String
  | driveQubit qubit _ => some qubit
  | measureQubit qubit _ => some (Edit.measurementLabel qubit)
  | _ => none

/-- The labels that a change gives to logical channels. -/
def ownLogical : Change → List String
  | addQubit label => [label]
  | addMarker label _ => [label]
  | measureQubit qubit _ => [Edit.measurementLabel qubit]
  | _ => []

def ownOutputs : Change → List String
  | install .aps2 label _ =>
    [label ++ "-1", label ++ "-m1", label ++ "-m2", label ++ "-m3", label ++ "-m4"]
  | install .aps label _ =>
    [label ++ "-12", label ++ "-34", label ++ "-1m1", label ++ "-2m1", label ++ "-3m1",
      label ++ "-4m1"]
  | _ => []

def ownTransmitters : Change → List String
  | install _ label _ => [label]
  | _ => []

theorem ownOutputs_install (model : Edit.Model) (label address : String) :
    (install model label address).ownOutputs = (model.channels label).map (·.label) := by
  cases model <;> rfl

/-- What a change that succeeds makes of a library. -/
structure Made (change : Change) (before after : ChannelLibrary) : Prop where
  /-- Transmitters and outputs stay as they are, and so do the logical channels but for one. -/
  transmitters : ∀ label t, before.transmitters.get? label = some t →
    after.transmitters.get? label = some t
  physical : ∀ label o, before.physical.get? label = some o → after.physical.get? label = some o
  logical : ∀ label c, before.logical.get? label = some c → change.sets? ≠ some label →
    after.logical.get? label = some c
  /-- That one has an output then, and is otherwise what it was. -/
  output : ∀ label c, before.logical.get? label = some c → change.sets? = some label →
    ∃ output, after.logical.get? label = some { c with physical := some output }
  /-- No channel loses its output. -/
  mapped : ∀ label c, before.logical.get? label = some c → c.physical.isSome = true →
    ∃ d, after.logical.get? label = some d ∧ d.physical.isSome = true
  /-- The labels are those that were there and those of the change. -/
  transmitterKeys : ∀ label, label ∈ after.transmitters.keys ↔
    label ∈ before.transmitters.keys ∨ label ∈ change.ownTransmitters
  physicalKeys : ∀ label, label ∈ after.physical.keys ↔
    label ∈ before.physical.keys ∨ label ∈ change.ownOutputs
  logicalKeys : ∀ label, label ∈ after.logical.keys ↔
    label ∈ before.logical.keys ∨ label ∈ change.ownLogical
  /-- Those of the change were free, unless it is a measurement that is set anew. -/
  fresh : ∀ label ∈ change.ownTransmitters ++ change.ownOutputs ++ change.ownLogical,
    before.contains label = true → change.sets? = some label

/-! ## What a write keeps -/

section Kept

variable {lib : ChannelLibrary} {change : Change} {write : Write} {label : String}

theorem Writes.get?_transmitters (h : change.Writes lib write) {t : Transmitter}
    (ht : lib.transmitters.get? label = some t) :
    (write.on lib).transmitters.get? label = some t := by
  cases h with
  | install address hfree => exact ChannelLibrary.get?_transmitters_install_of_get? hfree ht
  | _ => exact ht

theorem Writes.get?_physical (h : change.Writes lib write) {o : PhysicalChannel}
    (ho : lib.physical.get? label = some o) : (write.on lib).physical.get? label = some o := by
  cases h with
  | install address hfree => exact (ChannelLibrary.get?_physical_install hfree).mpr (Or.inl ho)
  | _ => exact ho

theorem get?_logical_put_of_ne {c : LogicalChannel} (hc : lib.logical.get? label = some c)
    {channel : LogicalChannel} (hne : label ≠ channel.label) :
    (lib.put channel).logical.get? label = some c := by
  rw [ChannelLibrary.get?_logical_put, if_neg hne, hc]

theorem ne_of_free {c : LogicalChannel} (hc : lib.logical.get? label = some c) {free : String}
    (hfree : lib.contains free = false) : label ≠ free := by
  rintro rfl
  exact ((ChannelLibrary.not_contains_iff lib label).mp hfree).1 (Table.mem_keys_of_get? hc)

theorem Writes.get?_logical (h : change.Writes lib write) {c : LogicalChannel}
    (hc : lib.logical.get? label = some c) (hsets : change.sets? ≠ some label) :
    (write.on lib).logical.get? label = some c := by
  cases h with
  | install address hfree => exact hc
  | addQubit hfree => exact get?_logical_put_of_ne hc (ne_of_free hc hfree)
  | addMarker houtput hkind hfree => exact get?_logical_put_of_ne hc (ne_of_free hc hfree)
  | driveQubit hqubit houtput =>
    exact get?_logical_put_of_ne hc fun heq => hsets (congrArg some heq.symm)
  | measureQubit hqubit houtput hlabel =>
    exact get?_logical_put_of_ne hc fun heq => hsets (congrArg some heq.symm)

theorem Writes.get?_logical_set (h : change.Writes lib write) (hlabelled : lib.Labelled)
    {c : LogicalChannel} (hc : lib.logical.get? label = some c)
    (hsets : change.sets? = some label) :
    ∃ output, (write.on lib).logical.get? label = some { c with physical := some output } := by
  cases h with
  | @driveQubit qubit transmitter physical output hqubit houtput =>
    cases hsets
    cases hqubit.symm.trans hc
    exact ⟨output.label, by rw [Write.on, ChannelLibrary.get?_logical_put, if_pos rfl]⟩
  | @measureQubit qubit transmitter physical output hqubit houtput hlabel =>
    cases hsets
    -- What has the label is a measurement: it is there, so the label is not free.
    have hkind : c.kind = .measurement := by
      rcases hlabel with hfree | ⟨old, hold, hkind⟩
      · exact absurd rfl (ne_of_free hc hfree)
      · cases hold.symm.trans hc
        exact hkind
    refine ⟨output.label, ?_⟩
    rw [Write.on, ChannelLibrary.get?_logical_put, if_pos rfl, ← hkind,
      ← hlabelled.logical _ c hc]
  | _ => cases hsets

theorem Writes.mem_keys_transmitters (h : change.Writes lib write) :
    label ∈ (write.on lib).transmitters.keys ↔
      label ∈ lib.transmitters.keys ∨ label ∈ change.ownTransmitters := by
  cases h with
  | install address hfree =>
    rw [Write.on, ChannelLibrary.mem_keys_transmitters_install, or_comm]
    simp [ownTransmitters]
  | _ => simp [ownTransmitters, Write.on, ChannelLibrary.put]

theorem Writes.mem_keys_physical (h : change.Writes lib write) :
    label ∈ (write.on lib).physical.keys ↔
      label ∈ lib.physical.keys ∨ label ∈ change.ownOutputs := by
  cases h with
  | install address hfree =>
    rw [Write.on, ChannelLibrary.mem_keys_physical_install hfree, ownOutputs_install,
      List.mem_map]
  | _ => simp [ownOutputs, Write.on, ChannelLibrary.put]

theorem Writes.mem_keys_logical (h : change.Writes lib write) :
    label ∈ (write.on lib).logical.keys ↔
      label ∈ lib.logical.keys ∨ label ∈ change.ownLogical := by
  cases h with
  | install address hfree => simp [ownLogical, Write.on, ChannelLibrary.install]
  | @driveQubit qubit transmitter physical output hqubit houtput =>
    have hmem := Table.mem_keys_of_get? hqubit
    rw [Write.on, ChannelLibrary.mem_keys_logical_put]
    simp only [ownLogical, List.not_mem_nil, or_false, or_iff_right_iff_imp]
    rintro rfl
    exact hmem
  | _ =>
    rw [Write.on, ChannelLibrary.mem_keys_logical_put, or_comm]
    simp [ownLogical]

theorem Writes.sets?_of_contains (h : change.Writes lib write)
    (hown : label ∈ change.ownTransmitters ++ change.ownOutputs ++ change.ownLogical)
    (hcontains : lib.contains label = true) : change.sets? = some label := by
  cases h with
  | @install model transmitter address hfree =>
    have hmem : label ∈ model.labels transmitter := by
      simpa [ownTransmitters, ownOutputs_install, ownLogical, Edit.Model.labels] using hown
    rw [hfree label hmem] at hcontains
    cases hcontains
  | addQubit hfree =>
    cases List.mem_singleton.mp hown
    rw [hfree] at hcontains
    cases hcontains
  | addMarker houtput hkind hfree =>
    cases List.mem_singleton.mp hown
    rw [hfree] at hcontains
    cases hcontains
  | driveQubit hqubit houtput => cases hown
  | measureQubit hqubit houtput hlabel =>
    cases List.mem_singleton.mp hown
    rfl

theorem Writes.made (h : change.Writes lib write) (hlabelled : lib.Labelled) :
    change.Made lib (write.on lib) where
  transmitters _ _ := h.get?_transmitters
  physical _ _ := h.get?_physical
  logical _ _ := h.get?_logical
  output _ _ := h.get?_logical_set hlabelled
  mapped label c hc hmapped := by
    by_cases hsets : change.sets? = some label
    · obtain ⟨output, hget⟩ := h.get?_logical_set hlabelled hc hsets
      exact ⟨_, hget, rfl⟩
    · exact ⟨c, h.get?_logical hc hsets, hmapped⟩
  transmitterKeys _ := h.mem_keys_transmitters
  physicalKeys _ := h.mem_keys_physical
  logicalKeys _ := h.mem_keys_logical
  fresh _ := h.sets?_of_contains

end Kept

/-! ## When a label is in the way -/

end Change

theorem Transaction.apply_eq (t : Transaction) {α : Type} (edit : Edit α) :
    t.apply edit = ({ t with working := (edit.on t.working).2 }, (edit.on t.working).1) := rfl

/-! ## The law -/

end PulseSequencer
