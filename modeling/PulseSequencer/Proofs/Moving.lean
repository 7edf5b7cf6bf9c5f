-- Programs moved onto outputs. Either every channel gets an output of its own,
-- and the program is the same under other names, or the first channel that does
-- not get one is to blame.
import PulseSequencer.Proofs.ChannelHistory
import PulseSequencer.Wiring

namespace PulseSequencer

/-! ## The output of a channel -/

namespace ChannelLibrary

/-- The label of the output that a channel is played on, if it is played. -/
def output? (lib : ChannelLibrary) (channel : Channel) : Option Channel :=
  (lib.outputOf channel).toOption.map (·.label)

/-- A channel that is not known, or that no output was given to. -/
def Unplayed (lib : ChannelLibrary) (channel : Channel) : Prop :=
  lib.logical.get? channel = none ∨ ∃ c, lib.logical.get? channel = some c ∧ c.physical = none

end ChannelLibrary

namespace Wiring

theorem resolve_eq_ok_iff {lib : ChannelLibrary} {channel out : Channel} :
    resolve lib channel = .ok out ↔ lib.output? channel = some out := by
  unfold resolve ChannelLibrary.output?
  cases lib.outputOf channel with
  | ok o => simp [Except.toOption]
  | error e => cases e <;> simp [Except.toOption]

/-- What a channel is played on exists, so one that is not played was never given an output. -/
theorem resolve_eq_error {lib : ChannelLibrary} (h : lib.Played) {channel : Channel}
    {e : CompileError} (he : resolve lib channel = .error e) :
    lib.Unplayed channel ∧ e = .unmappedChannel channel := by
  unfold resolve ChannelLibrary.outputOf at he
  unfold ChannelLibrary.Unplayed
  cases hget : lib.logical.get? channel with
  | none =>
    rw [hget] at he
    cases he
    exact ⟨Or.inl rfl, rfl⟩
  | some c =>
    rw [hget] at he
    cases hphysical : c.physical with
    | none =>
      simp only [hphysical] at he
      cases he
      exact ⟨Or.inr ⟨c, rfl, hphysical⟩, rfl⟩
    | some label =>
      obtain ⟨o, ho, _⟩ := h channel c hget label hphysical
      simp [hphysical, ChannelLibrary.physicalChannel, ho] at he

/-! ## Laying the wires -/

/-- Every wire ends at the output of its channel, and no two at the same one. -/
structure Laid (lib : ChannelLibrary) (wires : List Wire) : Prop where
  ends : ∀ w ∈ wires, lib.output? w.logical = some w.physical
  apart : (wires.map Wire.physical).Nodup

/-- What comes of wiring channels: all of them are wired, or the wires end before a channel that
has no output, or one whose output is taken. -/
inductive Comes (lib : ChannelLibrary) (channels : List Channel) :
    List Wire × Except CompileError Unit → Prop
  | done {wires : List Wire} (hwires : wires.map Wire.logical = channels) (h : Laid lib wires) :
    Comes lib channels (wires, .ok ())
  | lacking {wires : List Wire} {c : Channel} {rest : List Channel} {e : CompileError}
    (hwires : wires.map Wire.logical ++ c :: rest = channels) (h : Laid lib wires)
    (hc : resolve lib c = .error e) : Comes lib channels (wires, .error e)
  | taken {wires : List Wire} {c : Channel} {rest : List Channel} {w : Wire}
    (hwires : wires.map Wire.logical ++ c :: rest = channels) (h : Laid lib wires) (hw : w ∈ wires)
    (hc : lib.output? c = some w.physical) :
    Comes lib channels (wires, .error (.physicalConflict w.physical w.logical c))

theorem Laid.snoc {lib : ChannelLibrary} {wires : List Wire} (h : Laid lib wires)
    {c out : Channel} (hc : lib.output? c = some out)
    (hfree : ∀ w ∈ wires, w.physical ≠ out) : Laid lib (wires ++ [⟨c, out⟩]) := by
  refine ⟨?_, ?_⟩
  · intro w hw
    rcases List.mem_append.mp hw with hw | hw
    · exact h.ends w hw
    · rw [List.mem_singleton] at hw
      subst hw
      exact hc
  · rw [List.map_append, List.map_singleton]
    refine List.nodup_append.mpr ⟨h.apart, List.nodup_singleton _, ?_⟩
    intro physical hphysical other hother
    obtain ⟨w, hw, rfl⟩ := List.mem_map.mp hphysical
    rw [List.mem_singleton] at hother
    subst hother
    exact hfree w hw

theorem comes_lay {lib : ChannelLibrary} (channels : List Channel) {wires : List Wire}
    (h : Laid lib wires) :
    Comes lib (wires.map Wire.logical ++ channels) (lay lib wires channels) := by
  induction channels generalizing wires with
  | nil => exact .done (by simp) h
  | cons c rest ih =>
    unfold lay
    split
    · rename_i e he
      exact .lacking rfl h he
    · rename_i out hout
      rw [resolve_eq_ok_iff] at hout
      split
      · rename_i first hfirst
        have hsame : first.physical = out := by simpa using List.find?_some hfirst
        subst hsame
        exact .taken rfl h (List.mem_of_find?_eq_some hfirst) hout
      · rename_i hnone
        have hfree : ∀ w ∈ wires, w.physical ≠ out := by
          simpa using hnone
        have hrest := ih (h.snoc hout hfree)
        rw [List.map_append, List.append_assoc] at hrest
        exact hrest

/-- The channels of laid wires have outputs, and no two the same. -/
theorem Laid.outputs {lib : ChannelLibrary} {wires : List Wire} (h : Laid lib wires) :
    (∀ c ∈ wires.map Wire.logical, lib.output? c ≠ none) ∧
      ((wires.map Wire.logical).map lib.output?).Nodup := by
  refine ⟨?_, ?_⟩
  · intro c hc
    obtain ⟨w, hw, rfl⟩ := List.mem_map.mp hc
    rw [h.ends w hw]
    exact Option.some_ne_none _
  · have hsome : (wires.map Wire.logical).map lib.output? = (wires.map Wire.physical).map some := by
      rw [List.map_map, List.map_map]
      exact List.map_congr_left h.ends
    rw [hsome]
    exact h.apart.map fun _ _ => Option.some.inj

section

variable {lib : ChannelLibrary} {channels : List Channel}
  {outcome : List Wire × Except CompileError Unit}

theorem Comes.laid (h : Comes lib channels outcome) (hok : outcome.2 = .ok ()) :
    outcome.1.map Wire.logical = channels ∧ Laid lib outcome.1 := by
  cases h with
  | done hwires h => exact ⟨hwires, h⟩
  | lacking | taken => cases hok

/-- All channels are wired if each has an output and no two have the same. -/
theorem Comes.answer_ok (h : Comes lib channels outcome)
    (hplayed : ∀ c ∈ channels, lib.output? c ≠ none)
    (hapart : (channels.map lib.output?).Nodup) : outcome.2 = .ok () := by
  cases h with
  | done hwires h => rfl
  | @lacking wires c rest e hwires h hc =>
    exfalso
    subst hwires
    obtain ⟨out, hout⟩ := Option.ne_none_iff_exists'.mp (hplayed c (by simp))
    rw [resolve_eq_ok_iff.mpr hout] at hc
    cases hc
  | @taken wires c rest w hwires h hw hc =>
    exfalso
    subst hwires
    rw [List.map_append, List.map_cons, List.nodup_append] at hapart
    have hfirst : lib.output? w.logical ∈ (wires.map Wire.logical).map lib.output? :=
      List.mem_map_of_mem (List.mem_map_of_mem hw)
    exact hapart.2.2 _ hfirst _ List.mem_cons_self ((h.ends w hw).trans hc.symm)

/-- An error names the first channel that cannot be wired, and for a conflict also the one before
it that has the output. -/
theorem Comes.answer_error (h : Comes lib channels outcome) (hlib : lib.Played) {e : CompileError}
    (he : outcome.2 = .error e) :
    ∃ before c after, channels = before ++ c :: after ∧
      (∀ d ∈ before, lib.output? d ≠ none) ∧ (before.map lib.output?).Nodup ∧
        (lib.Unplayed c ∧ e = .unmappedChannel c ∨
          ∃ first ∈ before, ∃ physical, lib.output? first = some physical ∧
            lib.output? c = some physical ∧ e = .physicalConflict physical first c) := by
  cases h with
  | done => cases he
  | @lacking wires c rest err hwires h hc =>
    cases he
    exact ⟨_, c, rest, hwires.symm, h.outputs.1, h.outputs.2, Or.inl (resolve_eq_error hlib hc)⟩
  | @taken wires c rest w hwires h hw hc =>
    cases he
    exact ⟨_, c, rest, hwires.symm, h.outputs.1, h.outputs.2,
      Or.inr ⟨w.logical, List.mem_map_of_mem hw, w.physical, h.ends w hw, hc, rfl⟩⟩

end

/-! ## The program under other names -/

section

variable {α : Type}

/-- What a table has for some channels, under other names. -/
def renamed (t : Table Channel α) (out : Channel → Channel) (channels : List Channel) :
    List (Channel × α) :=
  channels.filterMap fun c => (t.get? c).map (out c, ·)

theorem map_fst_renamed_sublist (t : Table Channel α) (out : Channel → Channel)
    (channels : List Channel) :
    ((renamed t out channels).map Prod.fst).Sublist (channels.map out) := by
  unfold renamed
  induction channels with
  | nil => exact List.Sublist.refl _
  | cons c rest ih =>
    rw [List.filterMap_cons]
    cases t.get? c with
    | none => exact ih.cons _
    | some a => exact ih.cons_cons _

/-- The channels of a table, and others: only the names change. -/
theorem renamed_keys_append (t : Table Channel α) (out : Channel → Channel)
    {others : List Channel} (h : ∀ c ∈ others, c ∉ t.keys) :
    renamed t out (t.keys ++ others) = t.entries.map fun e => (out e.1, e.2) := by
  have hothers : others.filterMap (fun c => (t.get? c).map (out c, ·)) = [] := by
    rw [List.filterMap_eq_nil_iff]
    intro c hc
    rw [(t.get?_eq_none_iff c).mpr (h c hc)]
    rfl
  unfold renamed
  rw [List.filterMap_append, hothers, List.append_nil, Table.keys, List.filterMap_map,
    ← List.filterMap_eq_map]
  apply List.filterMap_congr
  intro e he
  simp [Table.mem_entries_iff.mp he]

theorem mem_renamed {t : Table Channel α} (out : Channel → Channel) {channels : List Channel}
    {c : Channel} {a : α} (hc : c ∈ channels) (ha : t.get? c = some a) :
    (out c, a) ∈ renamed t out channels := by
  unfold renamed
  rw [List.mem_filterMap]
  exact ⟨c, hc, by rw [ha]; rfl⟩

end

/-- Where a channel is played; any name does for one that is not. -/
def target (lib : ChannelLibrary) (channel : Channel) : Channel :=
  (lib.output? channel).getD channel

variable {lib : ChannelLibrary} {wires : List Wire}

theorem Laid.target_eq (h : Laid lib wires) {w : Wire} (hw : w ∈ wires) :
    target lib w.logical = w.physical := by
  rw [target, h.ends w hw]
  rfl

theorem Laid.targets (h : Laid lib wires) :
    (wires.map Wire.logical).map (target lib) = wires.map Wire.physical := by
  rw [List.map_map]
  exact List.map_congr_left fun w hw => h.target_eq hw

theorem Laid.output?_eq (h : Laid lib wires) {c : Channel} (hc : c ∈ wires.map Wire.logical) :
    lib.output? c = some (target lib c) := by
  obtain ⟨w, hw, rfl⟩ := List.mem_map.mp hc
  rw [h.target_eq hw, h.ends w hw]

/-- No entry is lost, as no two wires end at the same output. -/
theorem Laid.entries_ofList {α : Type} (h : Laid lib wires) (t : Table Channel α) :
    (Table.ofList (wires.filterMap fun w => (t.get? w.logical).map (w.physical, ·))).entries =
      renamed t (target lib) (wires.map Wire.logical) := by
  have hnames : wires.filterMap (fun w => (t.get? w.logical).map (w.physical, ·)) =
      renamed t (target lib) (wires.map Wire.logical) := by
    unfold renamed
    rw [List.filterMap_map]
    apply List.filterMap_congr
    intro w hw
    rw [Function.comp_apply, h.target_eq hw]
  rw [hnames]
  apply Table.entries_ofList
  refine List.Nodup.sublist (map_fst_renamed_sublist t (target lib) _) ?_
  rw [h.targets]
  exact h.apart

theorem visited_eq (p : Program) :
    visited p =
      p.linkLists.keys ++ p.waveforms.channels.keys.filter (· ∉ p.linkLists.keys) := by
  unfold visited
  congr 1
  apply List.filter_congr
  intro c _
  by_cases hc : c ∈ p.linkLists.keys <;> simp [Table.contains, hc]

theorem mem_visited_of_waveforms {p : Program} {c : Channel}
    (h : c ∈ p.waveforms.channels.keys) : c ∈ visited p := by
  rw [visited_eq, List.mem_append, List.mem_filter]
  by_cases hc : c ∈ p.linkLists.keys
  · exact Or.inl hc
  · exact Or.inr ⟨h, by simpa using hc⟩

/-- A program with all its channels wired is the same under the names of the outputs. -/
theorem Laid.rekey (h : Laid lib wires) {p : Program}
    (hwires : wires.map Wire.logical = visited p) :
    (rekey p wires).linkLists.entries =
        p.linkLists.entries.map (fun e => (target lib e.1, e.2)) ∧
      (rekey p wires).waveforms.channels.entries =
        renamed p.waveforms.channels (target lib) (visited p) ∧
      ∀ c key w, p.waveforms.get? c key = some w →
        (rekey p wires).waveforms.get? (target lib c) key = some w := by
  have hlists : (Wiring.rekey p wires).linkLists.entries =
      renamed p.linkLists (target lib) (visited p) := by
    rw [← hwires]
    exact h.entries_ofList p.linkLists
  have hwaveforms : (Wiring.rekey p wires).waveforms.channels.entries =
      renamed p.waveforms.channels (target lib) (visited p) := by
    rw [← hwires]
    exact h.entries_ofList p.waveforms.channels
  refine ⟨?_, hwaveforms, ?_⟩
  · rw [hlists, visited_eq]
    apply renamed_keys_append
    intro c hc
    simpa using (List.mem_filter.mp hc).2
  · intro c key w hw
    obtain ⟨ws, hws, hkey⟩ := Option.bind_eq_some_iff.mp hw
    have hmem : (target lib c, ws) ∈ (Wiring.rekey p wires).waveforms.channels.entries := by
      rw [hwaveforms]
      exact mem_renamed _ (mem_visited_of_waveforms (Table.mem_keys_of_get? hws)) hws
    rw [WaveformLibrary.get?, Table.mem_entries_iff.mp hmem]
    exact hkey

end Wiring

/-! ## The law -/

namespace Program

open Wiring

/-- A program can be moved if and only if each of its channels has an output and no two have the
same one; the channels are those with link lists and those that only have waveforms, in this order.
What is moved is the same under the names of the outputs: the link lists, and the waveforms of every
channel, with all that could be looked up. Otherwise the first channel that cannot be wired is named:
it has no output, or it has that of a channel before it. -/
theorem a_program_moves_as_a_whole_or_not_at_all (p : Program) {lib : ChannelLibrary}
    (hlib : Stage.Reachable (.published lib)) :
    let channels := p.linkLists.keys ++ p.waveforms.channels.keys.filter (· ∉ p.linkLists.keys)
    ((∃ q, (p.moveOnto lib).2 = .ok q) ↔
        (∀ c ∈ channels, lib.output? c ≠ none) ∧ (channels.map lib.output?).Nodup) ∧
      (∀ q, (p.moveOnto lib).2 = .ok q → ∃ out : Channel → Channel,
        (∀ c ∈ channels, lib.output? c = some (out c)) ∧
          q.linkLists.entries = p.linkLists.entries.map (fun e => (out e.1, e.2)) ∧
          q.waveforms.channels.entries = channels.filterMap
            (fun c => (p.waveforms.channels.get? c).map (out c, ·)) ∧
          ∀ c key w, p.waveforms.get? c key = some w → q.waveforms.get? (out c) key = some w) ∧
      ∀ e, (p.moveOnto lib).2 = .error e → ∃ before c after, channels = before ++ c :: after ∧
        (∀ d ∈ before, lib.output? d ≠ none) ∧ (before.map lib.output?).Nodup ∧
          (lib.Unplayed c ∧ e = .unmappedChannel c ∨
            ∃ first ∈ before, ∃ physical, lib.output? first = some physical ∧
              lib.output? c = some physical ∧ e = .physicalConflict physical first c) := by
  intro channels
  have hchannels : visited p = channels := visited_eq p
  have hcomes : Comes lib channels (lay lib [] (visited p)) := by
    rw [← hchannels]
    exact comes_lay (visited p) ⟨fun w hw => absurd hw List.not_mem_nil, List.nodup_nil⟩
  have hmove : (p.moveOnto lib).2 = (lay lib [] (visited p)).2.map fun _ =>
      rekey p (lay lib [] (visited p)).1 := rfl
  rw [hmove]
  generalize lay lib [] (visited p) = outcome at hcomes
  obtain ⟨wires, answer⟩ := outcome
  refine ⟨⟨?_, ?_⟩, ?_, ?_⟩
  · rintro ⟨q, hq⟩
    cases answer with
    | error e => cases hq
    | ok u =>
      obtain ⟨hwires, hlaid⟩ := hcomes.laid rfl
      rw [← hwires]
      exact hlaid.outputs
  · rintro ⟨hplayed, hapart⟩
    rw [hcomes.answer_ok hplayed hapart]
    exact ⟨_, rfl⟩
  · intro q hq
    cases answer with
    | error e => cases hq
    | ok u =>
      cases hq
      obtain ⟨hwires, hlaid⟩ := hcomes.laid rfl
      obtain ⟨hlists, hwaveforms, hfound⟩ := hlaid.rekey (hwires.trans hchannels.symm)
      rw [hchannels] at hwaveforms
      refine ⟨target lib, ?_, hlists, hwaveforms, hfound⟩
      intro c hc
      rw [← hwires] at hc
      exact hlaid.output?_eq hc
  · intro e he
    cases answer with
    | error err =>
      cases he
      exact hcomes.answer_error hlib.wired.played rfl
    | ok u => cases he

/-- A qubit has link lists and a marker only has waveforms: both can be moved. A measurement that
shares the output of its qubit is in the way. -/
theorem a_rig_plays_a_qubit_but_not_with_its_measurement :
    let lib := ((Transaction.start .empty).applyAll Stage.rig).working
    let zero := WaveformLibrary.fresh
    let waveforms : WaveformLibrary := ⟨.ofList [("trigger", zero), ("q", zero)]⟩
    let p : Program := ⟨.ofList [("q", [[.padding 1]])], waveforms⟩
    let measured : Program := ⟨.ofList [("q", []), ("M-q", [])], waveforms⟩
    Stage.Reachable (.published lib) ∧
      (∃ q, (p.moveOnto lib).2 = .ok q ∧ q.linkLists.entries = [("A-1", [[.padding 1]])] ∧
        q.waveforms.channels.entries = [("A-1", zero), ("A-m1", zero)]) ∧
      (measured.moveOnto lib).2 = .error (.physicalConflict "A-1" "q" "M-q") := by
  intro lib zero waveforms p measured
  have hstaged : Stage.Reachable (.staged ((Transaction.start .empty).applyAll Stage.rig)) :=
    Stage.Reachable.empty.start.applyAll Stage.rig
  obtain ⟨event, hcommit⟩ := Stage.commit_eq_ok hstaged.wired.2
  have hlib : Stage.Reachable (.published lib) := hstaged.commit hcommit
  refine ⟨hlib, ?_, rfl⟩
  obtain ⟨hmoves, hsame, _⟩ := a_program_moves_as_a_whole_or_not_at_all p hlib
  obtain ⟨q, hmoved⟩ := hmoves.mpr (by decide)
  obtain ⟨out, hout, hlists, hwaveforms, _⟩ := hsame q hmoved
  have hq : some (out "q") = some "A-1" := (hout "q" (by decide)).symm.trans (by decide)
  have htrigger : some (out "trigger") = some "A-m1" :=
    (hout "trigger" (by decide)).symm.trans (by decide)
  refine ⟨q, hmoved, ?_, ?_⟩
  · rw [hlists, ← Option.some.inj hq]
    rfl
  · rw [hwaveforms, ← Option.some.inj hq, ← Option.some.inj htrigger]
    rfl

end Program

end PulseSequencer
