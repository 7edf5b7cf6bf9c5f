-- The laws of the waveform library under the steps of the compiler: what is
-- stored stays stored, under its key and in its place, and what a step stores
-- can be found from then on.
import PulseSequencer.Proofs.Content
import PulseSequencer.Proofs.Tables
import PulseSequencer.Compilation

namespace PulseSequencer

/-! ## A library that grows -/

namespace WaveformLibrary

theorem get?_eq (lib : WaveformLibrary) (channel : Channel) (key : Digest) :
    lib.get? channel key = (lib.waveforms channel).get? key := by
  unfold get? waveforms
  cases lib.channels.get? channel <;> rfl

/-- Channels keep their places, and so do the waveforms of each channel; new ones come last. -/
structure GrowsTo (lib lib' : WaveformLibrary) : Prop where
  channels : lib.channels.keys <+: lib'.channels.keys
  waveforms : ∀ channel, (lib.waveforms channel).entries <+: (lib'.waveforms channel).entries

theorem GrowsTo.refl (lib : WaveformLibrary) : lib.GrowsTo lib :=
  ⟨List.prefix_refl _, fun _ => List.prefix_refl _⟩

theorem GrowsTo.trans {a b c : WaveformLibrary} (h : a.GrowsTo b) (h' : b.GrowsTo c) :
    a.GrowsTo c :=
  ⟨h.channels.trans h'.channels, fun channel => (h.waveforms channel).trans (h'.waveforms channel)⟩

theorem GrowsTo.get? {lib lib' : WaveformLibrary} (h : lib.GrowsTo lib') {channel : Channel}
    {key : Digest} {w : Waveform} (hw : lib.get? channel key = some w) :
    lib'.get? channel key = some w := by
  rw [get?_eq] at hw ⊢
  exact Table.get?_of_prefix (h.waveforms channel) hw

/-- Under `key` the channel has a waveform with the content of `w`. -/
def Holds (lib : WaveformLibrary) (channel : Channel) (key : Digest) (w : Waveform) : Prop :=
  ∃ stored, lib.get? channel key = some stored ∧ stored.content = w.content

theorem GrowsTo.holds {lib lib' : WaveformLibrary} (h : lib.GrowsTo lib') {channel : Channel}
    {key : Digest} {w : Waveform} (hw : lib.Holds channel key w) : lib'.Holds channel key w := by
  obtain ⟨stored, hget, hcontent⟩ := hw
  exact ⟨stored, h.get? hget, hcontent⟩

/-! ## Registering a channel -/

theorem waveforms_eq_empty {lib : WaveformLibrary} {channel : Channel}
    (h : channel ∉ lib.channels.keys) : lib.waveforms channel = .empty := by
  rw [waveforms, (Table.get?_eq_none_iff _ _).mpr h]
  rfl

theorem register_of_mem {lib : WaveformLibrary} {channel : Channel}
    (h : channel ∈ lib.channels.keys) : lib.register channel = lib := by
  rw [register_eq, if_pos]
  exact (Table.contains_iff _ _).mpr h

/-- A channel that is new starts with the single zero sample. -/
theorem waveforms_register_self {lib : WaveformLibrary} {channel : Channel}
    (h : channel ∉ lib.channels.keys) : (lib.register channel).waveforms channel = fresh := by
  have hc : ¬ lib.contains channel = true := fun hc => h ((Table.contains_iff _ _).mp hc)
  rw [register_eq, if_neg hc, waveforms, Table.get?_insert, if_pos rfl]
  rfl

theorem waveforms_register_of_ne (lib : WaveformLibrary) {channel other : Channel}
    (h : other ≠ channel) : (lib.register channel).waveforms other = lib.waveforms other := by
  rw [register_eq]
  split
  · rfl
  · rw [waveforms, Table.get?_insert, if_neg h]
    rfl

theorem growsTo_register (lib : WaveformLibrary) (channel : Channel) :
    lib.GrowsTo (lib.register channel) := by
  by_cases h : channel ∈ lib.channels.keys
  · rw [register_of_mem h]
    exact .refl lib
  · refine ⟨?_, ?_⟩
    · rw [keys_register, if_neg h]
      exact List.prefix_append _ _
    · intro other
      by_cases ho : other = channel
      · subst ho
        rw [waveforms_eq_empty h]
        exact List.nil_prefix
      · exact ⟨[], by rw [List.append_nil, waveforms_register_of_ne lib ho]⟩

/-- A channel that is registered for the first time holds the zero sample. -/
theorem holds_register {lib : WaveformLibrary} {channel : Channel}
    (h : channel ∉ lib.channels.keys) :
    (lib.register channel).Holds channel zeroKey (.zeros 1) := by
  refine ⟨.zeros 1, ?_, rfl⟩
  rw [get?_eq, waveforms_register_self h, fresh, Table.get?_insert, if_pos rfl]

/-! ## Storing a waveform -/

theorem mem_keys_register (lib : WaveformLibrary) (channel : Channel) :
    channel ∈ (lib.register channel).channels.keys :=
  (Table.contains_iff _ _).mp (contains_register lib channel)

/-- The library with one more waveform on a channel that it has. -/
theorem growsTo_extend {lib : WaveformLibrary} {channel : Channel} {key : Digest} (w : Waveform)
    (hc : channel ∈ lib.channels.keys) (hk : lib.get? channel key = none) :
    lib.GrowsTo ⟨lib.channels.insert channel ((lib.waveforms channel).insert key w)⟩ := by
  refine ⟨?_, ?_⟩
  · exact ⟨[], by rw [List.append_nil, Table.keys_insert, if_pos hc]⟩
  · intro other
    unfold waveforms
    rw [Table.get?_insert]
    split
    · rename_i ho
      subst ho
      rw [get?_eq] at hk
      exact Table.entries_prefix_insert _ w hk
    · exact List.prefix_refl _

theorem growsTo_insert (lib : WaveformLibrary) (channel : Channel) (w : Waveform) :
    lib.GrowsTo (lib.insert channel w).1 := by
  have hreg := growsTo_register lib channel
  unfold insert
  dsimp only
  split
  · rename_i hnone
    exact hreg.trans (growsTo_extend w (mem_keys_register lib channel) hnone)
  · split
    · exact hreg
    · exact hreg

/-- An insertion that succeeds answers with the key of the content, and leaves that content under
it, be it new or stored before. -/
theorem holds_of_insert_ok {lib : WaveformLibrary} {channel : Channel} {w : Waveform} {key : Digest}
    (h : (lib.insert channel w).2 = .ok key) :
    key = w.key ∧ (lib.insert channel w).1.Holds channel w.key w := by
  unfold insert at h ⊢
  dsimp only at h ⊢
  split at h
  · rename_i hnone
    simp only [Except.ok.injEq] at h ⊢
    refine ⟨h.symm, w, ?_, rfl⟩
    rw [get?_eq, waveforms, Table.get?_insert, if_pos rfl, Option.getD_some, Table.get?_insert,
      if_pos rfl]
  · rename_i stored hsome
    split at h
    · rename_i heq
      simp only [Except.ok.injEq] at h ⊢
      refine ⟨h.symm, stored, ?_, (Waveform.contentEq_iff _ _).mp heq⟩
      rw [if_pos heq]
      exact hsome
    · cases h

end WaveformLibrary

/-! ## Steps that succeed -/

namespace Compilation

variable {α β : Type}

/-- From the library `before` the step answers with `a` and leaves `after`. -/
def Yields (step : Compilation α) (before : WaveformLibrary) (a : α) (after : WaveformLibrary) :
    Prop :=
  (step before).answer = .ok a ∧ (step before).library = after

theorem yields_of_ok {step : Compilation α} {lib : WaveformLibrary} {a : α}
    (h : (step lib).answer = .ok a) : step.Yields lib a (step lib).library := ⟨h, rfl⟩

theorem yields_pure_iff {a b : α} {lib lib' : WaveformLibrary} :
    (pure b : Compilation α).Yields lib a lib' ↔ b = a ∧ lib = lib' := by
  unfold Yields
  rw [pure_apply]
  simp

/-- Two steps in a row succeed if both do, the second on what the first left. -/
theorem yields_bind_iff {step : Compilation α} {next : α → Compilation β} {b : β}
    {lib lib' : WaveformLibrary} :
    (step >>= next).Yields lib b lib' ↔
      ∃ a middle, step.Yields lib a middle ∧ (next a).Yields middle b lib' := by
  unfold Yields
  rw [bind_apply]
  constructor
  · intro h
    split at h
    · cases h.1
    · rename_i a ha
      exact ⟨a, _, ⟨ha, rfl⟩, h⟩
  · rintro ⟨a, middle, ⟨ha, rfl⟩, h⟩
    rw [ha]
    exact h

theorem Yields.library_bind {step : Compilation α} {next : α → Compilation β} {a : α}
    {lib middle : WaveformLibrary} (h : step.Yields lib a middle) :
    ((step >>= next) lib).library = (next a middle).library := by
  rw [bind_apply, h.1, h.2]

theorem library_bind_pure (step : Compilation α) (f : α → β) (lib : WaveformLibrary) :
    ((step >>= fun a => pure (f a)) lib).library = (step lib).library := by
  rw [bind_apply]
  split <;> rfl

theorem yields_report_iff {events : List Event} {u : Unit} {lib lib' : WaveformLibrary} :
    (report events).Yields lib u lib' ↔ lib = lib' := by
  simp [Yields, report]

theorem yields_ofExcept_iff {answer : Except CompileError α} {a : α} {lib lib' : WaveformLibrary} :
    (ofExcept answer).Yields lib a lib' ↔ answer = .ok a ∧ lib = lib' := by
  simp [Yields, ofExcept]

theorem yields_current_iff {a lib lib' : WaveformLibrary} :
    current.Yields lib a lib' ↔ lib = a ∧ lib = lib' := by
  simp [Yields, current]

theorem yields_register_iff {channel : Channel} {u : Unit} {lib lib' : WaveformLibrary} :
    (register channel).Yields lib u lib' ↔ lib.register channel = lib' := by
  simp [Yields, register]

theorem yields_store_iff {channel : Channel} {w : Waveform} {key : Digest}
    {lib lib' : WaveformLibrary} :
    (store channel w).Yields lib key lib' ↔
      (lib.insert channel w).2 = .ok key ∧ (lib.insert channel w).1 = lib' := by
  simp [Yields, store]

theorem yields_apart_iff {step : Compilation α} {a : α} {scratch lib lib' : WaveformLibrary} :
    (apart step).Yields lib (a, scratch) lib' ↔ step.Yields .empty a scratch ∧ lib = lib' := by
  unfold Yields apart
  generalize step .empty = outcome
  obtain ⟨left, events, answer⟩ := outcome
  cases answer <;> simp [Except.map]

/-! ## Steps that only add to the library

This holds of a step that fails as well. -/

def Grows (step : Compilation α) : Prop :=
  ∀ lib : WaveformLibrary, lib.GrowsTo (step lib).library

theorem grows_pure (a : α) : Grows (pure a : Compilation α) := fun lib => .refl lib

theorem grows_report (events : List Event) : Grows (report events) := fun lib => .refl lib

theorem grows_ofExcept (answer : Except CompileError α) : Grows (ofExcept answer) :=
  fun lib => .refl lib

theorem grows_apart (step : Compilation α) : Grows (apart step) := fun lib => .refl lib

theorem grows_register (channel : Channel) : Grows (register channel) :=
  fun lib => lib.growsTo_register channel

theorem grows_store (channel : Channel) (w : Waveform) : Grows (store channel w) :=
  fun lib => lib.growsTo_insert channel w

theorem grows_bind {step : Compilation α} {next : α → Compilation β} (h : Grows step)
    (hnext : ∀ a, Grows (next a)) : Grows (step >>= next) := by
  intro lib
  rw [bind_apply]
  split
  · exact h lib
  · rename_i a ha
    exact (h lib).trans (hnext a _)

theorem Yields.growsTo {step : Compilation α} {a : α} {lib lib' : WaveformLibrary}
    (h : step.Yields lib a lib') (hg : Grows step) : lib.GrowsTo lib' := by
  rw [← h.2]
  exact hg lib

end Compilation

end PulseSequencer
