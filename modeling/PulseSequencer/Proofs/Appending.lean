-- A waveform library only gets longer. Whatever is asked of it, and also where
-- that fails half-way, its channels and their waveforms stay in their places,
-- bit by bit, and channels that nobody named are left alone.
import PulseSequencer.Proofs.Solo

namespace PulseSequencer

open Compilation WaveformLibrary

attribute [local irreducible] Waveform.key

/-! ## Steps that leave a channel alone -/

namespace Compilation

variable {α β : Type} {channel : Channel}

theorem spares_report (events : List Event) : Spares channel (report events) := fun _ => rfl

theorem spares_apart (step : Compilation α) : Spares channel (apart step) := fun _ => rfl

theorem spares_register {other : Channel} (h : channel ≠ other) :
    Spares channel (register other) := by
  intro lib
  exact (receives_register lib other).others channel (by simpa using h)

/-- The second step may rely on what the first one answered. -/
theorem spares_bind_yields {step : Compilation α} {next : α → Compilation β}
    (h : Spares channel step)
    (hnext : ∀ a lib lib', step.Yields lib a lib' → Spares channel (next a)) :
    Spares channel (step >>= next) := by
  intro lib
  rw [bind_apply]
  split
  · exact h lib
  · rename_i a ha
    exact (hnext a lib _ ⟨ha, rfl⟩ _).trans (h lib)

end Compilation

namespace Schedule

variable {channel : Channel} {cutoff : Nat}

theorem spares_registerAll {channels : List Channel} (h : channel ∉ channels) :
    Spares channel (registerAll channels) := by
  induction channels with
  | nil => exact spares_pure _
  | cons other rest ih =>
    rw [List.mem_cons, not_or] at h
    exact spares_bind (spares_register h.1) fun _ => ih h.2

theorem spares_extendAll {index : Nat} {blocks : List Block} {lists : ChannelLists}
    (h : channel ∉ lists.map Prod.fst) : Spares channel (extendAll cutoff index blocks lists) := by
  induction blocks generalizing index lists with
  | nil => exact spares_pure _
  | cons b rest ih =>
    unfold extendAll
    split
    · exact spares_bind (spares_report _) fun _ => ih h
    · -- the lists get longer, but they are lists of the same channels
      refine spares_bind_yields (spares_extend h) ?_
      intro lists' lib lib' hextend
      apply ih
      rw [(extend_yields hextend).1, List.map_map]
      exact h

theorem spares_build {blocks : List Block} (h : channel ∉ channels blocks) :
    Spares channel (build cutoff blocks) := by
  refine spares_bind (spares_registerAll h) fun _ => ?_
  refine spares_bind (spares_extendAll ?_) fun _ => ?_
  · rw [Table.map_fst_graph]
    exact h
  · exact spares_bind (spares_report _) fun _ => spares_pure _

theorem grows_build (cutoff : Nat) (blocks : List Block) : Grows (build cutoff blocks) :=
  grows_bind (grows_registerAll _) fun _ => grows_bind (grows_extendAll _ _ _ _) fun _ =>
    grows_bind (grows_report _) fun _ => grows_pure _

end Schedule

theorem Program.spares_compileOne {settings : Settings} {channel : Channel} {blocks : List Block}
    (h : channel ∉ Schedule.channels blocks) : Spares channel (compileOne settings blocks) := by
  refine spares_bind_yields (spares_apart _) ?_
  rintro ⟨lists, sources⟩ lib lib' hapart
  apply Frame.spares_applyAll
  rw [Schedule.build_lists (yields_apart_iff.mp hapart).1, Table.map_fst_graph]
  exact h

/-! ## A library that gets longer -/

namespace WaveformLibrary

/-- From `lib` to `lib'` nothing was lost: channels come in the same order, each with the same
waveforms in the same order, and what is new comes behind. Only channels in `named` changed. -/
structure Appends (named : List Channel) (lib lib' : WaveformLibrary) : Prop where
  channels : lib.channels.keys <+: lib'.channels.keys
  waveforms : ∀ channel ws, lib.channels.get? channel = some ws →
    ∃ later, lib'.channels.get? channel = some later ∧ ws.entries <+: later.entries
  others : ∀ channel, channel ∉ named → lib'.channels.get? channel = lib.channels.get? channel

variable {lib lib' : WaveformLibrary}

theorem Appends.refl (lib : WaveformLibrary) : Appends [] lib lib :=
  ⟨List.prefix_rfl, fun _ ws hws => ⟨ws, hws, List.prefix_rfl⟩, fun _ _ => rfl⟩

theorem Appends.trans {a b c : WaveformLibrary} {first second : List Channel}
    (h : Appends first a b) (h' : Appends second b c) : Appends (first ++ second) a c := by
  refine ⟨h.channels.trans h'.channels, ?_, ?_⟩
  · intro channel ws hws
    obtain ⟨middle, hmiddle, hprefix⟩ := h.waveforms channel ws hws
    obtain ⟨later, hlater, hprefix'⟩ := h'.waveforms channel middle hmiddle
    exact ⟨later, hlater, hprefix.trans hprefix'⟩
  · intro channel hc
    rw [List.mem_append, not_or] at hc
    rw [h'.others channel hc.2, h.others channel hc.1]

theorem GrowsTo.appends {named : List Channel} (h : lib.GrowsTo lib')
    (hothers : ∀ channel, channel ∉ named → AgreeOn channel lib' lib) :
    Appends named lib lib' := by
  refine ⟨h.channels, ?_, hothers⟩
  intro channel ws hws
  have hmem := h.channels.subset (Table.mem_keys_of_get? hws)
  obtain ⟨later, hlater⟩ := Table.exists_get? hmem
  have hprefix := h.waveforms channel
  simp only [WaveformLibrary.waveforms, hws, hlater, Option.getD_some] at hprefix
  exact ⟨later, hlater, hprefix⟩

/-- What can be asked of a library. -/
inductive Operation where
  | register (channel : Channel)
  | insert (channel : Channel) (w : Waveform)
  /-- The frame pass over one list. -/
  | turn (detect : Bool) (sources : WaveformLibrary) (channel : Channel) (list : LinkList)
  | build (cutoff : Nat) (blocks : List Block)
  | compile (settings : Settings) (blocks : List Block)

namespace Operation

/-- What the operation leaves of a library, whether it succeeds or fails. -/
def run : Operation → WaveformLibrary → WaveformLibrary
  | register channel, lib => lib.register channel
  | insert channel w, lib => (lib.insert channel w).1
  | turn detect sources channel list, lib => (Frame.apply detect sources channel list lib).library
  | build cutoff blocks, lib => (Schedule.build cutoff blocks lib).library
  | compile settings blocks, lib => (Program.compileOne settings blocks lib).library

/-- The channels that the operation names, itself or in its blocks. -/
def named : Operation → List Channel
  | register channel => [channel]
  | insert channel _ => [channel]
  | turn _ _ channel _ => [channel]
  | build _ blocks => blocks.flatMap (·.pulses.keys)
  | compile _ blocks => blocks.flatMap (·.pulses.keys)

/-- Several operations, one after another. -/
def runAll (ops : List Operation) (lib : WaveformLibrary) : WaveformLibrary :=
  ops.foldl (fun lib op => op.run lib) lib

theorem appends_run (op : Operation) (lib : WaveformLibrary) :
    Appends op.named lib (op.run lib) := by
  cases op with
  | register channel =>
    refine (growsTo_register lib channel).appends ?_
    intro other hother
    exact spares_register (List.ne_of_not_mem_cons hother) lib
  | insert channel w =>
    refine (growsTo_insert lib channel w).appends ?_
    intro other hother
    exact spares_store (List.ne_of_not_mem_cons hother) w lib
  | turn detect sources channel list =>
    refine (Frame.grows_step detect sources channel list lib).appends ?_
    intro other hother
    exact Frame.spares_step (List.ne_of_not_mem_cons hother) list lib
  | build cutoff blocks =>
    refine (Schedule.grows_build cutoff blocks lib).appends ?_
    intro other hother
    exact Schedule.spares_build (mt (Schedule.mem_firstUses _ _).mp hother) lib
  | compile settings blocks =>
    refine (Program.grows_compileOne settings blocks lib).appends ?_
    intro other hother
    exact Program.spares_compileOne (mt (Schedule.mem_firstUses _ _).mp hother) lib

theorem appends_runAll (ops : List Operation) (lib : WaveformLibrary) :
    Appends (ops.flatMap named) lib (runAll ops lib) := by
  induction ops generalizing lib with
  | nil => exact .refl lib
  | cons op rest ih => exact (op.appends_run lib).trans (ih (op.run lib))

end Operation

/-! ## An insertion that fails -/

/-- An insertion fails over another content under the key, and over nothing else. -/
theorem insert_eq_error_iff (lib : WaveformLibrary) (channel : Channel) (w : Waveform)
    (e : CompileError) :
    (lib.insert channel w).2 = .error e ↔ e = .keyCollision channel w.key ∧
      ∃ stored, (lib.register channel).get? channel w.key = some stored ∧
        stored.contentEq w = false := by
  unfold insert
  dsimp only
  split
  · rename_i hnone
    simp [hnone]
  · rename_i stored hstored
    split
    · rename_i hsame
      simp [hstored, hsame]
    · rename_i hdiffers
      rw [Bool.not_eq_true] at hdiffers
      constructor
      · intro h
        cases h
        exact ⟨rfl, stored, hstored, hdiffers⟩
      · rintro ⟨rfl, -⟩
        rfl

/-- All that an insertion leaves if it fails is that the channel is registered. -/
theorem library_of_insert_error {channel : Channel} {w : Waveform} {e : CompileError}
    (h : (lib.insert channel w).2 = .error e) :
    (lib.insert channel w).1 = lib.register channel := by
  unfold insert at h ⊢
  dsimp only at h ⊢
  split at h
  · cases h
  · split <;> rfl

/-- No operation takes anything out of a library, moves it or writes over it, neither one that
succeeds nor one that fails half-way, and nor do many of them in a row. Channels that are not named
do not change. An insertion fails if the channel, once it is registered, has another content under
the key, and only then; and where the channel was there already, it then leaves everything as it
was. -/
theorem a_library_only_gets_longer (lib : WaveformLibrary) :
    (∀ op : Operation, Appends op.named lib (op.run lib)) ∧
      (∀ ops : List Operation,
        Appends (ops.flatMap Operation.named) lib (Operation.runAll ops lib)) ∧
      ∀ channel w e,
        ((lib.insert channel w).2 = .error e ↔ e = .keyCollision channel w.key ∧
          ∃ stored, (lib.register channel).get? channel w.key = some stored ∧
            stored.contentEq w = false) ∧
        ((lib.insert channel w).2 = .error e → channel ∈ lib.channels.keys →
          (lib.insert channel w).1 = lib) := by
  refine ⟨fun op => op.appends_run lib, fun ops => Operation.appends_runAll ops lib, ?_⟩
  intro channel w e
  refine ⟨lib.insert_eq_error_iff channel w e, ?_⟩
  intro herror hmem
  rw [library_of_insert_error herror, register_of_mem hmem]

/-- A library that has two zeros under the key of another waveform. -/
theorem a_collision_leaves_a_library_alone :
    ∃ (lib : WaveformLibrary) (w : Waveform),
      lib.get? "q1" w.key = some (.zeros 2) ∧
        (lib.insert "q1" w).2 = .error (.keyCollision "q1" w.key) ∧
        (lib.insert "q1" w).1 = lib := by
  let w := Waveform.ofReal [.one]
  let lib : WaveformLibrary := ⟨Table.empty.insert "q1" (Table.empty.insert w.key (.zeros 2))⟩
  have hmem : "q1" ∈ lib.channels.keys := Table.mem_keys_insert.mpr (Or.inl rfl)
  have hget : lib.get? "q1" w.key = some (.zeros 2) := by
    rw [get?_eq, WaveformLibrary.waveforms, Table.get?_insert, if_pos rfl, Option.getD_some,
      Table.get?_insert, if_pos rfl]
  obtain ⟨hcollides, hleft⟩ :=
    (a_library_only_gets_longer lib).2.2 "q1" w (.keyCollision "q1" w.key)
  have herror := hcollides.mpr ⟨rfl, .zeros 2, by rw [register_of_mem hmem]; exact hget, by decide⟩
  exact ⟨lib, w, hget, herror, hleft herror hmem⟩

end WaveformLibrary

end PulseSequencer
