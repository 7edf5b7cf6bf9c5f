-- One channel by itself. A step for a channel sees and changes nothing but the
-- waveforms of that channel, so each channel of a sequence comes out as if it
-- were compiled alone, with the blocks as long as they are.
import PulseSequencer.Proofs.Inventory

namespace PulseSequencer

open Compilation

attribute [local irreducible] Waveform.key

/-! ## Libraries that agree on a channel -/

namespace WaveformLibrary

/-- Both have the same waveforms for the channel, in the same order, or both do not know it. -/
def AgreeOn (channel : Channel) (lib lib' : WaveformLibrary) : Prop :=
  lib.channels.get? channel = lib'.channels.get? channel

variable {lib lib' : WaveformLibrary} {channel : Channel}

theorem AgreeOn.symm (h : AgreeOn channel lib lib') : AgreeOn channel lib' lib := Eq.symm h

theorem AgreeOn.initial (h : AgreeOn channel lib lib') :
    lib.initial channel = lib'.initial channel := by
  unfold WaveformLibrary.initial
  rw [h]

theorem AgreeOn.get? (h : AgreeOn channel lib lib') (key : Digest) :
    lib.get? channel key = lib'.get? channel key := by
  unfold WaveformLibrary.get?
  rw [h]

theorem get?_eq_initial (h : channel ∈ lib.channels.keys) :
    lib.channels.get? channel = some (lib.initial channel) := by
  obtain ⟨ws, hws⟩ := Table.exists_get? h
  rw [WaveformLibrary.initial, hws]
  rfl

theorem get?_register_self (lib : WaveformLibrary) (channel : Channel) :
    (lib.register channel).channels.get? channel = some (lib.initial channel) := by
  rw [get?_eq_initial (lib.mem_keys_register channel), initial_register]

/-- An insertion in terms of what the channel starts from. -/
theorem insert_eq (lib : WaveformLibrary) (channel : Channel) (w : Waveform) :
    lib.insert channel w =
      match (lib.initial channel).get? w.key with
      | none =>
        (⟨(lib.register channel).channels.insert channel ((lib.initial channel).insert w.key w)⟩,
          .ok w.key)
      | some stored =>
        (lib.register channel,
          if stored.contentEq w then .ok w.key else .error (.keyCollision channel w.key)) := by
  have hreg := get?_register_self lib channel
  have hwaveforms : (lib.register channel).waveforms channel = lib.initial channel := by
    rw [waveforms, hreg]
    rfl
  unfold insert
  dsimp only
  rw [get?_eq, hwaveforms]
  cases (lib.initial channel).get? w.key with
  | none => rfl
  | some stored =>
    dsimp only
    split <;> rfl

theorem AgreeOn.register (h : AgreeOn channel lib lib') :
    AgreeOn channel (lib.register channel) (lib'.register channel) := by
  unfold AgreeOn
  rw [get?_register_self, get?_register_self, h.initial]

theorem AgreeOn.insert (h : AgreeOn channel lib lib') (w : Waveform) :
    (lib.insert channel w).2 = (lib'.insert channel w).2 ∧
      AgreeOn channel (lib.insert channel w).1 (lib'.insert channel w).1 := by
  rw [insert_eq, insert_eq, h.initial]
  cases (lib'.initial channel).get? w.key with
  | none =>
    refine ⟨rfl, ?_⟩
    unfold AgreeOn
    rw [Table.get?_insert, Table.get?_insert, if_pos rfl, if_pos rfl]
  | some stored => exact ⟨rfl, h.register⟩

end WaveformLibrary

open WaveformLibrary

/-! ## Steps for one channel -/

namespace Compilation

variable {α β : Type} {channel : Channel}

/-- The step leaves a channel as it was, also if it fails. -/
def Spares (channel : Channel) (step : Compilation α) : Prop :=
  ∀ lib, AgreeOn channel (step lib).library lib

/-- What the step answers, and what it makes of the channel, can be told from the channel. -/
def Local (channel : Channel) (step : Compilation α) : Prop :=
  ∀ lib lib', AgreeOn channel lib lib' →
    (step lib).answer = (step lib').answer ∧ AgreeOn channel (step lib).library (step lib').library

theorem spares_pure (a : α) : Spares channel (pure a : Compilation α) := fun _ => rfl

theorem spares_ofExcept (answer : Except CompileError α) : Spares channel (ofExcept answer) :=
  fun _ => rfl

theorem spares_store {other : Channel} (h : channel ≠ other) (w : Waveform) :
    Spares channel (store other w) := by
  intro lib
  exact (receives_insert lib other w).others channel (by simpa using h)

theorem spares_bind {step : Compilation α} {next : α → Compilation β} (h : Spares channel step)
    (hnext : ∀ a, Spares channel (next a)) : Spares channel (step >>= next) := by
  intro lib
  rw [bind_apply]
  split
  · exact h lib
  · rename_i a ha
    exact (hnext a _).trans (h lib)

theorem local_pure (a : α) : Local channel (pure a : Compilation α) := fun _ _ h => ⟨rfl, h⟩

theorem local_ofExcept (answer : Except CompileError α) : Local channel (ofExcept answer) :=
  fun _ _ h => ⟨rfl, h⟩

theorem local_store (w : Waveform) : Local channel (store channel w) := fun _ _ h => h.insert w

theorem local_apart (step : Compilation α) : Local channel (apart step) := fun _ _ h => ⟨rfl, h⟩

theorem local_bind {step : Compilation α} {next : α → Compilation β} (h : Local channel step)
    (hnext : ∀ a, Local channel (next a)) : Local channel (step >>= next) := by
  intro lib lib' hagree
  obtain ⟨hanswer, hlibrary⟩ := h lib lib' hagree
  rw [bind_apply, bind_apply, hanswer]
  split
  · exact ⟨rfl, hlibrary⟩
  · rename_i a ha
    exact hnext a _ _ hlibrary

/-- A step for a channel does the same wherever that channel is the same. -/
theorem Yields.transfer {step : Compilation α} {lib lib' after : WaveformLibrary} {a : α}
    (hlocal : Local channel step) (h : step.Yields lib a after) (hagree : AgreeOn channel lib lib') :
    ∃ after', step.Yields lib' a after' ∧ AgreeOn channel after after' := by
  obtain ⟨hanswer, hlibrary⟩ := hlocal lib lib' hagree
  rw [h.1] at hanswer
  rw [h.2] at hlibrary
  exact ⟨_, ⟨hanswer.symm, rfl⟩, hlibrary⟩

theorem Yields.unique {step : Compilation α} {lib after after' : WaveformLibrary} {a a' : α}
    (h : step.Yields lib a after) (h' : step.Yields lib a' after') : a = a' ∧ after = after' :=
  ⟨Except.ok.inj (h.1.symm.trans h'.1), h.2.symm.trans h'.2⟩

theorem Yields.spares {step : Compilation α} {lib after : WaveformLibrary} {a : α}
    (h : step.Yields lib a after) (hspares : Spares channel step) : AgreeOn channel after lib := by
  rw [← h.2]
  exact hspares lib

end Compilation

/-! ## The builder -/

namespace Schedule

variable {channel : Channel} {cutoff : Nat}

/-- The entries of one channel for a sequence. -/
def solo (cutoff : Nat) (channel : Channel) : List Block → Compilation LinkList
  | [] => pure []
  | b :: rest =>
    if b.duration = 0 then solo cutoff channel rest
    else do
      let entries ← place cutoff b channel
      let later ← solo cutoff channel rest
      pure (entries ++ later)

theorem local_place (b : Block) : Local channel (place cutoff b channel) := by
  unfold place
  split
  · exact local_pure _
  · exact local_bind (local_ofExcept _) fun _ => local_bind (local_store _) fun _ => local_pure _

theorem spares_place {other : Channel} (h : channel ≠ other) (b : Block) :
    Spares channel (place cutoff b other) := by
  unfold place
  split
  · exact spares_pure _
  · exact spares_bind (spares_ofExcept _) fun _ =>
      spares_bind (spares_store h _) fun _ => spares_pure _

theorem local_solo (blocks : List Block) : Local channel (solo cutoff channel blocks) := by
  induction blocks with
  | nil => exact local_pure _
  | cons b rest ih =>
    unfold solo
    split
    · exact ih
    · exact local_bind (local_place b) fun _ => local_bind ih fun _ => local_pure _

theorem spares_extend {b : Block} {lists : ChannelLists} (h : channel ∉ lists.map Prod.fst) :
    Spares channel (extend cutoff b lists) := by
  induction lists with
  | nil => exact spares_pure _
  | cons cl rest ih =>
    rw [List.map_cons, List.mem_cons, not_or] at h
    exact spares_bind (spares_place h.1 b) fun _ => spares_bind (ih h.2) fun _ => spares_pure _

/-- Among all channels, a channel gets the entries that it gets alone. -/
theorem extend_at {b : Block} {lists lists' : ChannelLists} {lib lib' : WaveformLibrary}
    (hnodup : (lists.map Prod.fst).Nodup) (hc : channel ∈ lists.map Prod.fst)
    (h : (extend cutoff b lists).Yields lib lists' lib') :
    ∃ entries after, (place cutoff b channel).Yields lib entries after ∧
      AgreeOn channel after lib' := by
  induction lists generalizing lists' lib with
  | nil => cases hc
  | cons cl rest ih =>
    obtain ⟨other, list⟩ := cl
    rw [List.map_cons, List.nodup_cons] at hnodup
    simp only [extend, yields_bind_iff, yields_pure_iff] at h
    obtain ⟨entries, middle, hplace, rest', after, hrest, rfl, rfl⟩ := h
    by_cases heq : channel = other
    · subst heq
      exact ⟨entries, middle, hplace, (hrest.spares (spares_extend hnodup.1)).symm⟩
    · -- The channel in front leaves this one alone, so its own step may as well come first.
      have hc' : channel ∈ rest.map Prod.fst := (List.mem_cons.mp hc).resolve_left heq
      obtain ⟨own, left, hown, hagree⟩ := ih hnodup.2 hc' hrest
      have hspared := hplace.spares (spares_place heq b)
      obtain ⟨left', hown', hagree'⟩ := hown.transfer (local_place b) hspared
      exact ⟨own, left', hown', hagree'.symm.trans hagree⟩

theorem extendAll_at {index : Nat} {blocks : List Block} {lists lists' : ChannelLists}
    {lib lib' : WaveformLibrary} (hnodup : (lists.map Prod.fst).Nodup)
    (hc : channel ∈ lists.map Prod.fst)
    (h : (extendAll cutoff index blocks lists).Yields lib lists' lib') :
    ∃ list after, (solo cutoff channel blocks).Yields lib list after ∧
      AgreeOn channel after lib' := by
  induction blocks generalizing index lists lib with
  | nil =>
    simp only [extendAll, yields_pure_iff] at h
    obtain ⟨rfl, rfl⟩ := h
    exact ⟨[], lib, yields_pure_iff.mpr ⟨rfl, rfl⟩, rfl⟩
  | cons b rest ih =>
    by_cases hb : b.duration = 0
    · simp only [extendAll, hb, if_true, yields_bind_iff, yields_report_iff] at h
      obtain ⟨_, _, rfl, h⟩ := h
      simp only [solo, hb, if_true]
      exact ih hnodup hc h
    · simp only [extendAll, hb, if_false, yields_bind_iff] at h
      obtain ⟨lists'', middle, hextend, h⟩ := h
      have hkeys : lists''.map Prod.fst = lists.map Prod.fst := by
        rw [(extend_yields hextend).1, List.map_map]
        rfl
      obtain ⟨entries, first, hplace, hfirst⟩ := extend_at hnodup hc hextend
      rw [← hkeys] at hnodup hc
      obtain ⟨later, second, hsolo, hsecond⟩ := ih hnodup hc h
      obtain ⟨second', hsolo', hagree⟩ := hsolo.transfer (local_solo rest) hfirst.symm
      refine ⟨entries ++ later, second', ?_, hagree.symm.trans hsecond⟩
      simp only [solo, hb, if_false, yields_bind_iff, yields_pure_iff]
      exact ⟨entries, first, hplace, later, second', hsolo', rfl, rfl⟩

theorem solo_list {blocks : List Block} {list : LinkList} {lib lib' : WaveformLibrary}
    (h : (solo cutoff channel blocks).Yields lib list lib') :
    list = (score cutoff channel blocks).map Cue.entry := by
  induction blocks generalizing list lib with
  | nil => exact (yields_pure_iff.mp h).1.symm
  | cons b rest ih =>
    by_cases hb : b.duration = 0
    · simp only [solo, hb, if_true] at h
      rw [score_cons_of_zero cutoff channel rest hb]
      exact ih h
    · simp only [solo, hb, if_false, yields_bind_iff, yields_pure_iff] at h
      obtain ⟨entries, _, hplace, later, _, hlater, rfl, rfl⟩ := h
      rw [score_cons_of_ne cutoff channel rest hb, List.map_append, ← (place_yields hplace).1,
        ← ih hlater]

theorem initial_registerAll {channels : List Channel} {u : Unit} {lib lib' : WaveformLibrary}
    (h : (registerAll channels).Yields lib u lib') (c : Channel) :
    lib'.initial c = lib.initial c := by
  induction channels generalizing lib with
  | nil => rw [(yields_pure_iff.mp h).2]
  | cons channel rest ih =>
    simp only [registerAll, yields_bind_iff, yields_register_iff] at h
    obtain ⟨_, _, rfl, h⟩ := h
    rw [ih h, initial_register]

/-- Whatever else is registered, a channel starts with what it starts with alone. -/
theorem agreeOn_registerAll {channels : List Channel} {u : Unit} {registered : WaveformLibrary}
    (h : (registerAll channels).Yields .empty u registered) (hc : channel ∈ channels) :
    AgreeOn channel registered (WaveformLibrary.empty.register channel) := by
  have hmem := (registerAll_yields h hasZeros_empty).2 channel hc
  unfold AgreeOn
  rw [get?_register_self, get?_eq_initial hmem, initial_registerAll h]

/-- The entries of one channel, with a library that has only its shapes. -/
def soloBuild (cutoff : Nat) (channel : Channel) (blocks : List Block) : Compilation LinkList := do
  .register channel
  solo cutoff channel blocks

/-- In a library of their own, all channels together leave a channel the shapes that it has
alone. -/
theorem build_at {blocks : List Block} {lists : ChannelLists} {sources : WaveformLibrary}
    (hc : channel ∈ channels blocks) (h : (build cutoff blocks).Yields .empty lists sources) :
    ∃ own, (soloBuild cutoff channel blocks).Yields .empty
        ((score cutoff channel blocks).map Cue.entry) own ∧ AgreeOn channel own sources := by
  simp only [build, yields_bind_iff, yields_report_iff, yields_pure_iff] at h
  obtain ⟨_, registered, hregister, _, _, hextend, _, _, rfl, rfl, rfl⟩ := h
  have hagree := agreeOn_registerAll hregister hc
  have hkeys := Table.map_fst_graph (channels blocks) fun _ => ([] : LinkList)
  obtain ⟨list, after, hsolo, hafter⟩ := extendAll_at (by rw [hkeys]; exact firstUses_nodup _)
    (by rw [hkeys]; exact hc) hextend
  obtain ⟨own, hown, hsame⟩ := hsolo.transfer (local_solo blocks) hagree
  refine ⟨own, ?_, hsame.symm.trans hafter⟩
  rw [← solo_list hsolo]
  exact yields_bind_iff.mpr ⟨(), _, yields_register_iff.mpr rfl, hown⟩

end Schedule

/-! ## The frame pass -/

namespace Frame

variable {detect : Bool} {channel : Channel} {sources sources' lib lib' : WaveformLibrary}

theorem source_agree (h : AgreeOn channel sources sources') (index : Nat) (e : Entry) :
    source detect sources channel index e = source detect sources' channel index e := by
  unfold source WaveformLibrary.require
  rw [h.get?]

/-- The pass reads the shapes of its channel and writes to its channel. -/
theorem turn_agree (hsources : AgreeOn channel sources sources') (index : Nat) (frame : Binary64)
    (list : LinkList) (h : AgreeOn channel lib lib') :
    (turn detect sources channel index frame list lib).list =
        (turn detect sources' channel index frame list lib').list ∧
      (turn detect sources channel index frame list lib).answer =
        (turn detect sources' channel index frame list lib').answer ∧
      AgreeOn channel (turn detect sources channel index frame list lib).library
        (turn detect sources' channel index frame list lib').library := by
  induction list generalizing index frame lib lib' with
  | nil => exact ⟨rfl, rfl, h⟩
  | cons e rest ih =>
    rw [turn, turn, source_agree hsources]
    cases source detect sources' channel index e with
    | error err => exact ⟨rfl, rfl, h⟩
    | ok src =>
      dsimp only
      obtain ⟨hanswer, hagree⟩ := h.insert (src.shape.rotate (e.phase + frame))
      generalize lib.insert channel (src.shape.rotate (e.phase + frame)) = inserted at *
      generalize lib'.insert channel (src.shape.rotate (e.phase + frame)) = inserted' at *
      obtain ⟨after, answer⟩ := inserted
      obtain ⟨after', answer'⟩ := inserted'
      dsimp only at hanswer hagree
      subst hanswer
      cases answer with
      | error err => exact ⟨rfl, rfl, hagree⟩
      | ok key =>
        obtain ⟨hlist, hanswer, hlibrary⟩ := ih (index + 1) (frame + e.frameChange) hagree
        exact ⟨congrArg (_ :: ·) hlist, hanswer, hlibrary⟩

theorem spares_turn {other : Channel} (h : channel ≠ other) (index : Nat) (frame : Binary64)
    (list : LinkList) (lib : WaveformLibrary) :
    AgreeOn channel (turn detect sources other index frame list lib).library lib := by
  induction list generalizing index frame lib with
  | nil => rfl
  | cons e rest ih =>
    rw [turn]
    cases source detect sources other index e with
    | error err => rfl
    | ok src =>
      dsimp only
      have hspared := spares_store h (src.shape.rotate (e.phase + frame)) lib
      unfold store at hspared
      generalize lib.insert other (src.shape.rotate (e.phase + frame)) = inserted at *
      obtain ⟨after, answer⟩ := inserted
      cases answer with
      | error err => exact hspared
      | ok key => exact (ih _ _ after).trans hspared

theorem step_agree (detect : Bool) (hsources : AgreeOn channel sources sources') (list : LinkList)
    (h : AgreeOn channel lib lib') :
    (step detect sources channel list lib).answer =
        (step detect sources' channel list lib').answer ∧
      AgreeOn channel (step detect sources channel list lib).library
        (step detect sources' channel list lib').library := by
  obtain ⟨hlist, hlibrary, hanswer⟩ := apply_eq detect sources channel list lib
  obtain ⟨hlist', hlibrary', hanswer'⟩ := apply_eq detect sources' channel list lib'
  obtain ⟨hsame, hsame', hagree⟩ := turn_agree hsources 0 .zero list h.register
  unfold step
  dsimp only
  rw [hanswer, hanswer', hlist, hlist', hlibrary, hlibrary', hsame, hsame']
  exact ⟨rfl, hagree⟩

/-- Shapes that agree on the channel are as good. -/
theorem step_transfer (hsources : AgreeOn channel sources sources') {list list' : LinkList}
    {after : WaveformLibrary} (h : (step detect sources channel list).Yields lib list' after) :
    ∃ after', (step detect sources' channel list).Yields lib list' after' ∧
      AgreeOn channel after after' := by
  obtain ⟨hanswer, hagree⟩ := step_agree detect hsources list (rfl : AgreeOn channel lib lib)
  rw [h.1] at hanswer
  rw [h.2] at hagree
  exact ⟨_, ⟨hanswer.symm, rfl⟩, hagree⟩

theorem local_step (list : LinkList) : Local channel (step detect sources channel list) :=
  fun _ _ h => step_agree detect rfl list h

theorem spares_step {other : Channel} (h : channel ≠ other) (list : LinkList) :
    Spares channel (step detect sources other list) := by
  intro lib
  have hregister : AgreeOn channel (lib.register other) lib :=
    (receives_register lib other).others channel (by simpa using h)
  unfold step
  dsimp only
  rw [(apply_eq detect sources other list lib).2.1]
  exact (spares_turn h 0 .zero list _).trans hregister

theorem spares_applyAll {lists : ChannelLists} (h : channel ∉ lists.map Prod.fst) :
    Spares channel (applyAll detect sources lists) := by
  induction lists with
  | nil => exact spares_pure _
  | cons cl rest ih =>
    rw [List.map_cons, List.mem_cons, not_or] at h
    exact spares_bind (spares_step h.1 _) fun _ => spares_bind (ih h.2) fun _ => spares_pure _

/-- Among all channels, a list is turned as it is turned alone. -/
theorem applyAll_at {lists lists' : ChannelLists} (hnodup : (lists.map Prod.fst).Nodup)
    {list : LinkList} (hc : (channel, list) ∈ lists)
    (h : (applyAll detect sources lists).Yields lib lists' lib') :
    ∃ list' after, (step detect sources channel list).Yields lib list' after ∧
      lists'.lookup channel = some list' ∧ AgreeOn channel after lib' := by
  induction lists generalizing lists' lib with
  | nil => cases hc
  | cons cl rest ih =>
    obtain ⟨other, own⟩ := cl
    rw [List.map_cons, List.nodup_cons] at hnodup
    simp only [applyAll, yields_bind_iff, yields_pure_iff] at h
    obtain ⟨turned, middle, hstep, rest', after, hrest, rfl, rfl⟩ := h
    by_cases heq : channel = other
    · subst heq
      have hown : list = own := by
        rcases List.mem_cons.mp hc with hc | hc
        · cases hc
          rfl
        · exact absurd (List.mem_map_of_mem hc) hnodup.1
      subst hown
      refine ⟨turned, middle, hstep, by simp, (hrest.spares (spares_applyAll hnodup.1)).symm⟩
    · have hc' : (channel, list) ∈ rest := by
        rcases List.mem_cons.mp hc with hc | hc
        · cases hc
          exact absurd rfl heq
        · exact hc
      obtain ⟨list', left, hown, hlookup, hagree⟩ := ih hnodup.2 hc' hrest
      have hspared := hstep.spares (spares_step heq own)
      obtain ⟨left', hown', hagree'⟩ := hown.transfer (local_step list) hspared
      have hb : (channel == other) = false := by simpa using heq
      refine ⟨list', left', hown', ?_, hagree'.symm.trans hagree⟩
      rw [List.lookup_cons, hb]
      exact hlookup

end Frame

/-! ## A sequence -/

namespace Program

/-- The list of one channel for a sequence. -/
def solo (settings : Settings) (channel : Channel) (blocks : List Block) :
    Compilation LinkList := do
  let (list, sources) ← .apart (Schedule.soloBuild settings.paddingCutoff channel blocks)
  Frame.step settings.detectConstants sources channel list

theorem local_solo (settings : Settings) (channel : Channel) (blocks : List Block) :
    Local channel (solo settings channel blocks) :=
  local_bind (local_apart _) fun _ => Frame.local_step _

/-- A sequence leaves each of its channels with the list and the waveforms that the channel gets
alone. -/
theorem compileOne_at {settings : Settings} {blocks : List Block} {lists : ChannelLists}
    {lib lib' : WaveformLibrary} {channel : Channel} (hc : channel ∈ Schedule.channels blocks)
    (h : (compileOne settings blocks).Yields lib lists lib') :
    ∃ list after, (solo settings channel blocks).Yields lib list after ∧
      lists.lookup channel = some list ∧ AgreeOn channel after lib' := by
  simp only [compileOne, yields_bind_iff] at h
  obtain ⟨⟨built, sources⟩, _, hapart, happly⟩ := h
  obtain ⟨hbuild, rfl⟩ := yields_apart_iff.mp hapart
  obtain ⟨own, hown, hsources⟩ := Schedule.build_at hc hbuild
  have hlists := Schedule.build_lists hbuild
  subst hlists
  have hnodup : (((Schedule.channels blocks).map fun c =>
      (c, (Schedule.score settings.paddingCutoff c blocks).map Cue.entry)).map Prod.fst).Nodup := by
    rw [Table.map_fst_graph]
    exact Schedule.firstUses_nodup _
  obtain ⟨list, after, hstep, hlookup, hafter⟩ :=
    Frame.applyAll_at hnodup (List.mem_map_of_mem hc) happly
  obtain ⟨after', hstep', hagree⟩ := Frame.step_transfer (AgreeOn.symm hsources) hstep
  refine ⟨list, after', ?_, hlookup, hagree.symm.trans hafter⟩
  exact yields_bind_iff.mpr ⟨(_, own), lib, yields_apart_iff.mpr ⟨hown, rfl⟩, hstep'⟩

end Program

/-! ## Other channels -/

/-- Two blocks that a channel cannot tell apart: they are as long, align their pulses alike, and
have the same pulse for the channel, or none. -/
structure Block.AgreeOn (channel : Channel) (b b' : Block) : Prop where
  duration : b.duration = b'.duration
  alignment : b.alignment = b'.alignment
  pulse : b.pulses.get? channel = b'.pulses.get? channel

namespace Schedule

theorem place_congr {channel : Channel} {b b' : Block} (h : Block.AgreeOn channel b b')
    (cutoff : Nat) : place cutoff b channel = place cutoff b' channel := by
  unfold place
  rw [h.pulse, h.duration, h.alignment]

theorem solo_congr {channel : Channel} {blocks blocks' : List Block}
    (h : List.Forall₂ (Block.AgreeOn channel) blocks blocks') (cutoff : Nat) :
    solo cutoff channel blocks = solo cutoff channel blocks' := by
  induction h with
  | nil => rfl
  | cons hb _ ih => rw [solo, solo, hb.duration, place_congr hb, ih]

theorem mem_channels_congr {channel : Channel} {blocks blocks' : List Block}
    (h : List.Forall₂ (Block.AgreeOn channel) blocks blocks') :
    channel ∈ channels blocks ↔ channel ∈ channels blocks' := by
  unfold channels
  rw [mem_firstUses, mem_firstUses]
  induction h with
  | nil => rfl
  | cons hb _ ih =>
    rw [List.flatMap_cons, List.flatMap_cons, List.mem_append, List.mem_append, ih,
      ← Table.get?_isSome, ← Table.get?_isSome, hb.pulse]

end Schedule

namespace Trial

/-- `q1` as in `detuned`, but beside another channel, and then silent while two others play. -/
def rearranged : List Block :=
  [{ pulses := .ofList [("q3", { samples := .ofReal [.one, .zero] }),
      ("q1", { samples := .ofReal [.one], frameChange := .infinity })] },
    { pulses := .ofList [("q4", { samples := .ofReal [.one, .zero] }),
      ("q3", { samples := .ofReal [.one] })] }]

theorem rearranged_agrees :
    List.Forall₂ (Block.AgreeOn "q1") (detuned.map Item.toBlock) rearranged :=
  .cons ⟨by decide +kernel, rfl, by decide +kernel⟩
    (.cons ⟨by decide +kernel, rfl, by decide +kernel⟩ .nil)

theorem contentsIn_rearranged :
    Program.ContentsIn (fun x => ∃ w ∈ shapes, w.content = x) {} rearranged := by
  unfold Program.ContentsIn
  decide +kernel

end Trial

namespace Program

theorem mem_keys_compileOne {settings : Settings} {blocks : List Block} {lists : ChannelLists}
    {lib lib' : WaveformLibrary} {channel : Channel} (hc : channel ∈ Schedule.channels blocks)
    (h : (compileOne settings blocks).Yields lib lists lib') : channel ∈ lib'.channels.keys := by
  rw [(compileOne_receives h).channels, mem_joined, (compileOne_yields h).1, map_fst_playedLists]
  exact .inr hc

/-- What comes of a channel depends on what it has in each block, on how long the blocks are and
how they align, and on the waveforms it had before. Whatever else is in the blocks, on however many
channels, its list is the same, and so are its waveforms, one by one. -/
theorem channels_do_not_influence_one_another {settings : Settings} {channel : Channel}
    {blocks blocks' : List Block} {lib lib' : WaveformLibrary} {lists lists' : ChannelLists}
    (hc : channel ∈ Schedule.channels blocks)
    (hblocks : List.Forall₂ (Block.AgreeOn channel) blocks blocks')
    (hlib : lib.channels.get? channel = lib'.channels.get? channel)
    (h : (compileOne settings blocks lib).answer = .ok lists)
    (h' : (compileOne settings blocks' lib').answer = .ok lists') :
    (∃ list, lists.lookup channel = some list ∧ lists'.lookup channel = some list) ∧
      ∃ ws, (compileOne settings blocks lib).library.channels.get? channel = some ws ∧
        (compileOne settings blocks' lib').library.channels.get? channel = some ws := by
  have hc' := (Schedule.mem_channels_congr hblocks).mp hc
  obtain ⟨list, after, hsolo, hlist, hafter⟩ := compileOne_at hc (yields_of_ok h)
  obtain ⟨list', after', hsolo', hlist', hafter'⟩ := compileOne_at hc' (yields_of_ok h')
  have hsame : solo settings channel blocks' = solo settings channel blocks := by
    rw [solo, solo, Schedule.soloBuild, Schedule.soloBuild, Schedule.solo_congr hblocks]
  rw [hsame] at hsolo'
  obtain ⟨left, hsolo'', hleft⟩ := hsolo.transfer (local_solo settings channel blocks) hlib
  obtain ⟨rfl, rfl⟩ := hsolo'.unique hsolo''
  refine ⟨⟨list', hlist, hlist'⟩, ?_⟩
  obtain ⟨ws, hws⟩ := Table.exists_get? (mem_keys_compileOne hc (yields_of_ok h))
  refine ⟨ws, hws, ?_⟩
  rw [← hws]
  exact (hafter'.symm.trans hleft.symm).trans hafter

/-- Between them the two sequences play four channels, and only one of the libraries has anything
in it. Where `q1` loses its frame and then has no pulse, it does so in both. -/
theorem a_channel_does_not_notice_other_neighbours :
    ∃ lists lists', (compileOne {} (Trial.detuned.map Item.toBlock) .empty).answer = .ok lists ∧
      (compileOne {} Trial.rearranged
        (WaveformLibrary.empty.insert "q3" (.ofReal [.one, .zero])).1).answer = .ok lists' ∧
      (∃ list, lists.lookup "q1" = some list ∧ lists'.lookup "q1" = some list) ∧
      ∃ ws, (compileOne {} (Trial.detuned.map Item.toBlock) .empty).library.channels.get? "q1" =
          some ws ∧
        (compileOne {} Trial.rearranged (WaveformLibrary.empty.insert "q3"
          (.ofReal [.one, .zero])).1).library.channels.get? "q1" = some ws := by
  obtain ⟨lists, h⟩ := Trial.compileOne_within Trial.contentsIn_detuned WaveformLibrary.within_empty
  obtain ⟨lists', h'⟩ := Trial.compileOne_within Trial.contentsIn_rearranged
    (Trial.seeded_within "q3")
  have hlib : (WaveformLibrary.empty.channels.get? "q1") =
      (WaveformLibrary.empty.insert "q3" (.ofReal [.one, .zero])).1.channels.get? "q1" :=
    ((receives_insert .empty "q3" _).others "q1" (by decide)).symm
  exact ⟨lists, lists', h, h', channels_do_not_influence_one_another (by decide +kernel)
    Trial.rearranged_agrees hlib h h'⟩

end Program

end PulseSequencer
