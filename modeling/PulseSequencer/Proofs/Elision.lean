-- Blocks without duration. They play nothing and leave nothing behind: a
-- sequence compiles as it does without them, and a channel that only they
-- address idles through the other blocks.
import PulseSequencer.Proofs.Ensemble

namespace PulseSequencer

open Compilation WaveformLibrary

attribute [local irreducible] Waveform.key

namespace Schedule

/-- The blocks that take time. -/
def lasting (blocks : List Block) : List Block := blocks.filter (·.duration ≠ 0)

theorem lasting_cons_of_zero {b : Block} (rest : List Block) (h : b.duration = 0) :
    lasting (b :: rest) = lasting rest := by
  simp [lasting, h]

theorem lasting_cons_of_ne {b : Block} (rest : List Block) (h : b.duration ≠ 0) :
    lasting (b :: rest) = b :: lasting rest := by
  simp [lasting, h]

theorem mem_channels {c : Channel} {blocks : List Block} :
    c ∈ channels blocks ↔ ∃ b ∈ blocks, c ∈ b.pulses.keys := by
  rw [channels, mem_firstUses, List.mem_flatMap]

theorem channels_lasting_subset (blocks : List Block) :
    channels (lasting blocks) ⊆ channels blocks := by
  intro c hc
  obtain ⟨b, hb, hmem⟩ := mem_channels.mp hc
  exact mem_channels.mpr ⟨b, List.mem_of_mem_filter hb, hmem⟩

/-! ## A channel by itself -/

/-- A channel skips the blocks without duration, with their pulses. -/
theorem solo_lasting (cutoff : Nat) (channel : Channel) (blocks : List Block) :
    solo cutoff channel (lasting blocks) = solo cutoff channel blocks := by
  induction blocks with
  | nil => rfl
  | cons b rest ih =>
    by_cases hb : b.duration = 0
    · rw [lasting_cons_of_zero rest hb, ih, solo, if_pos hb]
    · rw [lasting_cons_of_ne rest hb, solo, solo, if_neg hb, if_neg hb, ih]

/-- A channel that no lasting block addresses waits for each of them. -/
theorem score_of_not_mem {cutoff : Nat} {channel : Channel} {blocks : List Block}
    (h : channel ∉ channels (lasting blocks)) :
    score cutoff channel blocks = (lasting blocks).map fun b => Cue.padding b.duration := by
  rw [score, List.map_eq_flatMap]
  apply List.flatMap_congr
  intro b hb
  have hnone : b.pulses.get? channel = none := by
    rw [Table.get?_eq_none_iff]
    exact fun hmem => h (mem_channels.mpr ⟨b, hb, hmem⟩)
  rw [Block.cues, hnone]

end Schedule

/-! ## Waiting in frame zero -/

theorem Binary64.zero_add_zero : (zero + zero : Binary64) = zero := by decide +kernel

/-- In frame zero nothing is turned, so zero output stays as it is. -/
theorem Cue.turned_padding (detect : Bool) (n : Nat) :
    (padding n).turned detect .zero = padding n := by
  have hshape : ((padding n).kept detect).rotate ((padding n).entry.phase + .zero) = .zeros 1 := by
    have hangle : ((padding n).entry.phase + .zero).isZero = true :=
      congrArg Binary64.isZero Binary64.zero_add_zero
    rw [Waveform.rotate, if_pos hangle]
    rfl
  rw [turned, hshape]
  rfl

theorem Frame.turnedScore_padding (detect : Bool) (durations : List Nat) :
    turnedScore detect .zero (durations.map Cue.padding) = durations.map Cue.padding := by
  induction durations with
  | nil => rfl
  | cons n rest ih =>
    have hframe : (.zero : Binary64) + (Cue.padding n).entry.frameChange = .zero :=
      Binary64.zero_add_zero
    rw [List.map_cons, turnedScore, Cue.turned_padding, hframe, ih]

namespace Program

theorem solo_lasting (settings : Settings) (channel : Channel) (blocks : List Block) :
    solo settings channel (Schedule.lasting blocks) = solo settings channel blocks := by
  rw [solo, solo, Schedule.soloBuild, Schedule.soloBuild, Schedule.solo_lasting]

theorem playedList_of_not_mem {settings : Settings} {channel : Channel} {blocks : List Block}
    (h : channel ∉ Schedule.channels (Schedule.lasting blocks)) :
    playedList settings channel blocks =
      (Schedule.lasting blocks).map fun b => Entry.padding b.duration := by
  have hscore : Schedule.score settings.paddingCutoff channel blocks =
      ((Schedule.lasting blocks).map Block.duration).map Cue.padding := by
    rw [Schedule.score_of_not_mem h, List.map_map]
    rfl
  rw [playedList, played, hscore, Frame.turnedScore_padding, List.map_map, List.map_map]
  rfl

end Program

namespace Trial

/-- A block that only turns frames: that of `q2`, and that of a channel that plays nowhere. -/
def pause : Block :=
  { pulses := .ofList [("q2", .frameOnly .infinity), ("q5", .frameOnly .infinity)] }

def interrupted : List Block := (detuned.map Item.toBlock).intersperse pause

theorem lasting_interrupted :
    interrupted.filter (·.duration ≠ 0) = detuned.map Item.toBlock := rfl

theorem contentsIn_interrupted :
    Program.ContentsIn (fun x => ∃ w ∈ shapes, w.content = x) {} interrupted := by
  unfold Program.ContentsIn
  decide +kernel

end Trial

/-! ## A sequence -/

namespace Program

/-- A sequence that compiles does so without its blocks that take no time, from the same library.
Every channel that is left has the same list and the same waveforms, so what a dropped block would
have done to its frame is not done. A channel that only dropped blocks address waits for each of
the others. -/
theorem blocks_without_duration_leave_no_trace {settings : Settings} {blocks : List Block}
    {lib : WaveformLibrary} {lists : ChannelLists}
    (h : (compileOne settings blocks lib).answer = .ok lists) :
    let lasting := blocks.filter (·.duration ≠ 0)
    ∃ lists', (compileOne settings lasting lib).answer = .ok lists' ∧
      lists.map Prod.fst = Schedule.channels blocks ∧
      lists'.map Prod.fst = Schedule.channels lasting ∧
      (∀ channel ∈ Schedule.channels lasting,
        (∃ list, lists.lookup channel = some list ∧ lists'.lookup channel = some list) ∧
          ∃ ws, (compileOne settings blocks lib).library.channels.get? channel = some ws ∧
            (compileOne settings lasting lib).library.channels.get? channel = some ws) ∧
      ∀ channel ∈ Schedule.channels blocks, channel ∉ Schedule.channels lasting →
        lists.lookup channel = some (lasting.map fun b => Entry.padding b.duration) := by
  intro lasting
  have hrun := yields_of_ok h
  -- The two sequences have different channels in different orders, so they are compared one
  -- channel at a time, and by itself a channel does the same in both.
  obtain ⟨lists', h'⟩ : ∃ lists', (compileOne settings lasting lib).answer = .ok lists' := by
    apply Completes.answer
    rw [compileOne_completes_iff]
    intro c hc
    have hsolo := (compileOne_completes_iff settings blocks lib).mp hrun.completes c
      (Schedule.channels_lasting_subset blocks hc)
    rw [← solo_lasting] at hsolo
    exact hsolo
  have hrun' := yields_of_ok h'
  refine ⟨lists', h', ?_, ?_, ?_, ?_⟩
  · rw [(compileOne_yields hrun).1, map_fst_playedLists]
  · rw [(compileOne_yields hrun').1, map_fst_playedLists]
  · intro c hc
    obtain ⟨list, after, hsolo, hlist, hagree⟩ :=
      compileOne_at (Schedule.channels_lasting_subset blocks hc) hrun
    obtain ⟨list', after', hsolo', hlist', hagree'⟩ := compileOne_at hc hrun'
    rw [← solo_lasting] at hsolo
    obtain ⟨rfl, rfl⟩ := hsolo.unique hsolo'
    obtain ⟨ws, hws⟩ := Table.exists_get? (mem_keys_compileOne hc hrun')
    exact ⟨⟨list, hlist, hlist'⟩, ws, (hagree.symm.trans hagree').trans hws, hws⟩
  · intro c hc hdropped
    rw [(compileOne_yields hrun).1, playedLists, Table.lookup_map_graph _ _ hc,
      playedList_of_not_mem hdropped]
    rfl

/-- An infinite turn of `q2` in a block without duration does not turn what `q2` plays next, and
`q5` waits for two samples twice. -/
theorem a_pause_is_not_heard :
    ∃ lists lists', (compileOne {} Trial.interrupted .empty).answer = .ok lists ∧
      (compileOne {} (Trial.detuned.map Item.toBlock) .empty).answer = .ok lists' ∧
      (∃ list, lists.lookup "q2" = some list ∧ lists'.lookup "q2" = some list) ∧
      lists.lookup "q5" = some [Entry.padding 2, Entry.padding 2] := by
  obtain ⟨lists, h⟩ := Trial.compileOne_within Trial.contentsIn_interrupted within_empty
  obtain ⟨lists', h', -, -, hleft, hdropped⟩ := blocks_without_duration_leave_no_trace h
  rw [Trial.lasting_interrupted] at h' hleft hdropped
  exact ⟨lists, lists', h, h', (hleft "q2" (by decide +kernel)).1,
    hdropped "q5" (by decide +kernel) (by decide +kernel)⟩

end Program

end PulseSequencer
