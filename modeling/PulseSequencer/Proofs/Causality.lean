-- What comes later changes nothing. The builder knows all channels of a sequence
-- before its first block, and the frame pass has the shapes of its last block at
-- hand, but neither makes use of it: a sequence that is carried on compiles to
-- lists that are carried on.
import PulseSequencer.Proofs.Appending
import PulseSequencer.Proofs.Elision
import PulseSequencer.Proofs.FramePass
import PulseSequencer.Proofs.Synchrony

namespace PulseSequencer

open Compilation WaveformLibrary

attribute [local irreducible] Waveform.key

/-! ## What is written down from the blocks -/

namespace Schedule

/-- Channels that come up later stand behind the others. -/
theorem channels_prefix (s t : List Block) : channels s <+: channels (s ++ t) := by
  unfold channels
  rw [firstUses_eq_eraseDups, firstUses_eq_eraseDups, List.flatMap_append, List.eraseDups_append]
  exact List.prefix_append _ _

theorem score_append (cutoff : Nat) (channel : Channel) (s t : List Block) :
    score cutoff channel (s ++ t) = score cutoff channel s ++ score cutoff channel t := by
  simp [score]

end Schedule

namespace Frame

theorem turnedScore_append (detect : Bool) (frame : Binary64) (cues rest : List Cue) :
    turnedScore detect frame (cues ++ rest) =
      turnedScore detect frame cues ++ turnedScore detect (frameAfter frame cues) rest := by
  induction cues generalizing frame with
  | nil => rfl
  | cons q cues ih =>
    rw [List.cons_append, turnedScore, turnedScore, ih]
    rfl

/-- Waiting does not leave frame zero. -/
theorem frameAfter_padding (durations : List Nat) :
    frameAfter .zero (durations.map Cue.padding) = .zero := by
  induction durations with
  | nil => rfl
  | cons n rest ih =>
    have hframe : (.zero : Binary64) + (Cue.padding n).entry.frameChange = .zero :=
      Binary64.zero_add_zero
    rw [List.map_cons, frameAfter, List.foldl_cons, hframe]
    exact ih

end Frame

/-! ## The builder -/

namespace Schedule

variable {channel : Channel} {cutoff : Nat}

theorem grows_solo (blocks : List Block) : Grows (solo cutoff channel blocks) := by
  induction blocks with
  | nil => exact grows_pure _
  | cons b rest ih =>
    unfold solo
    split
    · exact ih
    · exact grows_bind (grows_place cutoff b channel) fun _ => grows_bind ih fun _ => grows_pure _

/-- The blocks that come later are built on what the first ones left. -/
theorem solo_append {s t : List Block} {list : LinkList} {lib lib' : WaveformLibrary}
    (h : (solo cutoff channel (s ++ t)).Yields lib list lib') :
    ∃ earlier middle later, (solo cutoff channel s).Yields lib earlier middle ∧
      (solo cutoff channel t).Yields middle later lib' ∧ list = earlier ++ later := by
  induction s generalizing list lib with
  | nil => exact ⟨[], lib, list, yields_pure_iff.mpr ⟨rfl, rfl⟩, h, rfl⟩
  | cons b rest ih =>
    rw [List.cons_append] at h
    by_cases hb : b.duration = 0
    · simp only [solo, hb, if_true] at h ⊢
      exact ih h
    · simp only [solo, hb, if_false, yields_bind_iff, yields_pure_iff] at h ⊢
      obtain ⟨entries, first, hplace, both, _, hboth, rfl, rfl⟩ := h
      obtain ⟨earlier, middle, later, hearlier, hlater, rfl⟩ := ih hboth
      exact ⟨entries ++ earlier, middle, later,
        ⟨entries, first, hplace, earlier, middle, hearlier, rfl, rfl⟩, hlater,
        (List.append_assoc _ _ _).symm⟩

/-- Every entry that is built finds its shape from then on. -/
theorem solo_holds {blocks : List Block} {list : LinkList} {lib lib' : WaveformLibrary}
    (h : (solo cutoff channel blocks).Yields lib list lib')
    (hzero : lib.Holds channel zeroKey (.zeros 1)) :
    ∀ e ∈ list, ∃ w, lib'.get? channel e.sourceKey = some w := by
  induction blocks generalizing list lib with
  | nil =>
    obtain ⟨rfl, -⟩ := yields_pure_iff.mp h
    intro e he
    cases he
  | cons b rest ih =>
    by_cases hb : b.duration = 0
    · simp only [solo, hb, if_true] at h
      exact ih h hzero
    · simp only [solo, hb, if_false, yields_bind_iff, yields_pure_iff] at h
      obtain ⟨entries, middle, hplace, later, _, hlater, rfl, rfl⟩ := h
      have hgrows := hplace.growsTo (grows_place cutoff b channel)
      obtain ⟨rfl, hheld⟩ := place_yields hplace
      intro e he
      rcases List.mem_append.mp he with he | he
      · obtain ⟨q, hq, rfl⟩ := List.mem_map.mp he
        obtain ⟨w, hw, -⟩ := hheld hzero q hq
        exact ⟨w, (hlater.growsTo (grows_solo rest)).get? hw⟩
      · exact ih hlater (hgrows.holds hzero) e he

/-- Carrying a sequence on adds entries behind those that were built, and shapes behind those that
were stored for them. -/
theorem soloBuild_append {s t : List Block} {list : LinkList} {sources : WaveformLibrary}
    (h : (soloBuild cutoff channel (s ++ t)).Yields .empty list sources) :
    ∃ earlier later before, (soloBuild cutoff channel s).Yields .empty earlier before ∧
      list = earlier ++ later ∧
      ∀ e ∈ earlier, before.get? channel e.sourceKey = sources.get? channel e.sourceKey := by
  obtain ⟨_, registered, hregister, hsolo⟩ := yields_bind_iff.mp h
  obtain ⟨earlier, before, later, hearlier, hlater, rfl⟩ := solo_append hsolo
  refine ⟨earlier, later, before,
    yields_bind_iff.mpr ⟨(), registered, hregister, hearlier⟩, rfl, ?_⟩
  obtain rfl := yields_register_iff.mp hregister
  have hnew : channel ∉ WaveformLibrary.empty.channels.keys := nofun
  intro e he
  obtain ⟨w, hw⟩ := solo_holds hearlier (holds_register hnew) e he
  rw [hw, (hlater.growsTo (grows_solo t)).get? hw]

end Schedule

/-! ## The frame pass -/

namespace Frame

variable {detect : Bool} {channel : Channel} {sources sources' lib : WaveformLibrary}

/-- A pass asks for the shapes of its entries and for no others. -/
theorem turn_congr {index : Nat} {frame final : Binary64} {list : LinkList}
    (hsame : ∀ e ∈ list, sources'.get? channel e.sourceKey = sources.get? channel e.sourceKey)
    (h : (turn detect sources channel index frame list lib).answer = .ok final) :
    turn detect sources' channel index frame list lib =
      turn detect sources channel index frame list lib := by
  induction list generalizing index frame lib with
  | nil => rfl
  | cons e rest ih =>
    rw [List.forall_mem_cons] at hsame
    obtain ⟨src, after, hsrc, hinsert, hturn⟩ := turn_cons_ok h
    have hsrc' : source detect sources' channel index e = .ok src := by
      rw [← hsrc]
      unfold source WaveformLibrary.require
      rw [hsame.1]
    rw [hturn] at h ⊢
    rw [turn, hsrc']
    dsimp only
    rw [hinsert]
    dsimp only
    rw [ih hsame.2 h]

/-- A pass over two lists in a row is a pass over the first one and then, from where that ends, a
pass over the second. -/
theorem turn_append {index : Nat} {frame middle : Binary64} {list : LinkList}
    (hc : channel ∈ lib.channels.keys) (later : LinkList)
    (h : (turn detect sources channel index frame list lib).answer = .ok middle) :
    (turn detect sources channel index frame (list ++ later) lib).library =
      (turn detect sources channel (index + list.length) middle later
        (turn detect sources channel index frame list lib).library).library := by
  induction list generalizing index frame lib with
  | nil =>
    cases h
    rfl
  | cons e rest ih =>
    obtain ⟨e', after, hpasses⟩ | ⟨err, e', hstops⟩ :=
      passes_or_stops detect sources index frame e hc
    · rw [turn_of_passes hpasses] at h ⊢
      rw [List.cons_append, turn_of_passes hpasses, List.length_cons, Nat.add_comm rest.length,
        ← Nat.add_assoc]
      exact ih hpasses.mem_keys h
    · rw [turn_of_stops hstops] at h
      cases h

theorem step_yields_iff {list list' : LinkList} {lib' : WaveformLibrary} :
    (step detect sources channel list).Yields lib list' lib' ↔
      ∃ final, (turn detect sources channel 0 .zero list (lib.register channel)).answer =
          .ok final ∧
        (turn detect sources channel 0 .zero list (lib.register channel)).list = list' ∧
        (turn detect sources channel 0 .zero list (lib.register channel)).library = lib' := by
  unfold Yields step
  dsimp only
  rw [answer_apply, list_apply, library_apply]
  cases (turn detect sources channel 0 .zero list (lib.register channel)).answer <;>
    simp [Except.map]

/-- Whoever gets through a list gets through its beginning, and by then has stored a part of what
is stored in the end. -/
theorem step_append {list later list' : LinkList} {lib' : WaveformLibrary}
    (hsame : ∀ e ∈ list, sources'.get? channel e.sourceKey = sources.get? channel e.sourceKey)
    (h : (step detect sources channel (list ++ later)).Yields lib list' lib') :
    ∃ earlier before, (step detect sources' channel list).Yields lib earlier before ∧
      before.GrowsTo lib' := by
  obtain ⟨final, hanswer, -, rfl⟩ := step_yields_iff.mp h
  have hc := lib.mem_keys_register channel
  have hbegin := turn_take_ok hc hanswer list.length
  rw [List.take_left] at hbegin
  rw [turn_append hc later hbegin, ← turn_congr hsame hbegin]
  rw [← turn_congr hsame hbegin] at hbegin
  exact ⟨_, _, step_yields_iff.mpr ⟨_, hbegin, rfl, rfl⟩, growsTo_turn ..⟩

end Frame

/-! ## A sequence -/

namespace Program

theorem solo_append {settings : Settings} {channel : Channel} {s t : List Block} {list : LinkList}
    {lib lib' : WaveformLibrary} (h : (solo settings channel (s ++ t)).Yields lib list lib') :
    ∃ earlier before, (solo settings channel s).Yields lib earlier before ∧
      before.GrowsTo lib' := by
  obtain ⟨⟨built, sources⟩, _, hapart, hstep⟩ := yields_bind_iff.mp h
  obtain ⟨hbuild, rfl⟩ := yields_apart_iff.mp hapart
  obtain ⟨begun, later, own, hown, rfl, hsame⟩ := Schedule.soloBuild_append hbuild
  obtain ⟨earlier, before, hearlier, hgrows⟩ := Frame.step_append hsame hstep
  exact ⟨earlier, before, yields_bind_iff.mpr ⟨(begun, own), lib,
    yields_apart_iff.mpr ⟨hown, rfl⟩, hearlier⟩, hgrows⟩

theorem compileOne_append_completes {settings : Settings} {s t : List Block}
    {lib : WaveformLibrary} (h : (compileOne settings (s ++ t)).Completes lib) :
    (compileOne settings s).Completes lib := by
  rw [compileOne_completes_iff] at h ⊢
  intro c hc
  obtain ⟨list, after, hsolo⟩ := h c ((Schedule.channels_prefix s t).subset hc)
  obtain ⟨_, _, hearlier, -⟩ := solo_append hsolo
  exact hearlier.completes

theorem playedList_append (settings : Settings) (channel : Channel) (s t : List Block) :
    playedList settings channel (s ++ t) = playedList settings channel s ++
      (Frame.turnedScore settings.detectConstants
        (Frame.frameAfter .zero (Schedule.score settings.paddingCutoff channel s))
        (Schedule.score settings.paddingCutoff channel t)).map Cue.entry := by
  rw [playedList, played, Schedule.score_append, Frame.turnedScore_append, List.map_append]
  rfl

/-- A channel that the first blocks do not address waits for each of them, and then plays the
others as if they were the first. -/
theorem playedList_append_of_not_mem {settings : Settings} {channel : Channel} {s : List Block}
    (h : channel ∉ Schedule.channels s) (t : List Block) :
    playedList settings channel (s ++ t) =
      (Schedule.lasting s).map (fun b => Entry.padding b.duration) ++
        playedList settings channel t := by
  have hlasting := mt (fun hc => Schedule.channels_lasting_subset s hc) h
  have hscore : Schedule.score settings.paddingCutoff channel s =
      ((Schedule.lasting s).map Block.duration).map Cue.padding := by
    rw [Schedule.score_of_not_mem hlasting, List.map_map]
    rfl
  rw [playedList_append, playedList_of_not_mem hlasting, hscore, Frame.frameAfter_padding]
  rfl

/-- What a sequence leaves in the library, it leaves in front of what comes with later blocks. -/
theorem compileOne_append_growsTo {settings : Settings} {s t : List Block}
    {lists lists' : ChannelLists} {lib before after : WaveformLibrary}
    (h : (compileOne settings s).Yields lib lists before)
    (h' : (compileOne settings (s ++ t)).Yields lib lists' after) : before.GrowsTo after := by
  have hbegins := Schedule.channels_prefix s t
  refine ⟨?_, ?_⟩
  · rw [(compileOne_receives h).channels, (compileOne_receives h').channels,
      (compileOne_yields h).1, (compileOne_yields h').1, map_fst_playedLists, map_fst_playedLists]
    obtain ⟨later, hlater⟩ := hbegins
    rw [← hlater, joined_append]
    exact List.prefix_append _ _
  · intro c
    by_cases hc : c ∈ Schedule.channels s
    · obtain ⟨_, left, hsolo, -, hleft⟩ := compileOne_at hc h
      obtain ⟨_, left', hsolo', -, hleft'⟩ := compileOne_at (hbegins.subset hc) h'
      obtain ⟨_, begun, hbegun, hgrows⟩ := solo_append hsolo'
      obtain ⟨rfl, rfl⟩ := hsolo.unique hbegun
      have hwaveforms := hgrows.waveforms c
      unfold WaveformLibrary.waveforms at hwaveforms ⊢
      rw [← hleft, ← hleft']
      exact hwaveforms
    · have hspared := h.spares (spares_compileOne hc)
      have hgrown := (h'.growsTo (grows_compileOne settings (s ++ t))).waveforms c
      unfold WaveformLibrary.waveforms at hgrown ⊢
      rw [hspared]
      exact hgrown

end Program

namespace Trial

/-- A channel of its own, which `detuned` does not address. -/
def coda : List Block := [{ pulses := .ofList [("q3", { samples := .ofReal [.one, .zero] })] }]

theorem contentsIn_coda : Program.ContentsIn (fun x => ∃ w ∈ shapes, w.content = x) {}
    (detuned.map Item.toBlock ++ coda) := by
  unfold Program.ContentsIn
  decide +kernel

end Trial

namespace Program

/-- If a sequence compiles, so does every beginning of it, from the same library. The channels of
the beginning come first, each of its lists is where the list of the whole sequence begins, and
what it stored is stored in front of the rest. A channel that only comes up later has waited for
each block of the beginning that takes time, and behind that plays what it plays for the rest
alone. -/
theorem later_blocks_change_nothing_before_them {settings : Settings} {s t : List Block}
    {lib : WaveformLibrary} {lists : ChannelLists}
    (h : (compileOne settings (s ++ t) lib).answer = .ok lists) :
    ∃ earlier, (compileOne settings s lib).answer = .ok earlier ∧
      earlier.map Prod.fst = Schedule.channels s ∧
      lists.map Prod.fst = Schedule.channels (s ++ t) ∧
      Schedule.channels s <+: Schedule.channels (s ++ t) ∧
      (∀ channel ∈ Schedule.channels s, ∃ begun list, earlier.lookup channel = some begun ∧
        lists.lookup channel = some list ∧ begun <+: list) ∧
      (∀ channel ∈ Schedule.channels t, channel ∉ Schedule.channels s →
        lists.lookup channel =
          some ((s.filter (·.duration ≠ 0)).map (fun b => Entry.padding b.duration) ++
            playedList settings channel t)) ∧
      (compileOne settings s lib).library.GrowsTo (compileOne settings (s ++ t) lib).library := by
  have hrun := yields_of_ok h
  have hbegins := Schedule.channels_prefix s t
  obtain ⟨earlier, hearlier⟩ := (compileOne_append_completes hrun.completes).answer
  have hbegun := yields_of_ok hearlier
  have hgrows := compileOne_append_growsTo hbegun hrun
  obtain ⟨rfl, -⟩ := compileOne_yields hrun
  obtain ⟨rfl, -⟩ := compileOne_yields hbegun
  refine ⟨_, hearlier, map_fst_playedLists _ _, map_fst_playedLists _ _, hbegins, ?_, ?_, hgrows⟩
  · intro c hc
    refine ⟨_, _, Table.lookup_map_graph _ _ hc, Table.lookup_map_graph _ _ (hbegins.subset hc), ?_⟩
    rw [playedList_append]
    exact List.prefix_append _ _
  · intro c hc hnew
    obtain ⟨b, hb, hkey⟩ := Schedule.mem_channels.mp hc
    have hmem : c ∈ Schedule.channels (s ++ t) :=
      Schedule.mem_channels.mpr ⟨b, List.mem_append_right s hb, hkey⟩
    rw [playedLists, Table.lookup_map_graph _ _ hmem, playedList_append_of_not_mem hnew]
    rfl

/-- `q1` has lost its frame by then, and its list goes on in it. `q3` has waited for two samples
twice. -/
theorem a_coda_leaves_the_rest_alone :
    ∃ lists earlier, (compileOne {} (Trial.detuned.map Item.toBlock ++ Trial.coda) .empty).answer =
        .ok lists ∧
      (compileOne {} (Trial.detuned.map Item.toBlock) .empty).answer = .ok earlier ∧
      (∃ begun list, earlier.lookup "q1" = some begun ∧ lists.lookup "q1" = some list ∧
        begun <+: list) ∧
      lists.lookup "q3" =
        some ([Entry.padding 2, Entry.padding 2] ++ playedList {} "q3" Trial.coda) := by
  obtain ⟨lists, h⟩ := Trial.compileOne_within Trial.contentsIn_coda within_empty
  obtain ⟨earlier, hearlier, -, -, -, hlists, hwaits, -⟩ :=
    later_blocks_change_nothing_before_them h
  exact ⟨lists, earlier, h, hearlier, hlists "q1" (by decide +kernel),
    hwaits "q3" (by decide +kernel) (by decide +kernel)⟩

end Program

end PulseSequencer
