-- The channels of a program stay together: each has one list per sequence, and
-- the lists of one sequence all take the time of its blocks. A list depends on
-- its own sequence alone, not on the sequences around it and not on the library.
import Mathlib.Algebra.GroupWithZero.Nat
import PulseSequencer.Proofs.Playback

namespace PulseSequencer

open Compilation

attribute [local irreducible] Waveform.key

/-! ## The order of first use -/

namespace Schedule

theorem firstUses_filter (keep : Channel → Bool) (l : List Channel) :
    firstUses (l.filter keep) = (firstUses l).filter keep := by
  induction l with
  | nil => rfl
  | cons c rest ih =>
    by_cases hc : keep c = true
    · rw [List.filter_cons_of_pos hc, firstUses, firstUses, List.filter_cons_of_pos hc, ih,
        List.filter_filter, List.filter_filter]
      simp only [Bool.and_comm]
    · rw [List.filter_cons_of_neg hc, firstUses, List.filter_cons_of_neg hc, ih,
        List.filter_filter]
      apply List.filter_congr
      intro d _
      by_cases hd : d = c
      · subst hd
        simp [hc]
      · simp [hd]

/-- Every channel once, where it comes first. -/
theorem firstUses_eq_eraseDups (l : List Channel) : firstUses l = l.eraseDups := by
  induction h : l.length using Nat.strongRecOn generalizing l with
  | ind n ih =>
    cases l with
    | nil => rfl
    | cons c rest =>
      have hshort : (rest.filter fun d => !d == c).length < n := by
        have := List.length_filter_le (fun d => !d == c) rest
        rw [List.length_cons] at h
        omega
      rw [List.eraseDups_cons, ← ih _ hshort _ rfl, firstUses_filter, firstUses]
      congr 1
      apply List.filter_congr
      intro d _
      by_cases hd : d = c <;> simp [hd]

end Schedule

/-! ## The time of a list -/

/-- How long the entry of a cue plays. -/
def Cue.time (q : Cue) : Nat := q.entry.length * q.entry.repetitions

namespace Frame

/-- Turning takes no time. -/
theorem map_time_turnedScore (detect : Bool) (frame : Binary64) (cues : List Cue) :
    (turnedScore detect frame cues).map Cue.time = cues.map Cue.time := by
  induction cues generalizing frame with
  | nil => rfl
  | cons q rest ih =>
    rw [turnedScore, List.map_cons, List.map_cons, ih]
    rfl

end Frame

theorem time_paddingCues (n : Nat) : ((paddingCues n).map Cue.time).sum = n := by
  unfold paddingCues
  split
  · rename_i hn
    simp [hn]
  · simp [Cue.time, Cue.padding, Entry.padding]

theorem Cue.time_ofPulse (pulse : Pulse) (shape : Waveform) :
    (ofPulse pulse shape).time = shape.length := by
  simp [time, ofPulse, Entry.ofPulse]

theorem Alignment.split_sum (padding : Nat) (a : Alignment) :
    (a.split padding).1 + (a.split padding).2 = padding := by
  cases a with
  | left => exact Nat.zero_add padding
  | right => rfl
  | center =>
    dsimp only [split]
    omega

/-- However a pulse is placed, its cues fill the block. -/
theorem Pulse.time_cues {p : Pulse} {blockLength : Nat} (h : p.length ≤ blockLength)
    (alignment : Alignment) (cutoff : Nat) :
    ((p.cues blockLength alignment cutoff).map Cue.time).sum = blockLength := by
  have hsplit := alignment.split_sum (blockLength - p.length)
  unfold cues
  dsimp only
  split
  · rw [List.map_singleton, List.sum_singleton, Cue.time_ofPulse, Waveform.length_pad]
    unfold Pulse.length at *
    omega
  · rw [List.map_append, List.sum_append, List.map_cons, List.sum_cons, time_paddingCues,
      time_paddingCues, Cue.time_ofPulse]
    unfold Pulse.length at *
    omega

/-- Every channel gets exactly the duration of the block. -/
theorem Block.time_cues (cutoff : Nat) (b : Block) (channel : Channel) :
    ((b.cues cutoff channel).map Cue.time).sum = b.duration := by
  unfold cues
  cases hp : b.pulses.get? channel with
  | none => simp [Cue.time, Cue.padding, Entry.padding]
  | some p => exact Pulse.time_cues (length_le_duration hp) b.alignment cutoff

namespace Schedule

theorem time_score (cutoff : Nat) (channel : Channel) (blocks : List Block) :
    ((score cutoff channel blocks).map Cue.time).sum = (blocks.map Block.duration).sum := by
  induction blocks with
  | nil => rfl
  | cons b rest ih =>
    rw [List.map_cons, List.sum_cons]
    by_cases hb : b.duration = 0
    · rw [score_cons_of_zero cutoff channel rest hb, ih, hb, Nat.zero_add]
    · rw [score_cons_of_ne cutoff channel rest hb, List.map_append, List.sum_append,
        Block.time_cues, ih]

end Schedule

namespace Program

theorem totalLength_playedList (settings : Settings) (channel : Channel) (blocks : List Block) :
    LinkList.totalLength (playedList settings channel blocks) =
      (blocks.map Block.duration).sum % 2 ^ 64 := by
  have htime : (playedList settings channel blocks).map (fun e => e.length * e.repetitions) =
      (Schedule.score settings.paddingCutoff channel blocks).map Cue.time := by
    rw [playedList, List.map_map, ← Frame.map_time_turnedScore settings.detectConstants .zero]
    rfl
  rw [LinkList.totalLength, htime, ← Schedule.time_score settings.paddingCutoff channel blocks]
  rfl

/-! ## The sequence of a list -/

/-- In a run over several sequences each one is compiled with the library that those before it
left. -/
theorem compileFrom_at {settings : Settings} {start : Nat} {sequences : List (List Block)}
    {compiled : List ChannelLists} {lib lib' : WaveformLibrary}
    (h : (compileFrom settings start sequences).Yields lib compiled lib') {index : Nat}
    {blocks : List Block} (hi : sequences[index]? = some blocks) :
    ∃ lists, compiled[index]? = some lists ∧
      (compileOne settings blocks
        (compileFrom settings start (sequences.take index) lib).library).answer = .ok lists := by
  induction index generalizing start sequences compiled lib with
  | zero =>
    cases sequences with
    | nil => cases hi
    | cons first rest =>
      cases hi
      simp only [compileFrom, yields_bind_iff, yields_pure_iff] at h
      obtain ⟨lists, _, hfirst, _, _, _, _, _, _, rfl, _⟩ := h
      exact ⟨lists, rfl, hfirst.1⟩
  | succ index ih =>
    cases sequences with
    | nil => cases hi
    | cons first rest =>
      simp only [compileFrom, yields_bind_iff, yields_report_iff, yields_pure_iff] at h
      obtain ⟨lists, middle, hfirst, _, _, rfl, compiled', _, hrest, rfl, rfl⟩ := h
      obtain ⟨found, hfound, hanswer⟩ := ih hrest hi
      refine ⟨found, hfound, ?_⟩
      have hreport : (report [.sequenceCompiled start first.length]).Yields middle () middle :=
        yields_report_iff.mpr rfl
      rw [← hanswer, List.take_succ_cons, compileFrom, hfirst.library_bind, hreport.library_bind,
        library_bind_pure]

/-! ## The laws -/

/-- A program has the channels of its first sequence, in the order of their first use. Every
channel has one list per sequence, the one that its own sequence is compiled to, and all lists of
a sequence take the time of its blocks. -/
theorem channels_of_a_program_stay_together {settings : Settings} {sequences : Sequences}
    {lib : WaveformLibrary} {p : Program} (h : (compile settings sequences lib).answer = .ok p) :
    p.linkLists.keys =
        ((sequences.blocks.headD []).flatMap fun b => b.pulses.keys).eraseDups ∧
      (∀ channel ∈ p.linkLists.keys, ∃ lists, p.linkLists.get? channel = some lists ∧
        lists.length = sequences.blocks.length) ∧
      ∀ index blocks, sequences.blocks[index]? = some blocks →
        ∃ compiled, (compileOne settings.bounded blocks (compileFrom settings.bounded 0
            (sequences.blocks.take index) lib).library).answer = .ok compiled ∧
          ∀ channel ∈ p.linkLists.keys, ∃ list, p.list? channel index = some list ∧
            compiled.lookup channel = some list ∧
            LinkList.totalLength list = (blocks.map Block.duration).sum % 2 ^ 64 := by
  have hplays := plays_of_compile h
  refine ⟨?_, ?_, ?_⟩
  · rw [hplays.channels, ← Schedule.firstUses_eq_eraseDups]
    cases sequences.blocks with
    | nil => rfl
    | cons first rest => rfl
  · intro channel hc
    exact ⟨_, hplays.lists channel hc, List.length_map _⟩
  · intro index blocks hi
    obtain ⟨_, compiled, _, hfrom, _⟩ := compile_ok h
    obtain ⟨lists, _, hlists⟩ := compileFrom_at hfrom hi
    obtain ⟨hplayed, _⟩ := compileOne_yields (yields_of_ok hlists)
    refine ⟨lists, hlists, ?_⟩
    intro channel hc
    have haddressed := (hplays.addressed blocks (List.mem_of_getElem? hi) channel).mpr hc
    refine ⟨_, hplays.list? hc hi, ?_, totalLength_playedList _ channel blocks⟩
    rw [hplayed]
    exact Table.lookup_map_graph _ _ haddressed

/-- Two channels, two sequences that address them in different orders. Each channel's second list
comes from the second sequence, and takes its two samples. -/
theorem two_channels_stay_together :
    ∃ p, (compile {} Trial.sequences .empty).answer = .ok p ∧ p.linkLists.keys = ["q1", "q2"] ∧
      Schedule.channels (Trial.tuned.map Item.toBlock) = ["q2", "q1"] ∧
      ∀ channel ∈ p.linkLists.keys, ∃ list, p.list? channel 1 = some list ∧
        LinkList.totalLength list = 2 := by
  obtain ⟨p, hp⟩ := Trial.sequences_compile
  obtain ⟨hkeys, -, hlists⟩ := channels_of_a_program_stay_together hp
  obtain ⟨_, -, hsecond⟩ := hlists 1 _ Trial.second
  refine ⟨p, hp, ?_, by decide +kernel, ?_⟩
  · rw [hkeys]
    decide +kernel
  · intro channel hc
    obtain ⟨list, hlist, -, htime⟩ := hsecond channel hc
    refine ⟨list, hlist, ?_⟩
    rw [htime]
    decide +kernel

/-- Compiled among others or alone, from any two libraries, a sequence gives every channel the
same list. -/
theorem a_sequence_compiles_alike_among_others {settings : Settings} {sequences alone : Sequences}
    {lib lib' : WaveformLibrary} {p q : Program}
    (h : (compile settings sequences lib).answer = .ok p)
    (halone : (compile settings alone lib').answer = .ok q) {index : Nat} {blocks : List Block}
    (hi : sequences.blocks[index]? = some blocks) (honly : alone.blocks = [blocks]) :
    (∀ channel, channel ∈ p.linkLists.keys ↔ channel ∈ q.linkLists.keys) ∧
      ∀ channel ∈ p.linkLists.keys, ∃ list, p.list? channel index = some list ∧
        q.linkLists.get? channel = some [list] := by
  have hp := plays_of_compile h
  have hq := plays_of_compile halone
  rw [honly] at hq
  have hsame : ∀ channel, channel ∈ p.linkLists.keys ↔ channel ∈ q.linkLists.keys := by
    intro channel
    rw [← hp.addressed blocks (List.mem_of_getElem? hi) channel,
      ← hq.addressed blocks (List.mem_singleton.mpr rfl) channel]
  refine ⟨hsame, ?_⟩
  intro channel hc
  exact ⟨_, hp.list? hc hi, hq.lists channel ((hsame channel).mp hc)⟩

/-- A sequence behind one that lost a frame, and the same sequence alone. -/
theorem a_sequence_does_not_inherit_a_lost_frame :
    ∃ p q, (compile {} Trial.sequences .empty).answer = .ok p ∧
      (compile {} (.single Trial.tuned) .empty).answer = .ok q ∧ "q1" ∈ p.linkLists.keys ∧
      ∃ list, p.list? "q1" 1 = some list ∧ q.linkLists.get? "q1" = some [list] := by
  obtain ⟨p, hp⟩ := Trial.sequences_compile
  obtain ⟨q, hq⟩ := Trial.tuned_compiles
  have hc : "q1" ∈ p.linkLists.keys := Trial.mem_keys hp (by decide)
  have hsame := a_sequence_compiles_alike_among_others hp hq Trial.second rfl
  exact ⟨p, q, hp, hq, hc, hsame.2 "q1" hc⟩

end Program

end PulseSequencer
