-- The channels of the sequences of a program. Nothing is compiled unless every
-- sequence addresses some channel and all address the same ones; otherwise the
-- first thing that is wrong is reported, and nothing else has happened.
import PulseSequencer.Proofs.Elision
import PulseSequencer.Proofs.Failures

namespace PulseSequencer

/-! ## What there is to report -/

namespace Schedule

/-- The channels of a sequence, one for each pulse, in the order of the pulses. -/
def uses (blocks : List Block) : List Channel := blocks.flatMap (·.pulses.keys)

/-- Some block of the sequence has a pulse for the channel. -/
def Addresses (blocks : List Block) (channel : Channel) : Prop :=
  ∃ b ∈ blocks, channel ∈ b.pulses.keys

instance (blocks : List Block) (channel : Channel) : Decidable (Addresses blocks channel) :=
  inferInstanceAs (Decidable (∃ b ∈ blocks, channel ∈ b.pulses.keys))

/-- No block has a pulse. -/
def Mute (blocks : List Block) : Prop := ∀ channel, ¬ Addresses blocks channel

def SameChannels (s t : List Block) : Prop := ∀ channel, Addresses s channel ↔ Addresses t channel

/-- Of the channels that the first sequence addresses and the second does not, the one that the
first sequence uses first. -/
def FirstLacking (s t : List Block) (channel : Channel) : Prop :=
  ¬ Addresses t channel ∧
    ∃ before after, uses s = before ++ channel :: after ∧ ∀ c ∈ before, Addresses t c

/-- What is said of a later sequence that has other channels than the first one. A channel that it
lacks comes before one that it has in excess. -/
inductive FirstDifference (first later : List Block) : Channel → ChannelMismatch → Prop
  | missing {channel : Channel} (h : FirstLacking first later channel) :
    FirstDifference first later channel .missing
  | unexpected {channel : Channel} (hnone : ∀ c, Addresses first c → Addresses later c)
    (h : FirstLacking later first channel) : FirstDifference first later channel .unexpected

/-! ## Searching in the order of first use -/

theorem mem_channels_iff {blocks : List Block} {channel : Channel} :
    channel ∈ channels blocks ↔ Addresses blocks channel := mem_channels

theorem isEmpty_channels {blocks : List Block} :
    (channels blocks).isEmpty = true ↔ Mute blocks := by
  rw [List.isEmpty_iff, List.eq_nil_iff_forall_not_mem]
  exact forall_congr' fun _ => not_congr mem_channels_iff

/-- A channel that is used again is no news to a search. -/
theorem find?_firstUses (p : Channel → Bool) (l : List Channel) :
    (firstUses l).find? p = l.find? p := by
  induction l with
  | nil => rfl
  | cons c rest ih =>
    cases hc : p c with
    | true => rw [firstUses, List.find?_cons_of_pos hc, List.find?_cons_of_pos hc]
    | false =>
      have hskip : (fun d => decide (decide (d ≠ c) = true ∧ p d = true)) = p := by
        funext d
        by_cases hd : d = c
        · simp [hd, hc]
        · simp [hd]
      have hneg : ¬ p c = true := by simp [hc]
      rw [firstUses, List.find?_cons_of_neg hneg, List.find?_cons_of_neg hneg, List.find?_filter,
        hskip, ih]

theorem find?_lacking {s t : List Block} {channel : Channel} :
    (channels s).find? (!(channels t).contains ·) = some channel ↔ FirstLacking s t channel := by
  have hcontains (c : Channel) : (channels t).contains c = true ↔ Addresses t c :=
    List.contains_iff_mem.trans mem_channels_iff
  have huses : (channels s).find? (!(channels t).contains ·) =
      (uses s).find? (!(channels t).contains ·) := find?_firstUses _ _
  rw [huses, List.find?_eq_some_iff_append]
  simp only [Bool.not_eq_true', Bool.not_not, ← Bool.not_eq_true, hcontains]
  rfl

theorem find?_lacking_eq_none {s t : List Block} :
    (channels s).find? (!(channels t).contains ·) = none ↔
      ∀ c, Addresses s c → Addresses t c := by
  simp only [List.find?_eq_none, mem_channels_iff, Bool.not_eq_true', Bool.not_eq_false,
    List.contains_iff_mem]

end Schedule

namespace Program

open Schedule

/-! ## Two sequences -/

section

variable {first later : List Block}

theorem mismatch?_eq_some_iff {channel : Channel} {mismatch : ChannelMismatch} :
    mismatch? (Schedule.channels first) (Schedule.channels later) = some (channel, mismatch) ↔
      FirstDifference first later channel mismatch := by
  unfold mismatch?
  cases hlacking : (Schedule.channels first).find? (!(Schedule.channels later).contains ·) with
  | some c =>
    have hfirst := find?_lacking.mp hlacking
    constructor
    · rintro ⟨⟩
      exact .missing hfirst
    · rintro (h | ⟨hnone, -⟩)
      · rw [find?_lacking.mpr h] at hlacking
        cases hlacking
        rfl
      · rw [find?_lacking_eq_none.mpr hnone] at hlacking
        cases hlacking
  | none =>
    have hnone := find?_lacking_eq_none.mp hlacking
    simp only [Option.map_eq_some_iff, Prod.mk.injEq]
    constructor
    · rintro ⟨c, hc, rfl, rfl⟩
      exact .unexpected hnone (find?_lacking.mp hc)
    · rintro (h | ⟨-, h⟩)
      · rw [find?_lacking.mpr h] at hlacking
        cases hlacking
      · exact ⟨channel, find?_lacking.mpr h, rfl, rfl⟩

theorem mismatch?_eq_none_iff :
    mismatch? (Schedule.channels first) (Schedule.channels later) = none ↔
      SameChannels first later := by
  constructor
  · intro h c
    rw [← mem_channels_iff, ← mem_channels_iff]
    exact (mismatch?_eq_none h c).symm
  · intro h
    unfold mismatch?
    rw [find?_lacking_eq_none.mpr fun c => (h c).mp]
    dsimp only
    rw [find?_lacking_eq_none.mpr fun c => (h c).mpr]
    rfl

theorem exists_firstDifference_iff :
    (∃ channel mismatch, FirstDifference first later channel mismatch) ↔
      ¬ SameChannels first later := by
  simp only [← mismatch?_eq_some_iff, ← mismatch?_eq_none_iff]
  cases mismatch? (Schedule.channels first) (Schedule.channels later) with
  | none => simp
  | some difference => exact ⟨nofun, fun _ => ⟨difference.1, difference.2, rfl⟩⟩

end

/-! ## All sequences -/

/-- The search goes on until it comes to a set of channels that is another one than the first. -/
theorem findMismatch_eq_some_iff {first : List Channel} {index : Nat} {sets : List (List Channel)}
    {e : CompileError} :
    findMismatch first index sets = some e ↔
      ∃ k set channel mismatch, sets[k]? = some set ∧
        (∀ j < k, ∀ other, sets[j]? = some other → mismatch? first other = none) ∧
        mismatch? first set = some (channel, mismatch) ∧
        e = .channelSetMismatch (index + k) channel mismatch := by
  induction sets generalizing index with
  | nil => simp [findMismatch]
  | cons set rest ih =>
    unfold findMismatch
    cases hset : mismatch? first set with
    | some difference =>
      obtain ⟨channel, mismatch⟩ := difference
      constructor
      · rintro ⟨⟩
        exact ⟨0, set, channel, mismatch, rfl, nofun, hset, rfl⟩
      · rintro ⟨k, other, c, m, hk, hbefore, hother, rfl⟩
        cases k with
        | zero =>
          cases hk
          rw [hset] at hother
          cases hother
          rfl
        | succ k =>
          rw [hbefore 0 (Nat.succ_pos k) set rfl] at hset
          cases hset
    | none =>
      dsimp only
      rw [ih]
      constructor
      · rintro ⟨k, other, c, m, hk, hbefore, hother, rfl⟩
        refine ⟨k + 1, other, c, m, hk, ?_, hother, by rw [Nat.add_assoc, Nat.add_comm 1]⟩
        intro j hj s hs
        cases j with
        | zero =>
          cases hs
          exact hset
        | succ j => exact hbefore j (Nat.lt_of_succ_lt_succ hj) s hs
      · rintro ⟨k, other, c, m, hk, hbefore, hother, rfl⟩
        cases k with
        | zero =>
          cases hk
          rw [hset] at hother
          cases hother
        | succ k =>
          refine ⟨k, other, c, m, hk, ?_, hother, by rw [Nat.add_assoc, Nat.add_comm 1]⟩
          intro j hj s hs
          exact hbefore (j + 1) (Nat.succ_lt_succ hj) s hs

/-- The first sequence may as well be held against itself. -/
theorem channels_eq (sequences : List (List Block)) :
    channels sequences =
      ((sequences.map Schedule.channels).findIdx? List.isEmpty).elim
        ((findMismatch (firstChannels sequences) 0 (sequences.map Schedule.channels)).elim
          (.ok (firstChannels sequences)) .error)
        fun index => .error (.emptyChannelSet index) := by
  cases sequences with
  | nil => rfl
  | cons first rest =>
    have hself : mismatch? (Schedule.channels first) (Schedule.channels first) = none :=
      mismatch?_eq_none_iff.mpr fun _ => Iff.rfl
    have hfirst : firstChannels (first :: rest) = Schedule.channels first := rfl
    have hnext : findMismatch (Schedule.channels first) 0 ((first :: rest).map Schedule.channels) =
        findMismatch (Schedule.channels first) 1 (rest.map Schedule.channels) := by
      simp [findMismatch, hself]
    rw [hfirst, hnext]
    unfold channels
    dsimp only
    cases ((first :: rest).map Schedule.channels).findIdx? List.isEmpty with
    | some index => rfl
    | none =>
      cases hfind : findMismatch (Schedule.channels first) 1 (rest.map Schedule.channels) <;>
        simp [hfind]

variable {sequences : List (List Block)}

theorem findIdx?_isEmpty {i : Nat} :
    (sequences.map Schedule.channels).findIdx? List.isEmpty = some i ↔
      ∃ s, sequences[i]? = some s ∧ Mute s ∧ ∀ j < i, ∀ r, sequences[j]? = some r → ¬ Mute r := by
  rw [List.findIdx?_map, List.findIdx?_eq_some_iff_getElem]
  simp only [Function.comp_apply, isEmpty_channels]
  constructor
  · rintro ⟨hi, hmute, hbefore⟩
    refine ⟨sequences[i], List.getElem?_eq_getElem hi, hmute, ?_⟩
    intro j hj r hr
    obtain ⟨_, rfl⟩ := List.getElem?_eq_some_iff.mp hr
    exact hbefore j hj
  · rintro ⟨s, hs, hmute, hbefore⟩
    obtain ⟨hi, rfl⟩ := List.getElem?_eq_some_iff.mp hs
    exact ⟨hi, hmute, fun j hj => hbefore j hj _ (List.getElem?_eq_getElem _)⟩

theorem findIdx?_isEmpty_eq_none :
    (sequences.map Schedule.channels).findIdx? List.isEmpty = none ↔
      ∀ s ∈ sequences, ¬ Mute s := by
  rw [List.findIdx?_map, List.findIdx?_eq_none_iff]
  simp only [Function.comp_apply, ← Bool.not_eq_true, isEmpty_channels]

/-- The search among the sequences, in terms of what they address. -/
theorem findMismatch_channels {i : Nat} {channel : Channel} {mismatch : ChannelMismatch} :
    findMismatch (firstChannels sequences) 0 (sequences.map Schedule.channels) =
        some (.channelSetMismatch i channel mismatch) ↔
      ∃ first later, sequences.head? = some first ∧ sequences[i]? = some later ∧
        (∀ j < i, ∀ s, sequences[j]? = some s → SameChannels first s) ∧
        FirstDifference first later channel mismatch := by
  cases sequences with
  | nil => simp [findMismatch]
  | cons first rest =>
    have hfirst : firstChannels (first :: rest) = Schedule.channels first := rfl
    rw [hfirst, findMismatch_eq_some_iff]
    constructor
    · rintro ⟨k, set, c, m, hk, hbefore, hset, herror⟩
      rw [Nat.zero_add] at herror
      cases herror
      rw [List.getElem?_map, Option.map_eq_some_iff] at hk
      obtain ⟨later, hk, rfl⟩ := hk
      refine ⟨first, later, rfl, hk, ?_, mismatch?_eq_some_iff.mp hset⟩
      intro j hj s hs
      exact mismatch?_eq_none_iff.mp (hbefore j hj _ (by rw [List.getElem?_map, hs]; rfl))
    · rintro ⟨_, later, ⟨⟩, hi, hbefore, hdiffers⟩
      refine ⟨i, _, channel, mismatch, by rw [List.getElem?_map, hi]; rfl, ?_,
        mismatch?_eq_some_iff.mpr hdiffers, by rw [Nat.zero_add]⟩
      intro j hj set hset
      rw [List.getElem?_map, Option.map_eq_some_iff] at hset
      obtain ⟨s, hs, rfl⟩ := hset
      exact mismatch?_eq_none_iff.mpr (hbefore j hj s hs)

theorem findMismatch_channels_eq_none :
    findMismatch (firstChannels sequences) 0 (sequences.map Schedule.channels) = none ↔
      ∀ first, sequences.head? = some first → ∀ s ∈ sequences, SameChannels first s := by
  constructor
  · intro hnone first hfirst s hs c
    have hchannels : firstChannels sequences = Schedule.channels first := by
      rw [firstChannels, hfirst]
      rfl
    rw [← mem_channels_iff, ← mem_channels_iff, ← hchannels]
    exact (findMismatch_eq_none hnone _ (List.mem_map_of_mem hs) c).symm
  · intro hsame
    rw [Option.eq_none_iff_forall_ne_some]
    intro e he
    obtain ⟨_, _, _, _, -, -, -, rfl⟩ := findMismatch_eq_some_iff.mp he
    obtain ⟨first, later, hfirst, hi, -, hdiffers⟩ := findMismatch_channels.mp he
    have hnone := mismatch?_eq_none_iff.mpr (hsame first hfirst later (List.mem_of_getElem? hi))
    rw [mismatch?_eq_some_iff.mpr hdiffers] at hnone
    cases hnone

/-! ## The check -/

theorem channels_ok_iff :
    (∃ cs, channels sequences = .ok cs) ↔ (∀ s ∈ sequences, ¬ Mute s) ∧
      ∀ first, sequences.head? = some first → ∀ s ∈ sequences, SameChannels first s := by
  rw [channels_eq, ← findIdx?_isEmpty_eq_none, ← findMismatch_channels_eq_none]
  cases (sequences.map Schedule.channels).findIdx? List.isEmpty with
  | some i => simp
  | none =>
    cases findMismatch (firstChannels sequences) 0 (sequences.map Schedule.channels) <;> simp

theorem channels_eq_emptyChannelSet_iff {i : Nat} :
    channels sequences = .error (.emptyChannelSet i) ↔
      ∃ s, sequences[i]? = some s ∧ Mute s ∧ ∀ j < i, ∀ r, sequences[j]? = some r → ¬ Mute r := by
  rw [← findIdx?_isEmpty, channels_eq]
  cases (sequences.map Schedule.channels).findIdx? List.isEmpty with
  | some k => simp
  | none =>
    cases hfind : findMismatch (firstChannels sequences) 0 (sequences.map Schedule.channels) with
    | none => simp
    | some e =>
      obtain ⟨_, _, _, _, -, -, -, rfl⟩ := findMismatch_eq_some_iff.mp hfind
      simp

theorem channels_eq_channelSetMismatch_iff {i : Nat} {channel : Channel}
    {mismatch : ChannelMismatch} :
    channels sequences = .error (.channelSetMismatch i channel mismatch) ↔
      (∀ s ∈ sequences, ¬ Mute s) ∧ ∃ first later, sequences.head? = some first ∧
        sequences[i]? = some later ∧
        (∀ j < i, ∀ s, sequences[j]? = some s → SameChannels first s) ∧
        FirstDifference first later channel mismatch := by
  rw [← findIdx?_isEmpty_eq_none, ← findMismatch_channels, channels_eq]
  cases (sequences.map Schedule.channels).findIdx? List.isEmpty with
  | some k => simp
  | none =>
    cases findMismatch (firstChannels sequences) 0 (sequences.map Schedule.channels) <;> simp

/-- If the channels are at fault, nothing has happened but that the settings were looked at. -/
theorem compile_of_channels_error {settings : Settings} {sequences : Sequences}
    {e : CompileError} (h : channels sequences.blocks = .error e) (lib : WaveformLibrary) :
    compile settings sequences lib = ⟨lib, settings.changes.map .settingChanged, .error e⟩ := by
  have hchannels : (Compilation.ofExcept (channels sequences.blocks) lib).answer = .error e := h
  rw [compile, Compilation.bind_apply]
  dsimp only [Compilation.report]
  rw [Compilation.bind_apply, hchannels]
  dsimp only [Compilation.ofExcept]
  rw [List.append_nil]

theorem answer_eq_error_iff {settings : Settings} {sequences : Sequences} {lib : WaveformLibrary}
    {e : CompileError} (he : e.IsChannelFault) :
    (compile settings sequences lib).answer = .error e ↔ channels sequences.blocks = .error e := by
  constructor
  · intro h
    rcases compile_error h with h | ⟨_, _, h⟩
    · exact h
    · have hkeeps := keeps_compileFrom WaveformLibrary.regime_collision 0
        fun blocks (_ : blocks ∈ sequences.blocks) => contentsIn_true settings.bounded blocks
      obtain ⟨channel, key, rfl⟩ := (hkeeps lib trivial).2 e h
      rcases he with ⟨_, he⟩ | ⟨_, _, _, he⟩ <;> cases he
  · intro h
    rw [compile_of_channels_error h]

/-- Nothing is compiled unless every sequence addresses some channel and all address the same ones.
The first sequence without a channel is reported before anything else. Otherwise it is the first
sequence that differs from the first one, with the first channel that it lacks, or if it lacks none
with the first that it has in excess. Nothing is stored by then, and nothing is said of any
sequence. -/
theorem the_first_fault_of_the_channels_is_reported (settings : Settings) (sequences : Sequences)
    (lib : WaveformLibrary) :
    let blocks := sequences.blocks
    let run := compile settings sequences lib
    ((∃ cs, channels blocks = .ok cs) ↔ blocks = [] ∨ ∃ first, blocks.head? = some first ∧
        ∀ s ∈ blocks, ¬ Mute s ∧ SameChannels first s) ∧
      (∀ i, run.answer = .error (.emptyChannelSet i) ↔ ∃ s, blocks[i]? = some s ∧ Mute s ∧
        ∀ j < i, ∀ r, blocks[j]? = some r → ¬ Mute r) ∧
      (∀ i channel mismatch, run.answer = .error (.channelSetMismatch i channel mismatch) ↔
        (∀ s ∈ blocks, ¬ Mute s) ∧ ∃ first later, blocks.head? = some first ∧
          blocks[i]? = some later ∧
          (∀ j < i, ∀ s, blocks[j]? = some s → SameChannels first s) ∧
          FirstDifference first later channel mismatch) ∧
      (∀ first later, (∃ channel mismatch, FirstDifference first later channel mismatch) ↔
        ¬ SameChannels first later) ∧
      (∀ e, channels blocks = .error e ↔ e.IsChannelFault ∧ run.answer = .error e) ∧
      ∀ e, e.IsChannelFault → run.answer = .error e →
        run.library = lib ∧ run.events = settings.changes.map .settingChanged := by
  intro blocks run
  have hanswer {e : CompileError} (he : e.IsChannelFault) :
      run.answer = .error e ↔ channels blocks = .error e := answer_eq_error_iff he
  refine ⟨?_, ?_, ?_, fun _ _ => exists_firstDifference_iff, ?_, ?_⟩
  · rw [channels_ok_iff]
    cases blocks with
    | nil => simp
    | cons first rest => simp [forall_and]
  · intro i
    rw [hanswer (.inl ⟨i, rfl⟩), channels_eq_emptyChannelSet_iff]
  · intro i channel mismatch
    rw [hanswer (.inr ⟨i, channel, mismatch, rfl⟩), channels_eq_channelSetMismatch_iff]
  · intro e
    constructor
    · intro h
      exact ⟨channels_error h, (hanswer (channels_error h)).mpr h⟩
    · rintro ⟨he, h⟩
      exact (hanswer he).mp h
  · intro e he h
    have hrun : run = ⟨lib, settings.changes.map .settingChanged, .error e⟩ :=
      compile_of_channels_error ((hanswer he).mp h) lib
    rw [hrun]
    exact ⟨rfl, rfl⟩

/-- The second sequence lacks a channel, but the third has none at all. Without the third, the
second is reported. -/
theorem a_mute_sequence_is_reported_before_a_missing_channel :
    let lone : List Item := [.pulse "q2" { samples := .ofReal [.one, .zero] }]
    (compile {} (.many [Trial.tuned, lone, []]) .empty).answer = .error (.emptyChannelSet 2) ∧
      (compile {} (.many [Trial.tuned, lone]) .empty).answer =
        .error (.channelSetMismatch 1 "q1" .missing) := by
  intro lone
  obtain ⟨-, hempty, -⟩ :=
    the_first_fault_of_the_channels_is_reported {} (.many [Trial.tuned, lone, []]) .empty
  obtain ⟨-, -, hmismatch, -⟩ :=
    the_first_fault_of_the_channels_is_reported {} (.many [Trial.tuned, lone]) .empty
  have htuned : ¬ Mute (Trial.tuned.map Item.toBlock) := fun h => h "q1" (by decide)
  have hlone : ¬ Mute (lone.map Item.toBlock) := fun h => h "q2" (by decide)
  refine ⟨(hempty 2).mpr ⟨[], rfl, nofun, ?_⟩, (hmismatch 1 "q1" .missing).mpr ⟨?_, ?_⟩⟩
  · intro j hj r hr
    obtain rfl | rfl : j = 0 ∨ j = 1 := by omega
    · cases hr
      exact htuned
    · cases hr
      exact hlone
  · intro s hs
    rcases List.mem_cons.mp hs with rfl | hs
    · exact htuned
    · rw [List.mem_singleton.mp hs]
      exact hlone
  · refine ⟨_, _, rfl, rfl, ?_, .missing ⟨by decide, ["q2"], [], rfl, by decide⟩⟩
    intro j hj s hs
    obtain rfl : j = 0 := by omega
    cases hs
    exact fun _ => Iff.rfl

end Program

end PulseSequencer
