-- What a compilation can fail over: channels that do not agree, which is found
-- out before anything is compiled, and two contents under one key. With keys that
-- tell the contents apart, only the channels are left.
import PulseSequencer.Proofs.Completion

namespace PulseSequencer

namespace CompileError

/-- Two contents under one key. -/
def IsCollision (e : CompileError) : Prop := ∃ channel key, e = .keyCollision channel key

/-- A sequence without channels, or with other channels than the first. -/
def IsChannelFault (e : CompileError) : Prop :=
  (∃ sequence, e = .emptyChannelSet sequence) ∨
    ∃ sequence channel mismatch, e = .channelSetMismatch sequence channel mismatch

end CompileError

/-- Whatever is stored in whatever library, only a collision can come of it. -/
theorem WaveformLibrary.regime_collision :
    Regime (fun _ => True) (fun _ => True) CompileError.IsCollision where
  empty := trivial
  register _ _ _ := trivial
  insert lib channel w _ _ := by
    refine ⟨trivial, ?_⟩
    intro e he
    rcases lib.insert_answer channel w with h | h
    · rw [h] at he
      cases he
    · rw [h] at he
      cases he
      exact ⟨channel, w.key, rfl⟩

namespace Program

/-! ## The channels -/

theorem findMismatch_eq_some {first : List Channel} {index : Nat} {rest : List (List Channel)}
    {e : CompileError} (h : findMismatch first index rest = some e) : e.IsChannelFault := by
  induction rest generalizing index with
  | nil => cases h
  | cons later rest ih =>
    unfold findMismatch at h
    split at h
    · rename_i channel mismatch _
      cases h
      exact Or.inr ⟨index, channel, mismatch, rfl⟩
    · exact ih h

theorem channels_error {sequences : List (List Block)} {e : CompileError}
    (h : channels sequences = .error e) : e.IsChannelFault := by
  unfold channels at h
  dsimp only at h
  split at h
  · rename_i index _
    cases h
    exact Or.inl ⟨index, rfl⟩
  · split at h
    · cases h
    · split at h
      · rename_i err herr
        cases h
        exact findMismatch_eq_some herr
      · cases h

/-! ## The waveforms that come up -/

/-- The waveforms that meet in the libraries of a compilation: the zero sample, what is stored
already, and the samples of every cue, before they are turned and after. -/
def Arises (settings : Settings) (sequences : List (List Block)) (lib : WaveformLibrary)
    (w : Waveform) : Prop :=
  w = .zeros 1 ∨ (∃ channel key, lib.get? channel key = some w) ∨
    ∃ blocks ∈ sequences, ∃ channel ∈ Schedule.channels blocks, ∃ q : Cue, q.shape = w ∧
      (q ∈ Schedule.score settings.paddingCutoff channel blocks ∨ q ∈ played settings channel blocks)

/-- The digest takes different values on different encodings, among the waveforms that come up.
With a digest of fixed size it cannot do so for all waveforms there are. -/
def DigestsDiffer (settings : Settings) (sequences : List (List Block)) (lib : WaveformLibrary) :
    Prop :=
  ∀ v w, Arises settings sequences lib v → Arises settings sequences lib w →
    v.encoding ≠ w.encoding → Digest.ofBytes v.encoding ≠ Digest.ofBytes w.encoding

theorem DigestsDiffer.keysTellApart {settings : Settings} {sequences : List (List Block)}
    {lib : WaveformLibrary} (h : DigestsDiffer settings sequences lib) :
    KeysTellApart fun x => ∃ w, Arises settings sequences lib w ∧ w.content = x := by
  rintro v w ⟨a, ha, hva⟩ ⟨b, hb, hwb⟩ hkey
  rw [← Waveform.key_congr hva, ← Waveform.key_congr hwb] at hkey
  have hsame : a.encoding = b.encoding := by
    by_contra hne
    exact h a b ha hb hne hkey
  rw [← hva, ← hwb]
  exact Waveform.encoding_injective hsame

/-- Contents that keys tell apart have different digests. -/
theorem digestsDiffer_of_within {S : List (UInt64 × UInt64) → Prop} (hS : KeysTellApart S)
    (hzero : S (Waveform.zeros 1).content) {settings : Settings} {sequences : List (List Block)}
    {lib : WaveformLibrary} (hcontents : ∀ blocks ∈ sequences, ContentsIn S settings blocks)
    (hlib : lib.Within S) : DigestsDiffer settings sequences lib := by
  have harises : ∀ w, Arises settings sequences lib w → S w.content := by
    rintro w (rfl | ⟨channel, key, hw⟩ | ⟨blocks, hblocks, c, hc, q, rfl, hq | hq⟩)
    · exact hzero
    · exact (hlib channel key w hw).2
    · exact (hcontents blocks hblocks c hc).1 q hq
    · exact (hcontents blocks hblocks c hc).2 q hq
  intro v w hv hw hne hkey
  have hcontent := hS v w (harises v hv) (harises w hw) hkey
  rw [Waveform.encoding_eq, Waveform.encoding_eq, hcontent] at hne
  exact hne rfl

theorem arises_contentsIn (settings : Settings) {sequences : List (List Block)}
    (lib : WaveformLibrary) {blocks : List Block} (hblocks : blocks ∈ sequences) :
    ContentsIn (fun x => ∃ w, Arises settings sequences lib w ∧ w.content = x) settings blocks := by
  intro c hc
  refine ⟨?_, ?_⟩
  · intro q hq
    exact ⟨q.shape, Or.inr (Or.inr ⟨blocks, hblocks, c, hc, q, rfl, Or.inl hq⟩), rfl⟩
  · intro q hq
    exact ⟨q.shape, Or.inr (Or.inr ⟨blocks, hblocks, c, hc, q, rfl, Or.inr hq⟩), rfl⟩

/-! ## The law -/

/-- A program fails to compile over its channels or over a collision, and a sequence by itself over
a collision alone. A channel is there when something is stored on it, and every list of a sequence
belongs to a channel of the program. Where the digest tells the waveforms that come up apart, and
the library has each of its own under its digest, channels that agree are all it takes. -/
theorem a_compilation_fails_over_channels_or_a_collision (settings : Settings)
    (sequences : Sequences) (lib : WaveformLibrary) :
    (∀ e, (compile settings sequences lib).answer = .error e →
        e.IsChannelFault ∨ e.IsCollision) ∧
      (∀ (settings : Settings) (blocks : List Block) (lib : WaveformLibrary) (e : CompileError),
        (compileOne settings blocks lib).answer = .error e → e.IsCollision) ∧
      (∀ (lib : WaveformLibrary) (channel : Channel),
        ((lib.register channel).channels.get? channel).isSome = true) ∧
      (∀ cs, channels sequences.blocks = .ok cs → ∀ blocks ∈ sequences.blocks,
        ∀ (lib : WaveformLibrary) (lists : ChannelLists),
          (compileOne settings.bounded blocks lib).answer = .ok lists → ∀ cl ∈ lists, cl.1 ∈ cs) ∧
      (DigestsDiffer settings.bounded sequences.blocks lib →
        (∀ channel key w, lib.get? channel key = some w → Digest.ofBytes w.encoding = key) →
        ((∃ p, (compile settings sequences lib).answer = .ok p) ↔
          ∃ cs, channels sequences.blocks = .ok cs)) := by
  refine ⟨?_, ?_, ?_, ?_, ?_⟩
  · intro e he
    rcases compile_error he with h | ⟨_, _, h⟩
    · exact Or.inl (channels_error h)
    · have hkeeps := keeps_compileFrom WaveformLibrary.regime_collision 0
        fun blocks (_ : blocks ∈ sequences.blocks) => contentsIn_true settings.bounded blocks
      exact Or.inr ((hkeeps lib trivial).2 e h)
  · intro settings blocks lib e he
    have hkeeps := keeps_compileOne WaveformLibrary.regime_collision
      (contentsIn_true settings blocks)
    exact (hkeeps lib trivial).2 e he
  · intro lib channel
    rw [Table.get?_isSome]
    exact lib.mem_keys_register channel
  · intro cs hcs blocks hblocks lib lists hlists cl hcl
    obtain ⟨rfl, -⟩ := compileOne_yields (Compilation.yields_of_ok hlists)
    obtain ⟨c, hc, rfl⟩ := List.mem_map.mp hcl
    exact ((channels_ok hcs).2 blocks hblocks c).mp hc
  · intro hdigest hown
    refine ⟨?_, ?_⟩
    · rintro ⟨p, hp⟩
      obtain ⟨cs, _, hcs, _⟩ := compile_ok hp
      exact ⟨cs, hcs⟩
    · rintro ⟨cs, hcs⟩
      refine compile_completes hdigest.keysTellApart ⟨.zeros 1, Or.inl rfl, rfl⟩ hcs
        (fun blocks hblocks => arises_contentsIn settings.bounded lib hblocks) ?_
      intro channel key w hw
      exact ⟨hown channel key w hw, w, Or.inr (Or.inl ⟨channel, key, hw⟩), rfl⟩

/-- Two sequences compile into a library that has something on another channel. With a third
sequence that is empty they do not. -/
theorem two_sequences_compile_into_a_seeded_library :
    let lib := (WaveformLibrary.empty.insert "q3" (.ofReal [.one, .zero])).1
    (∃ p, (compile {} Trial.sequences lib).answer = .ok p) ∧
      ∃ e, (compile {} (.many [Trial.detuned, Trial.tuned, []]) lib).answer = .error e ∧
        (e.IsChannelFault ∨ e.IsCollision) := by
  intro lib
  have hwithin := Trial.seeded_within "q3"
  refine ⟨?_, ?_⟩
  · refine ((a_compilation_fails_over_channels_or_a_collision {} Trial.sequences lib).2.2.2.2
      ?_ ?_).mpr ⟨_, Trial.channels_ok⟩
    · exact digestsDiffer_of_within (keysTellApart_of_nodup Trial.keys_nodup)
        ⟨.zeros 1, by simp [Trial.shapes], rfl⟩ Trial.contentsIn hwithin
    · intro channel key w hw
      exact (hwithin channel key w hw).1
  · have hfails : (compile {} (.many [Trial.detuned, Trial.tuned, []]) lib).answer =
        .error (.emptyChannelSet 2) := rfl
    exact ⟨_, hfails, (a_compilation_fails_over_channels_or_a_collision _ _ _).1 _ hfails⟩

end Program

end PulseSequencer
