-- The signal that a sequence asks for, and what its link lists play. The two
-- agree sample by sample, except where zeros are turned by an angle that is no
-- finite number: no output is turned as any output is, and comes out as NaN.
import PulseSequencer.Proofs.Playback

namespace PulseSequencer

attribute [local irreducible] Waveform.key

/-! ## The signal -/

namespace Alignment

/-- The zeros before and behind a pulse that leaves `gap` samples of its block. An odd one goes
behind a centred pulse. -/
def margins (gap : Nat) : Alignment → Nat × Nat
  | left => (0, gap)
  | right => (gap, 0)
  | center => (gap / 2, (gap + 1) / 2)

theorem split_eq_margins (gap : Nat) (a : Alignment) : a.split gap = a.margins gap := by
  cases a with
  | left => rfl
  | right => rfl
  | center =>
    have hhalf : gap - gap / 2 = (gap + 1) / 2 := by omega
    simp only [split, margins, hhalf]

end Alignment

/-- The margins of a pulse in a block. -/
def Block.margins (b : Block) (p : Pulse) : Nat × Nat := b.alignment.margins (b.duration - p.length)

/-- The signal of a channel from one frame on: each pulse turned by its phase and the frame,
and zeros everywhere else. -/
def signalFrom (channel : Channel) : Binary64 → List Block → Waveform
  | _, [] => .empty
  | frame, b :: rest =>
    if b.duration = 0 then signalFrom channel frame rest
    else
      match b.pulses.get? channel with
      | none => .zeros b.duration ++ signalFrom channel frame rest
      | some p =>
        (p.samples.rotate (p.phase + frame)).pad (b.margins p).1 (b.margins p).2 ++
          signalFrom channel (frame + p.frameChange) rest

/-! ## The output -/

/-- A piece of the output: zeros turned by some angle, or the samples of a pulse. -/
inductive Piece where
  | rest (angle : Binary64) (length : Nat)
  | sound (samples : Waveform)

namespace Piece

def output : Piece → Waveform
  | rest angle length => .constant (Amplitude.silence angle) length
  | sound samples => samples

/-- The piece with zeros where zeros are meant. -/
def ideal : Piece → Waveform
  | rest _ length => .zeros length
  | sound samples => samples

/-- Zeros stay zeros. -/
def Steady : Piece → Prop
  | rest angle length => length = 0 ∨ angle.isFinite = true
  | sound _ => True

instance : DecidablePred Steady
  | rest angle length => inferInstanceAs (Decidable (length = 0 ∨ angle.isFinite = true))
  | sound _ => inferInstanceAs (Decidable True)

theorem length_output (x : Piece) : x.output.content.length = x.ideal.content.length := by
  cases x with
  | rest angle length => simp [output, ideal, Waveform.constant, Waveform.zeros, Waveform.length]
  | sound samples => rfl

theorem canonical_silence_eq_zero_iff (angle : Binary64) :
    (Amplitude.silence angle).canonical = Amplitude.zero.canonical ↔ angle.isFinite = true := by
  unfold Amplitude.silence
  cases angle.isFinite with
  | true => simp
  | false =>
    simp only [Bool.false_eq_true, if_false, iff_false]
    decide

theorem output_eq_ideal_iff (x : Piece) : x.output.content = x.ideal.content ↔ x.Steady := by
  cases x with
  | rest angle length =>
    simp only [output, ideal, Steady, Waveform.content, Waveform.zeros, Waveform.constant,
      List.map_replicate, List.replicate_inj, canonical_silence_eq_zero_iff, true_and]
  | sound samples => simp [output, ideal, Steady]

/-- Pieces sound as they are meant if each of them does. -/
theorem outputs_eq_ideals_iff (pieces : List Piece) :
    pieces.flatMap (·.output.content) = pieces.flatMap (·.ideal.content) ↔
      ∀ x ∈ pieces, x.Steady := by
  induction pieces with
  | nil => simp
  | cons x rest ih =>
    rw [List.flatMap_cons, List.flatMap_cons, List.forall_mem_cons, ← ih, ← output_eq_ideal_iff]
    constructor
    · intro h
      exact List.append_inj h x.length_output
    · rintro ⟨hx, hrest⟩
      rw [hx, hrest]

end Piece

namespace Block

/-- The pieces of a block. Padding that is merged is turned with the pulse. Padding of its own is
turned like an idle channel, by the frame before the pulse or the one behind it. -/
def pieces (cutoff : Nat) (channel : Channel) (frame : Binary64) (b : Block) : List Piece :=
  match b.pulses.get? channel with
  | none => [.rest frame b.duration]
  | some p =>
    let sound := Piece.sound (p.samples.rotate (p.phase + frame))
    if p.IsMerged b.duration b.alignment cutoff then
      [.rest (p.phase + frame) (b.margins p).1, sound, .rest (p.phase + frame) (b.margins p).2]
    else [.rest frame (b.margins p).1, sound, .rest (frame + p.frameChange) (b.margins p).2]

/-- The frame behind a block. -/
def frameAfter (channel : Channel) (frame : Binary64) (b : Block) : Binary64 :=
  match b.pulses.get? channel with
  | none => frame
  | some p => frame + p.frameChange

end Block

/-- The pieces of a sequence from one frame on. A block without duration has none and changes no
frame. -/
def piecesFrom (cutoff : Nat) (channel : Channel) : Binary64 → List Block → List Piece
  | _, [] => []
  | frame, b :: rest =>
    if b.duration = 0 then piecesFrom cutoff channel frame rest
    else b.pieces cutoff channel frame ++
      piecesFrom cutoff channel (b.frameAfter channel frame) rest

/-- The angles that come up in a block: the frame before it, the angle of the pulse and the frame
behind it. -/
def Block.angles (channel : Channel) (frame : Binary64) (b : Block) : List Binary64 :=
  match b.pulses.get? channel with
  | none => [frame]
  | some p => [frame, p.phase + frame, frame + p.frameChange]

/-- The angles that come up in a sequence from one frame on, in the blocks that take time. -/
def anglesFrom (channel : Channel) : Binary64 → List Block → List Binary64
  | _, [] => []
  | frame, b :: rest =>
    if b.duration = 0 then anglesFrom channel frame rest
    else b.angles channel frame ++ anglesFrom channel (b.frameAfter channel frame) rest

theorem Block.steady_pieces (cutoff : Nat) {channel : Channel} {frame : Binary64} {b : Block}
    (h : ∀ angle ∈ b.angles channel frame, angle.isFinite = true) :
    ∀ x ∈ b.pieces cutoff channel frame, x.Steady := by
  unfold angles at h
  unfold pieces
  cases hp : b.pulses.get? channel with
  | none =>
    rw [hp] at h
    simpa [Piece.Steady] using Or.inr h
  | some p =>
    rw [hp] at h
    obtain ⟨hframe, hpulse, hbehind⟩ : frame.isFinite = true ∧
        (p.phase + frame).isFinite = true ∧ (frame + p.frameChange).isFinite = true := by
      simpa using h
    dsimp only
    split <;> simp [Piece.Steady, hframe, hpulse, hbehind]

/-- Where all angles are finite, zeros stay zeros. -/
theorem steady_piecesFrom (cutoff : Nat) {channel : Channel} {frame : Binary64}
    {blocks : List Block} (h : ∀ angle ∈ anglesFrom channel frame blocks, angle.isFinite = true) :
    ∀ x ∈ piecesFrom cutoff channel frame blocks, x.Steady := by
  induction blocks generalizing frame with
  | nil => exact List.forall_mem_nil _
  | cons b rest ih =>
    unfold anglesFrom at h
    unfold piecesFrom
    split
    · rename_i hb
      rw [if_pos hb] at h
      exact ih h
    · rename_i hb
      rw [if_neg hb, List.forall_mem_append] at h
      rw [List.forall_mem_append]
      exact ⟨b.steady_pieces cutoff h.1, ih h.2⟩

/-- With zeros for zeros, the pieces are the signal, whatever the cutoff. -/
theorem content_signalFrom (cutoff : Nat) (channel : Channel) (frame : Binary64)
    (blocks : List Block) :
    (signalFrom channel frame blocks).content =
      (piecesFrom cutoff channel frame blocks).flatMap (·.ideal.content) := by
  induction blocks generalizing frame with
  | nil => rfl
  | cons b rest ih =>
    unfold signalFrom piecesFrom
    split
    · exact ih frame
    · rw [List.flatMap_append, ← ih, Block.pieces, Block.frameAfter]
      cases hp : b.pulses.get? channel with
      | none => simp [Piece.ideal]
      | some p =>
        dsimp only
        split <;> simp [Piece.ideal, Waveform.content_pad]

/-! ## The score sounds like the pieces -/

namespace Frame

theorem content_soundFrom_singleton (frame : Binary64) (q : Cue) :
    (soundFrom frame [q]).content = (q.whole.rotate (q.entry.phase + frame)).content := by
  rw [soundFrom, soundFrom, Waveform.content_append]
  exact List.append_nil _

theorem content_soundFrom_padding (frame : Binary64) (n : Nat) :
    (soundFrom frame [Cue.padding n]).content = (Piece.rest frame n).output.content := by
  rw [content_soundFrom_singleton]
  have hwhole : (Cue.padding n).whole = .zeros n := rfl
  have hangle : (Cue.padding n).entry.phase + frame = .zero + frame := rfl
  rw [hwhole, hangle, Waveform.content_rotate_zeros, Piece.output, Waveform.content,
    Waveform.constant, List.map_replicate,
    Amplitude.silence_congr (Binary64.canonical_zero_add frame)]

theorem content_soundFrom_paddingCues (frame : Binary64) (n : Nat) :
    (soundFrom frame (paddingCues n)).content = (Piece.rest frame n).output.content := by
  unfold paddingCues
  split
  · rename_i hn
    subst hn
    rfl
  · exact content_soundFrom_padding frame n

/-- Padding adds a zero to the frame, which changes at most the sign of a zero. -/
theorem canonical_frameAfter_paddingCues (frame : Binary64) (n : Nat) :
    (frameAfter frame (paddingCues n)).canonical = frame.canonical := by
  unfold paddingCues
  split
  · rfl
  · exact Binary64.canonical_add_zero frame

theorem content_soundFrom_ofPulse (frame : Binary64) (p : Pulse) (shape : Waveform) :
    (soundFrom frame [Cue.ofPulse p shape]).content =
      (shape.rotate (p.phase + frame)).content :=
  content_soundFrom_singleton frame _

/-- One block: the sound is that of its pieces, and the frame behind it is the same. -/
theorem sound_cues (cutoff : Nat) (channel : Channel) (frame : Binary64) (b : Block) :
    (soundFrom frame (b.cues cutoff channel)).content =
        (b.pieces cutoff channel frame).flatMap (·.output.content) ∧
      (frameAfter frame (b.cues cutoff channel)).canonical =
        (b.frameAfter channel frame).canonical := by
  unfold Block.cues Block.pieces Block.frameAfter
  cases hp : b.pulses.get? channel with
  | none =>
    refine ⟨?_, Binary64.canonical_add_zero frame⟩
    dsimp only
    rw [content_soundFrom_padding, List.flatMap_singleton]
  | some p =>
    dsimp only
    unfold Pulse.cues
    rw [Alignment.split_eq_margins, ← Block.margins]
    dsimp only
    split
    · refine ⟨?_, rfl⟩
      rw [content_soundFrom_ofPulse, Waveform.content_rotate_pad]
      simp [Piece.output, Waveform.content, Waveform.constant]
    · have hbefore := canonical_frameAfter_paddingCues frame (b.margins p).1
      refine ⟨?_, ?_⟩
      · rw [content_soundFrom_append, content_soundFrom_paddingCues, soundFrom_congr hbefore,
          ← List.singleton_append, content_soundFrom_append, content_soundFrom_ofPulse,
          content_soundFrom_paddingCues]
        simp [Piece.output, frameAfter, Cue.ofPulse, Entry.ofPulse]
      · rw [← List.singleton_append, frameAfter, List.foldl_append, List.foldl_append]
        refine (canonical_frameAfter_paddingCues _ _).trans ?_
        exact Binary64.canonical_add hbefore rfl

/-- A whole sequence, by induction over its blocks. The frames of the two sides agree up to the
sign of a zero, which no turn sees. -/
theorem content_soundFrom_score (cutoff : Nat) (channel : Channel) {f g : Binary64}
    (h : f.canonical = g.canonical) (blocks : List Block) :
    (soundFrom f (Schedule.score cutoff channel blocks)).content =
      (piecesFrom cutoff channel g blocks).flatMap (·.output.content) := by
  rw [soundFrom_congr h]
  clear h f
  induction blocks generalizing g with
  | nil => rfl
  | cons b rest ih =>
    unfold piecesFrom
    split
    · rename_i hb
      rw [Schedule.score_cons_of_zero cutoff channel rest hb]
      exact ih
    · rename_i hb
      obtain ⟨hsound, hframe⟩ := sound_cues cutoff channel g b
      rw [Schedule.score_cons_of_ne cutoff channel rest hb, content_soundFrom_append,
        List.flatMap_append, hsound, soundFrom_congr hframe, ih]

end Frame

namespace Program

theorem Plays.output {settings : Settings} {sequences : List (List Block)} {p : Program}
    (h : Plays settings sequences p) {channel : Channel} (hc : channel ∈ p.linkLists.keys)
    {index : Nat} {blocks : List Block} (hi : sequences[index]? = some blocks) :
    ∃ list w, p.list? channel index = some list ∧
      LinkList.play? p.waveforms channel list = some w ∧
      w.content = (piecesFrom settings.paddingCutoff channel .zero blocks).flatMap
        (·.output.content) := by
  obtain ⟨w, hw, hcontent⟩ := h.play hc (List.mem_of_getElem? hi)
  refine ⟨_, w, h.list? hc hi, hw, ?_⟩
  rw [hcontent]
  exact Frame.content_soundFrom_score _ channel rfl blocks

/-- Each link list of a program plays, from the program's library, the pieces of its sequence.
That is the signal of the sequence exactly if zeros are turned by finite angles only, so it is
where no frame and no angle of a pulse is infinite or NaN. -/
theorem a_program_plays_its_signal {settings : Settings} {sequences : Sequences}
    {lib : WaveformLibrary} {p : Program} (h : (compile settings sequences lib).answer = .ok p)
    {channel : Channel} (hc : channel ∈ p.linkLists.keys) {index : Nat} {blocks : List Block}
    (hi : sequences.blocks[index]? = some blocks) :
    ∃ list w, p.list? channel index = some list ∧
      LinkList.play? p.waveforms channel list = some w ∧
      w.content = (piecesFrom settings.bounded.paddingCutoff channel .zero blocks).flatMap
        (·.output.content) ∧
      (w.content = (signalFrom channel .zero blocks).content ↔
        ∀ x ∈ piecesFrom settings.bounded.paddingCutoff channel .zero blocks, x.Steady) ∧
      ((∀ angle ∈ anglesFrom channel .zero blocks, angle.isFinite = true) →
        w.content = (signalFrom channel .zero blocks).content) := by
  obtain ⟨list, w, hlist, hw, hcontent⟩ := (plays_of_compile h).output hc hi
  have hsignal : w.content = (signalFrom channel .zero blocks).content ↔
      ∀ x ∈ piecesFrom settings.bounded.paddingCutoff channel .zero blocks, x.Steady := by
    rw [hcontent, content_signalFrom settings.bounded.paddingCutoff]
    exact Piece.outputs_eq_ideals_iff _
  refine ⟨list, w, hlist, hw, hcontent, hsignal, ?_⟩
  intro hfinite
  exact hsignal.mpr (steady_piecesFrom _ hfinite)

/-- A channel that keeps its frame plays its signal, beside one that does not. -/
theorem a_kept_frame_plays_its_signal :
    ∃ p list w, (compile {} Trial.sequences .empty).answer = .ok p ∧ "q2" ∈ p.linkLists.keys ∧
      p.list? "q2" 0 = some list ∧ LinkList.play? p.waveforms "q2" list = some w ∧
      (∀ angle ∈ anglesFrom "q2" .zero (Trial.detuned.map Item.toBlock), angle.isFinite = true) ∧
      w.content = (signalFrom "q2" .zero (Trial.detuned.map Item.toBlock)).content := by
  obtain ⟨p, hp⟩ := Trial.sequences_compile
  have hc : "q2" ∈ p.linkLists.keys := Trial.mem_keys hp (by decide)
  obtain ⟨list, w, hlist, hw, -, -, hsignal⟩ := a_program_plays_its_signal hp hc Trial.first
  have hfinite : ∀ angle ∈ anglesFrom "q2" .zero (Trial.detuned.map Item.toBlock),
      angle.isFinite = true := by
    decide +kernel
  exact ⟨p, list, w, hp, hc, hlist, hw, hfinite, hsignal hfinite⟩

/-- A channel that lost its frame does not idle at zero. -/
theorem a_lost_frame_does_not_play_its_signal :
    ∃ p list w, (compile {} Trial.sequences .empty).answer = .ok p ∧ "q1" ∈ p.linkLists.keys ∧
      p.list? "q1" 0 = some list ∧ LinkList.play? p.waveforms "q1" list = some w ∧
      w.content ≠ (signalFrom "q1" .zero (Trial.detuned.map Item.toBlock)).content := by
  obtain ⟨p, hp⟩ := Trial.sequences_compile
  have hc : "q1" ∈ p.linkLists.keys := Trial.mem_keys hp (by decide)
  obtain ⟨list, w, hlist, hw, hcontent⟩ := (plays_of_compile hp).output hc Trial.first
  refine ⟨p, list, w, hp, hc, hlist, hw, ?_⟩
  rw [hcontent, content_signalFrom ({} : Settings).bounded.paddingCutoff, Ne,
    Piece.outputs_eq_ideals_iff]
  decide +kernel

end Program

end PulseSequencer
