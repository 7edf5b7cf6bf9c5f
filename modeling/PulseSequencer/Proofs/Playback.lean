-- Playing the link lists of a program from its library. Every entry finds its
-- samples, as many as it reads, and the list plays the turned score in full
-- length.
import PulseSequencer.Proofs.Completion

namespace PulseSequencer

attribute [local irreducible] Waveform.key

/-! ## Playing -/

instance : Append Waveform := ⟨fun v w => ⟨v.samples ++ w.samples⟩⟩

@[simp] theorem Waveform.content_append (v w : Waveform) :
    (v ++ w).content = v.content ++ w.content := List.map_append

/-- What an entry plays: its first sample held for the whole length, or all its samples. -/
def Entry.play? (lib : WaveformLibrary) (channel : Channel) (e : Entry) : Option Waveform :=
  (lib.get? channel e.key).bind fun w =>
    if e.isTimeAmplitude then w.samples.head?.map (Waveform.constant · e.length) else some w

/-- What a link list plays, if every entry finds something to play. -/
def LinkList.play? (lib : WaveformLibrary) (channel : Channel) : LinkList → Option Waveform
  | [] => some .empty
  | e :: rest =>
    (e.play? lib channel).bind fun first => (play? lib channel rest).map (first ++ ·)

theorem LinkList.play?_cons {lib : WaveformLibrary} {channel : Channel} {e : Entry}
    {rest : LinkList} {v w : Waveform} (he : e.play? lib channel = some v)
    (hrest : LinkList.play? lib channel rest = some w) :
    LinkList.play? lib channel (e :: rest) = some (v ++ w) := by
  rw [LinkList.play?, he, Option.bind_some, hrest, Option.map_some]

namespace Frame

theorem mem_turnedScore {detect : Bool} {frame : Binary64} {cues : List Cue} {q : Cue}
    (h : q ∈ turnedScore detect frame cues) : ∃ p ∈ cues, ∃ f, q = p.turned detect f := by
  induction cues generalizing frame with
  | nil => cases h
  | cons p rest ih =>
    rcases List.mem_cons.mp h with rfl | h
    · exact ⟨p, List.mem_cons_self .., frame, rfl⟩
    · obtain ⟨p', hp', hq⟩ := ih h
      exact ⟨p', List.mem_cons_of_mem _ hp', hq⟩

end Frame

namespace Cue

/-! ## The length of an entry -/

/-- The entry reads exactly the samples it has. -/
structure Playable (q : Cue) : Prop where
  length : q.shape.length = if q.entry.isTimeAmplitude then 1 else q.entry.length
  held : q.entry.length = 0 → q.entry.isTimeAmplitude = false
  once : q.entry.repetitions = 1

theorem isBrief_padding (detect : Bool) (n : Nat) : (padding n).isBrief detect = true := rfl

theorem isBrief_ofPulse (detect : Bool) (pulse : Pulse) (shape : Waveform) :
    (ofPulse pulse shape).isBrief detect = (detect && shape.isConstant) := rfl

theorem Plain.playable {q : Cue} (h : q.Plain) (detect : Bool) (frame : Binary64) :
    (q.turned detect frame).Playable := by
  rcases h with ⟨n, hn, rfl⟩ | ⟨pulse, shape, rfl⟩
  · refine ⟨?_, ?_, rfl⟩
    · rw [isTimeAmplitude_turned, shape_turned, Waveform.length_rotate, kept, isBrief_padding]
      rfl
    · intro hzero
      have hlength : n = 0 := hzero
      omega
  · have hlength : (ofPulse pulse shape).entry.length = shape.length := rfl
    have hshape : (ofPulse pulse shape).shape = shape := rfl
    cases hbrief : (ofPulse pulse shape).isBrief detect with
    | true =>
      have hpos : 0 < shape.length := by
        rw [isBrief_ofPulse, Bool.and_eq_true] at hbrief
        exact Waveform.length_pos_of_isConstant hbrief.2
      refine ⟨?_, ?_, rfl⟩
      · rw [isTimeAmplitude_turned, shape_turned, Waveform.length_rotate, kept, hbrief, hshape,
          if_pos rfl, if_pos rfl, Waveform.length_take]
        omega
      · intro hzero
        rw [length_turned] at hzero
        omega
    | false =>
      refine ⟨?_, fun _ => hbrief, rfl⟩
      rw [isTimeAmplitude_turned, shape_turned, Waveform.length_rotate, kept, hbrief, hshape,
        if_neg Bool.false_ne_true, if_neg Bool.false_ne_true, length_turned, hlength]

end Cue

namespace Program

theorem playable_of_mem_played {settings : Settings} {channel : Channel} {blocks : List Block}
    {q : Cue} (h : q ∈ played settings channel blocks) : q.Playable := by
  obtain ⟨p, hp, f, rfl⟩ := Frame.mem_turnedScore h
  exact (Schedule.plain_of_mem_score hp).playable _ _

/-- Every entry of a program finds its waveform, with one sample if it holds it and with as many
as it is long otherwise. An entry without length holds nothing, and none repeats. -/
theorem every_entry_finds_its_samples {settings : Settings} {sequences : Sequences}
    {lib : WaveformLibrary} {p : Program} (h : (compile settings sequences lib).answer = .ok p)
    {channel : Channel} {lists : List LinkList} (hlists : p.linkLists.get? channel = some lists)
    {list : LinkList} (hlist : list ∈ lists) {e : Entry} (he : e ∈ list) :
    (∃ w, p.waveforms.get? channel e.key = some w ∧
        w.length = if e.isTimeAmplitude then 1 else e.length) ∧
      (e.length = 0 → e.isTimeAmplitude = false) ∧ e.repetitions = 1 := by
  have hplays := plays_of_compile h
  have hchannel : channel ∈ p.linkLists.keys := by
    rw [← Table.get?_isSome, hlists]
    rfl
  rw [hplays.lists channel hchannel, Option.some.injEq] at hlists
  subst hlists
  obtain ⟨blocks, hblocks, rfl⟩ := List.mem_map.mp hlist
  obtain ⟨q, hq, rfl⟩ := List.mem_map.mp he
  have haddressed := (hplays.addressed blocks hblocks channel).mpr hchannel
  obtain ⟨w, hw, hcontent⟩ := hplays.stocked blocks hblocks channel haddressed q hq
  have hplayable := playable_of_mem_played hq
  refine ⟨⟨w, hw, ?_⟩, hplayable.held, hplayable.once⟩
  rw [Waveform.length_congr hcontent]
  exact hplayable.length

/-- The idle entry of a channel that lost its frame: one sample, held for two. -/
theorem a_lost_channel_finds_its_samples :
    ∃ p lists list e, (compile {} Trial.sequences .empty).answer = .ok p ∧
      p.linkLists.get? "q1" = some lists ∧ list ∈ lists ∧ e ∈ list ∧
      e.isTimeAmplitude = true ∧ e.length = 2 ∧
      (∃ w, p.waveforms.get? "q1" e.key = some w ∧
        w.length = if e.isTimeAmplitude then 1 else e.length) ∧
      (e.length = 0 → e.isTimeAmplitude = false) ∧ e.repetitions = 1 := by
  obtain ⟨p, hp⟩ := Trial.sequences_compile
  have hlists := (plays_of_compile hp).lists "q1" (Trial.mem_keys hp (by decide))
  have hidle : ∃ e ∈ playedList ({} : Settings).bounded "q1" (Trial.detuned.map Item.toBlock),
      e.isTimeAmplitude = true ∧ e.length = 2 := by
    decide +kernel
  obtain ⟨e, he, hheld, hlength⟩ := hidle
  have hlist := List.mem_map_of_mem (f := playedList ({} : Settings).bounded "q1")
    (List.mem_of_getElem? Trial.first)
  exact ⟨p, _, _, e, hp, hlists, hlist, he, hheld, hlength,
    every_entry_finds_its_samples hp hlists hlist he⟩

end Program

/-! ## The sound of a score -/

/-- A sample that is held after turning sounds like the held sample turned. -/
theorem Waveform.content_hold {w : Waveform} {x : Amplitude} {angle : Binary64} (n : Nat)
    (h : w.content = (rotate ⟨[x]⟩ angle).content) :
    ∃ y, w.samples.head? = some y ∧
      (constant y n).content = ((constant x n).rotate angle).content := by
  have hone : (rotate ⟨[x]⟩ angle).samples =
      [if angle.isZero then x else x * Amplitude.phasor angle] :=
    samples_rotate_replicate 1 x angle
  rw [content, content, hone, List.map_singleton] at h
  obtain ⟨y, hy, hcanonical⟩ := List.map_eq_singleton_iff.mp h
  refine ⟨y, by rw [hy]; rfl, ?_⟩
  rw [content, content, constant, constant, samples_rotate_replicate, List.map_replicate,
    List.map_replicate, hcanonical]

namespace Cue

/-- What a plain cue stands for, in full length. -/
def whole (q : Cue) : Waveform :=
  if q.entry.isTimeAmplitude then .zeros q.entry.length else q.shape

/-- A turned entry sounds like all its samples turned, whether one is held or all are stored. -/
theorem Plain.play {q : Cue} (h : q.Plain) {detect : Bool} {frame : Binary64}
    {lib : WaveformLibrary} {channel : Channel}
    (hheld : lib.Holds channel (q.turned detect frame).entry.key (q.turned detect frame).shape) :
    ∃ w, (q.turned detect frame).entry.play? lib channel = some w ∧
      w.content = (q.whole.rotate (q.entry.phase + frame)).content := by
  obtain ⟨stored, hget, hcontent⟩ := hheld
  have hplay : (q.turned detect frame).entry.play? lib channel =
      if q.isBrief detect then stored.samples.head?.map (Waveform.constant · q.entry.length)
      else some stored := by
    rw [Entry.play?, hget]
    rfl
  rw [hplay]
  rw [shape_turned] at hcontent
  cases hbrief : q.isBrief detect with
  | true =>
    rw [kept, hbrief, if_pos rfl] at hcontent
    rcases h with ⟨n, _, rfl⟩ | ⟨pulse, shape, rfl⟩
    · obtain ⟨y, hy, hheld⟩ := Waveform.content_hold n hcontent
      refine ⟨Waveform.constant y n, ?_, hheld⟩
      rw [if_pos rfl, hy]
      rfl
    · rw [isBrief_ofPulse, Bool.and_eq_true] at hbrief
      obtain ⟨x, rest, hsamples, hconstant⟩ := Waveform.content_of_isConstant hbrief.2
      have htake : shape.take 1 = ⟨[x]⟩ := by
        rw [Waveform.take, hsamples]
        rfl
      have hwhole : shape.content = (Waveform.constant x shape.length).content := by
        rw [hconstant, Waveform.content, Waveform.constant, List.map_replicate]
      obtain ⟨y, hy, hheld⟩ := Waveform.content_hold shape.length (htake ▸ hcontent)
      refine ⟨Waveform.constant y shape.length, ?_, ?_⟩
      · rw [if_pos rfl, hy]
        rfl
      · rw [hheld]
        exact Waveform.content_rotate _ hwhole.symm
  | false =>
    rw [kept, hbrief, if_neg Bool.false_ne_true] at hcontent
    have hflag : q.entry.isTimeAmplitude = false := by
      rw [isBrief, Bool.or_eq_false_iff] at hbrief
      exact hbrief.1
    refine ⟨stored, rfl, ?_⟩
    rw [hcontent, whole, hflag, if_neg Bool.false_ne_true]

end Cue

namespace Frame

/-- What a score sounds like from one frame on. -/
def soundFrom : Binary64 → List Cue → Waveform
  | _, [] => .empty
  | frame, q :: rest =>
    q.whole.rotate (q.entry.phase + frame) ++ soundFrom (frame + q.entry.frameChange) rest

/-- The frame after some cues. -/
def frameAfter (frame : Binary64) (cues : List Cue) : Binary64 :=
  cues.foldl (fun f q => f + q.entry.frameChange) frame

theorem content_soundFrom_append (frame : Binary64) (cues rest : List Cue) :
    (soundFrom frame (cues ++ rest)).content =
      (soundFrom frame cues).content ++ (soundFrom (frameAfter frame cues) rest).content := by
  induction cues generalizing frame with
  | nil => rfl
  | cons q cues ih =>
    rw [List.cons_append, soundFrom, soundFrom, Waveform.content_append, Waveform.content_append,
      ih, List.append_assoc]
    rfl

/-- Frames of one canonical form sound alike. -/
theorem soundFrom_congr {f g : Binary64} (h : f.canonical = g.canonical) (cues : List Cue) :
    soundFrom f cues = soundFrom g cues := by
  induction cues generalizing f g with
  | nil => rfl
  | cons q rest ih =>
    rw [soundFrom, soundFrom, ih (Binary64.canonical_add h rfl),
      Waveform.rotate_congr _ (Binary64.canonical_add rfl h)]

theorem play_turnedScore {detect : Bool} {frame : Binary64} {cues : List Cue}
    {lib : WaveformLibrary} {channel : Channel} (hplain : ∀ q ∈ cues, q.Plain)
    (hheld : ∀ q ∈ turnedScore detect frame cues, lib.Holds channel q.entry.key q.shape) :
    ∃ w, LinkList.play? lib channel ((turnedScore detect frame cues).map Cue.entry) = some w ∧
      w.content = (soundFrom frame cues).content := by
  induction cues generalizing frame with
  | nil => exact ⟨.empty, rfl, rfl⟩
  | cons q rest ih =>
    obtain ⟨v, hv, hfirst⟩ :=
      (hplain q (List.mem_cons_self ..)).play (hheld _ (List.mem_cons_self ..))
    obtain ⟨w, hw, hrest⟩ := ih (fun p hp => hplain p (List.mem_cons_of_mem _ hp))
      (fun p hp => hheld p (List.mem_cons_of_mem _ hp))
    refine ⟨v ++ w, LinkList.play?_cons hv hw, ?_⟩
    rw [soundFrom, Waveform.content_append, Waveform.content_append, hfirst, hrest]

end Frame

namespace Program

/-- The link list of a channel for the sequence of that number. -/
def list? (p : Program) (channel : Channel) (index : Nat) : Option LinkList :=
  (p.linkLists.get? channel).bind (·[index]?)

theorem Plays.list? {settings : Settings} {sequences : List (List Block)} {p : Program}
    (h : Plays settings sequences p) {channel : Channel} (hc : channel ∈ p.linkLists.keys)
    {index : Nat} {blocks : List Block} (hi : sequences[index]? = some blocks) :
    p.list? channel index = some (playedList settings channel blocks) := by
  rw [Program.list?, h.lists channel hc, Option.bind_some, List.getElem?_map, hi]
  rfl

/-- Each list of a program plays the score of its sequence. -/
theorem Plays.play {settings : Settings} {sequences : List (List Block)} {p : Program}
    (h : Plays settings sequences p) {channel : Channel} (hc : channel ∈ p.linkLists.keys)
    {blocks : List Block} (hblocks : blocks ∈ sequences) :
    ∃ w, LinkList.play? p.waveforms channel (playedList settings channel blocks) = some w ∧
      w.content = (Frame.soundFrom .zero
        (Schedule.score settings.paddingCutoff channel blocks)).content := by
  apply Frame.play_turnedScore
  · intro q hq
    exact Schedule.plain_of_mem_score hq
  · exact h.stocked blocks hblocks channel ((h.addressed blocks hblocks channel).mpr hc)

end Program

end PulseSequencer
