-- Ways to write one sequence. The alignment of a pulse, a block around a lone
-- pulse and a list around a single sequence are left to the writer: what is
-- compiled is the same.
import PulseSequencer.Proofs.Likeness

namespace PulseSequencer

attribute [local irreducible] Waveform.key

/-! ## The same steps under other labels -/

/-- What an event says, without the label of the block that it is about. -/
def Event.unlabelled : Event → Event
  | blockDropped index _ frameChanges => blockDropped index none frameChanges
  | e => e

/-- The same library and the same answer. The reports differ in the labels of blocks at most. -/
structure Outcome.Same {α : Type} (o o' : Outcome α) : Prop where
  library : o.library = o'.library
  answer : o.answer = o'.answer
  events : o.events.map Event.unlabelled = o'.events.map Event.unlabelled

theorem Outcome.same_refl {α : Type} (o : Outcome α) : o.Same o := ⟨rfl, rfl, rfl⟩

namespace Compilation

variable {α β : Type}

/-- From every library the two steps come to the same. -/
def Same (step step' : Compilation α) : Prop := ∀ lib, (step lib).Same (step' lib)

theorem same_refl (step : Compilation α) : Same step step := fun lib => (step lib).same_refl

theorem same_report {events events' : List Event}
    (h : events.map Event.unlabelled = events'.map Event.unlabelled) :
    Same (report events) (report events') :=
  fun _ => ⟨rfl, rfl, h⟩

theorem same_apart {step step' : Compilation α} (h : Same step step') :
    Same (apart step) (apart step') := by
  intro lib
  obtain ⟨hlibrary, hanswer, hevents⟩ := h .empty
  refine ⟨rfl, ?_, hevents⟩
  unfold apart
  dsimp only
  rw [hlibrary, hanswer]

theorem same_bind {step step' : Compilation α} {next next' : α → Compilation β}
    (h : Same step step') (hnext : ∀ a, Same (next a) (next' a)) :
    Same (step >>= next) (step' >>= next') := by
  intro lib
  obtain ⟨hlibrary, hanswer, hevents⟩ := h lib
  rw [bind_apply, bind_apply, hanswer]
  cases (step' lib).answer with
  | error e => exact ⟨hlibrary, rfl, hevents⟩
  | ok a =>
    rw [hlibrary]
    obtain ⟨hafter, hresult, hlater⟩ := hnext a (step' lib).library
    refine ⟨hafter, hresult, ?_⟩
    dsimp only
    rw [List.map_append, List.map_append, hevents, hlater]

end Compilation

open Compilation

/-! ## Pulses and blocks -/

/-- At most the alignments of the two pulses differ. -/
structure Pulse.Realigned (p p' : Pulse) : Prop where
  samples : p.samples = p'.samples
  phase : p.phase = p'.phase
  frameChange : p.frameChange = p'.frameChange

namespace Pulse.Realigned

variable {p p' : Pulse}

theorem length (h : p.Realigned p') : p.length = p'.length := by
  rw [Pulse.length, Pulse.length, h.samples]

/-- A pulse is placed by the alignment of its block. -/
theorem place (h : p.Realigned p') (blockLength : Nat) (alignment : Alignment) (cutoff : Nat) :
    p.place blockLength alignment cutoff = p'.place blockLength alignment cutoff := by
  have hentry := Entry.ofPulse_congr h.phase h.frameChange
  unfold Pulse.place Placement.merged Placement.separate
  dsimp only
  rw [h.length, h.samples, hentry, hentry]

end Pulse.Realigned

/-- Where there is no room beside the pulse, there is nothing to align. -/
theorem Pulse.place_of_length_eq {p : Pulse} {blockLength : Nat} (h : p.length = blockLength)
    (alignment : Alignment) (cutoff : Nat) :
    p.place blockLength alignment cutoff = .ok (.merged p 0 0) := by
  subst h
  unfold Pulse.place
  rw [if_neg (Nat.lt_irrefl _), Nat.sub_self]
  cases alignment with
  | left => rfl
  | right => rfl
  | center => rfl

/-- Two blocks that sound alike: up to alignment they have the same pulses, and they align them
alike unless every pulse fills its block. -/
structure Block.SoundsAs (b b' : Block) : Prop where
  pulses : b.pulses.Alike Pulse.Realigned b'.pulses
  alignment : b.alignment = b'.alignment ∨ ∀ p ∈ b.pulses.values, p.length = b.duration

namespace Block.SoundsAs

variable {b b' : Block}

theorem duration (h : b.SoundsAs b') : b.duration = b'.duration :=
  Block.duration_congr (fun _ _ hp => Pulse.Realigned.length hp) h.pulses

theorem keys (h : b.SoundsAs b') : b.pulses.keys = b'.pulses.keys := h.pulses.keys

/-- Both blocks place a pulse at the same spot. -/
theorem place (h : b.SoundsAs b') {p p' : Pulse} (hmem : p ∈ b.pulses.values)
    (hp : p.Realigned p') (cutoff : Nat) :
    p.place b.duration b.alignment cutoff = p'.place b'.duration b'.alignment cutoff := by
  rw [← hp.place, ← h.duration]
  -- Block alignments differ only where the pulse leaves no room to be aligned in.
  rcases h.alignment with halign | hfills
  · rw [halign]
  · rw [Pulse.place_of_length_eq (hfills p hmem), Pulse.place_of_length_eq (hfills p hmem)]

end Block.SoundsAs

theorem Block.duration_of_lone {b : Block} {channel : Channel} {p : Pulse}
    (h : b.pulses.entries = [(channel, p)]) : b.duration = p.length := by
  rw [Block.duration, Table.values, h]
  exact Nat.zero_max _

/-- A lone pulse fills its block, whatever the alignment. -/
theorem Block.soundsAs_of_lone {b b' : Block} {channel : Channel} {p p' : Pulse}
    (h : b.pulses.entries = [(channel, p)]) (h' : b'.pulses.entries = [(channel, p')])
    (hp : p.Realigned p') : b.SoundsAs b' := by
  refine ⟨?_, .inr ?_⟩
  · rw [Table.Alike, h, h']
    exact .cons ⟨rfl, hp⟩ .nil
  · intro q hq
    rw [Table.values, h] at hq
    rw [List.mem_singleton.mp hq, Block.duration_of_lone h]

/-! ## The builder -/

namespace Schedule

theorem place_of_soundsAs (cutoff : Nat) {b b' : Block} (h : b.SoundsAs b') (channel : Channel) :
    place cutoff b channel = place cutoff b' channel := by
  have hget := h.pulses.get? channel
  have hmem : ∀ p, b.pulses.get? channel = some p → p ∈ b.pulses.values :=
    fun p hp => Table.mem_values_iff.mpr ⟨channel, hp⟩
  unfold place
  generalize b.pulses.get? channel = found at *
  generalize b'.pulses.get? channel = found' at *
  cases hget with
  | none => rw [h.duration]
  | @some p p' hp =>
    dsimp only
    rw [h.place (hmem p rfl) hp]

theorem extend_of_soundsAs (cutoff : Nat) {b b' : Block} (h : b.SoundsAs b')
    (lists : ChannelLists) : extend cutoff b lists = extend cutoff b' lists := by
  induction lists with
  | nil => rfl
  | cons cl rest ih =>
    obtain ⟨channel, list⟩ := cl
    rw [extend, extend, place_of_soundsAs cutoff h channel, ih]

theorem unlabelled_dropEvents {b b' : Block} (h : b.SoundsAs b') (index : Nat) :
    (dropEvents index b).map Event.unlabelled = (dropEvents index b').map Event.unlabelled := by
  have hcount := frameChangeCount_congr (fun _ _ hp => Pulse.Realigned.frameChange hp) h.pulses
  unfold dropEvents
  dsimp only
  rw [hcount]
  split
  · rfl
  · rfl

theorem same_extendAll (cutoff : Nat) {blocks blocks' : List Block}
    (h : List.Forall₂ Block.SoundsAs blocks blocks') (index : Nat) (lists : ChannelLists) :
    Same (extendAll cutoff index blocks lists) (extendAll cutoff index blocks' lists) := by
  induction h generalizing index lists with
  | nil => exact same_refl _
  | cons hb _ ih =>
    unfold extendAll
    rw [hb.duration, extend_of_soundsAs cutoff hb]
    split
    · exact same_bind (same_report (unlabelled_dropEvents hb index)) fun _ => ih _ _
    · exact same_bind (same_refl _) fun _ => ih _ _

theorem same_build (cutoff : Nat) {blocks blocks' : List Block}
    (h : List.Forall₂ Block.SoundsAs blocks blocks') :
    Same (build cutoff blocks) (build cutoff blocks') := by
  unfold build
  rw [channels_congr (fun _ _ hb => hb.keys) h]
  exact same_bind (same_refl _) fun _ =>
    same_bind (same_extendAll cutoff h 0 _) fun _ => same_refl _

end Schedule

/-! ## Sequences -/

/-- The item is a pulse by itself: it stands alone, or alone in a block of any label and any
alignment. -/
inductive Item.IsLone (channel : Channel) (p : Pulse) : Item → Prop
  | bare : IsLone channel p (.pulse channel p)
  | boxed {b : Block} : b.pulses.entries = [(channel, p)] → IsLone channel p (.block b)

/-- Two ways to write an item. Around a lone pulse everything is left open. A block keeps its
alignment and its pulses, but not the alignments that these have of their own. -/
inductive Item.Rewritten : Item → Item → Prop
  | lone {x x' : Item} {channel : Channel} {p p' : Pulse} :
      x.IsLone channel p → x'.IsLone channel p' → p.Realigned p' → Item.Rewritten x x'
  | block {b b' : Block} :
      b.alignment = b'.alignment → b.pulses.Alike Pulse.Realigned b'.pulses →
        Item.Rewritten (.block b) (.block b')

theorem Item.IsLone.entries {x : Item} {channel : Channel} {p : Pulse} (h : x.IsLone channel p) :
    x.toBlock.pulses.entries = [(channel, p)] := by
  cases h with
  | bare => rfl
  | boxed hb => exact hb

theorem Item.Rewritten.soundsAs {x x' : Item} (h : x.Rewritten x') :
    x.toBlock.SoundsAs x'.toBlock := by
  cases h with
  | lone hx hx' hp => exact Block.soundsAs_of_lone hx.entries hx'.entries hp
  | block halign hpulses => exact ⟨hpulses, .inl halign⟩

/-- The sequences one by one, of which a single one makes a list of its own. -/
def Sequences.toLists : Sequences → List (List Item)
  | single items => [items]
  | many sequences => sequences

theorem Sequences.blocks_eq (s : Sequences) :
    s.blocks = s.toLists.map fun items => items.map Item.toBlock := by
  cases s with
  | single items => rfl
  | many sequences => rfl

/-- Two ways to write a program, item by item. -/
def Sequences.Rewritten (s s' : Sequences) : Prop :=
  List.Forall₂ (List.Forall₂ Item.Rewritten) s.toLists s'.toLists

theorem Sequences.Rewritten.blocks {s s' : Sequences} (h : s.Rewritten s') :
    List.Forall₂ (List.Forall₂ Block.SoundsAs) s.blocks s'.blocks := by
  rw [s.blocks_eq, s'.blocks_eq]
  simp only [List.forall₂_map_left_iff, List.forall₂_map_right_iff]
  exact h.imp fun _ _ hitems => hitems.imp fun _ _ hx => hx.soundsAs

/-! ## Programs -/

namespace Program

theorem same_compileOne (settings : Settings) {blocks blocks' : List Block}
    (h : List.Forall₂ Block.SoundsAs blocks blocks') :
    Same (compileOne settings blocks) (compileOne settings blocks') :=
  same_bind (same_apart (Schedule.same_build settings.paddingCutoff h)) fun _ => same_refl _

theorem same_compileFrom (settings : Settings) {sequences sequences' : List (List Block)}
    (h : List.Forall₂ (List.Forall₂ Block.SoundsAs) sequences sequences') (index : Nat) :
    Same (compileFrom settings index sequences) (compileFrom settings index sequences') := by
  induction h generalizing index with
  | nil => exact same_refl _
  | cons hblocks _ ih =>
    unfold compileFrom
    rw [hblocks.length_eq]
    exact same_bind (same_compileOne settings hblocks) fun _ =>
      same_bind (same_refl _) fun _ => same_bind (ih _) fun _ => same_refl _

theorem same_compile (settings : Settings) {sequences sequences' : Sequences}
    (h : sequences.Rewritten sequences') :
    Same (compile settings sequences) (compile settings sequences') := by
  have hblocks := h.blocks
  unfold compile
  dsimp only
  rw [channels_congr (fun _ _ hb => hb.keys) hblocks, hblocks.length_eq]
  exact same_bind (same_refl _) fun _ => same_bind (same_refl _) fun _ =>
    same_bind (same_compileFrom settings.bounded hblocks 0) fun _ => same_refl _

/-- How a program is written does not show. The pulses may have other alignments of their own, a
lone pulse may stand in a block with any alignment, and a single sequence may be a list of one.
The answer is the same, be it an error or a program with its link lists and its waveforms, and so is
the library that is left. Reports name other labels at most. -/
theorem ways_of_writing_a_program_come_to_the_same (settings : Settings)
    {sequences sequences' : Sequences} (h : sequences.Rewritten sequences')
    (lib : WaveformLibrary) :
    (compile settings sequences lib).answer = (compile settings sequences' lib).answer ∧
      (compile settings sequences lib).library = (compile settings sequences' lib).library ∧
      (compile settings sequences lib).events.map Event.unlabelled =
        (compile settings sequences' lib).events.map Event.unlabelled := by
  obtain ⟨hlibrary, hanswer, hevents⟩ := same_compile settings h lib
  exact ⟨hanswer, hlibrary, hevents⟩

end Program

namespace Trial

/-- `detuned`, as a list of one sequence. The pulses have alignments of their own, and the last one
stands in a block that has a name. -/
def reworded : Sequences :=
  .many [[.block { pulses := .ofList [
        ("q1", { samples := .ofReal [.one], frameChange := .infinity, alignment := .center }),
        ("q2", { samples := .ofReal [.one, .zero], alignment := .right })] },
    .block { label := some "last", alignment := .right,
             pulses := .ofList [("q2", { samples := .ofReal [.one, .zero],
                                         alignment := .center })] }]]

theorem detuned_reworded : (Sequences.single detuned).Rewritten reworded := by
  refine .cons (.cons (.block rfl ?_) (.cons (.lone .bare (.boxed rfl) ⟨rfl, rfl, rfl⟩) .nil)) .nil
  simp only [Table.ofList, List.foldl_cons, List.foldl_nil]
  refine Table.Alike.insert (Table.Alike.insert Table.alike_empty "q1" ?_) "q2" ?_
  · exact ⟨rfl, rfl, rfl⟩
  · exact ⟨rfl, rfl, rfl⟩

theorem detuned_compiles : ∃ p, (Program.compile {} (.single detuned) .empty).answer = .ok p := by
  have hchannels : Program.channels (Sequences.single detuned).blocks = .ok ["q1", "q2"] := by
    decide +kernel
  refine Program.compile_completes (keysTellApart_of_nodup keys_nodup) (by decide +kernel) hchannels
    ?_ WaveformLibrary.within_empty
  intro blocks hblocks
  rw [Sequences.blocks, List.mem_singleton] at hblocks
  subst hblocks
  exact contentsIn _ (List.mem_of_getElem? first)

end Trial

namespace Program

/-- Both come out as the same program, although the lone pulse of one is centred in a block that
aligns to the right. -/
theorem a_reworded_sequence_is_the_same_program :
    ∃ p, (compile {} (.single Trial.detuned) .empty).answer = .ok p ∧
      (compile {} Trial.reworded .empty).answer = .ok p := by
  obtain ⟨p, hp⟩ := Trial.detuned_compiles
  have hsame := ways_of_writing_a_program_come_to_the_same {} Trial.detuned_reworded .empty
  exact ⟨p, hp, hsame.1.symm.trans hp⟩

end Program

end PulseSequencer
