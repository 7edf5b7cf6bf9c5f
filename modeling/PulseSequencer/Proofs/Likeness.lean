-- Inputs that are alike: at most the signs of zeros and the payloads of NaNs
-- differ among their samples. The compiler takes the same steps on both. It
-- fails on both with one error, or writes the same entries and the same keys.
import Mathlib.Data.List.Forall2
import PulseSequencer.Proofs.Completion

namespace PulseSequencer

attribute [local irreducible] Waveform.key

/-! ## Tables -/

namespace Table

variable {κ α : Type} {R : α → α → Prop} {t t' : Table κ α}

/-- The same keys in the same order, with values that `R` relates. -/
def Alike (R : α → α → Prop) (t t' : Table κ α) : Prop :=
  List.Forall₂ (fun e e' => e.1 = e'.1 ∧ R e.2 e'.2) t.entries t'.entries

theorem alike_refl (hR : ∀ a, R a a) (t : Table κ α) : Alike R t t :=
  List.forall₂_same.mpr fun e _ => ⟨rfl, hR e.2⟩

theorem alike_empty : Alike R (.empty : Table κ α) .empty := .nil

theorem Alike.keys (h : Alike R t t') : t.keys = t'.keys := by
  have hkeys : List.Forall₂ (· = ·) t.keys t'.keys :=
    List.forall₂_map_left_iff.mpr (List.forall₂_map_right_iff.mpr (h.imp fun _ _ he => he.1))
  rwa [List.forall₂_eq_eq_eq] at hkeys

/-- What cannot tell two related values apart sees the same values. -/
theorem Alike.map_values {β : Type} (h : Alike R t t') {f : α → β}
    (hf : ∀ a a', R a a' → f a = f a') : t.values.map f = t'.values.map f := by
  have hvalues : List.Forall₂ (· = ·) (t.values.map f) (t'.values.map f) := by
    simp only [values, List.map_map, List.forall₂_map_left_iff, List.forall₂_map_right_iff]
    exact h.imp fun e e' he => hf e.2 e'.2 he.2
  rwa [List.forall₂_eq_eq_eq] at hvalues

theorem Alike.size (h : Alike R t t') : t.size = t'.size := List.Forall₂.length_eq h

variable [DecidableEq κ]

theorem rel_lookup {l l' : List (κ × α)}
    (h : List.Forall₂ (fun e e' => e.1 = e'.1 ∧ R e.2 e'.2) l l') (key : κ) :
    Option.Rel R (l.lookup key) (l'.lookup key) := by
  induction h with
  | nil => exact .none
  | @cons e e' l l' he _ ih =>
    obtain ⟨k, a⟩ := e
    obtain ⟨k', a'⟩ := e'
    obtain ⟨rfl, ha⟩ := he
    rw [List.lookup_cons, List.lookup_cons]
    cases key == k with
    | true => exact .some ha
    | false => exact ih

theorem Alike.get? (h : Alike R t t') (key : κ) : Option.Rel R (t.get? key) (t'.get? key) :=
  rel_lookup h key

theorem Alike.contains (h : Alike R t t') (key : κ) : t.contains key = t'.contains key := by
  rw [Table.contains, Table.contains, h.keys]

theorem forall₂_replaceIn {l l' : List (κ × α)} {v v' : α} (key : κ)
    (h : List.Forall₂ (fun e e' => e.1 = e'.1 ∧ R e.2 e'.2) l l') (hv : R v v') :
    List.Forall₂ (fun e e' => e.1 = e'.1 ∧ R e.2 e'.2) (replaceIn key v l)
      (replaceIn key v' l') := by
  induction h with
  | nil => exact .nil
  | @cons e e' l l' he hrest ih =>
    obtain ⟨k, a⟩ := e
    obtain ⟨k', a'⟩ := e'
    obtain ⟨rfl, ha⟩ := he
    dsimp only at ha
    unfold replaceIn
    split
    · exact .cons ⟨rfl, hv⟩ hrest
    · exact .cons ⟨rfl, ha⟩ ih

theorem Alike.insert (h : Alike R t t') (key : κ) {v v' : α} (hv : R v v') :
    Alike R (t.insert key v) (t'.insert key v') := by
  have hcontains := h.contains key
  unfold Table.insert
  by_cases hc : t.contains key = true
  · rw [dif_pos hc, dif_pos (hcontains ▸ hc)]
    exact forall₂_replaceIn key h hv
  · rw [dif_neg hc, dif_neg (hcontains ▸ hc)]
    exact List.rel_append h (.cons ⟨rfl, hv⟩ .nil)

end Table

/-! ## Waveforms and libraries -/

/-- Equal up to the signs of zeros and the payloads of NaNs. -/
def Waveform.Alike (v w : Waveform) : Prop := v.contentEq w = true

instance (v w : Waveform) : Decidable (v.Alike w) := inferInstanceAs (Decidable (_ = true))

theorem Waveform.alike_iff {v w : Waveform} : v.Alike w ↔ v.content = w.content :=
  contentEq_iff v w

theorem Waveform.alike_refl (w : Waveform) : w.Alike w := alike_iff.mpr rfl

theorem Waveform.Alike.contentEq_congr {v v' w w' : Waveform} (hv : v.Alike v') (hw : w.Alike w') :
    v.contentEq w = v'.contentEq w' := by
  rw [Bool.eq_iff_iff, contentEq_iff, contentEq_iff, alike_iff.mp hv, alike_iff.mp hw]

namespace WaveformLibrary

variable {lib lib' : WaveformLibrary}

/-- The same channels and, for each, the same keys, in the same order, with waveforms that are
alike. -/
def Alike (lib lib' : WaveformLibrary) : Prop :=
  lib.channels.Alike (Table.Alike Waveform.Alike) lib'.channels

theorem alike_refl (lib : WaveformLibrary) : lib.Alike lib :=
  Table.alike_refl (Table.alike_refl Waveform.alike_refl) lib.channels

theorem Alike.waveforms (h : lib.Alike lib') (channel : Channel) :
    (lib.waveforms channel).Alike Waveform.Alike (lib'.waveforms channel) := by
  unfold WaveformLibrary.waveforms
  have hget := Table.Alike.get? h channel
  generalize lib.channels.get? channel = found at *
  generalize lib'.channels.get? channel = found' at *
  cases hget with
  | none => exact Table.alike_empty
  | some hws => exact hws

theorem Alike.get? (h : lib.Alike lib') (channel : Channel) (key : Digest) :
    Option.Rel Waveform.Alike (lib.get? channel key) (lib'.get? channel key) := by
  rw [get?_eq, get?_eq]
  exact (h.waveforms channel).get? key

theorem Alike.count (h : lib.Alike lib') (channel : Channel) :
    lib.count channel = lib'.count channel :=
  (h.waveforms channel).size

theorem Alike.totalCount (h : lib.Alike lib') : lib.totalCount = lib'.totalCount := by
  have hsizes := Table.Alike.map_values h fun _ _ hws => Table.Alike.size hws
  rw [WaveformLibrary.totalCount, WaveformLibrary.totalCount, hsizes]

theorem Alike.register (h : lib.Alike lib') (channel : Channel) :
    (lib.register channel).Alike (lib'.register channel) := by
  have hcontains : lib.contains channel = lib'.contains channel := Table.Alike.contains h channel
  rw [WaveformLibrary.register_eq, WaveformLibrary.register_eq, hcontains]
  split
  · exact h
  · exact Table.Alike.insert h channel (Table.alike_refl Waveform.alike_refl fresh)

/-- Waveforms that are alike have one key, meet the same stored content and collide with it or
not. -/
theorem Alike.insert (h : lib.Alike lib') (channel : Channel) {w w' : Waveform} (hw : w.Alike w') :
    (lib.insert channel w).2 = (lib'.insert channel w').2 ∧
      (lib.insert channel w).1.Alike (lib'.insert channel w').1 := by
  have hregister := h.register channel
  have hwaveforms := hregister.waveforms channel
  have hget := hregister.get? channel w'.key
  unfold WaveformLibrary.insert
  dsimp only
  rw [Waveform.key_congr (Waveform.alike_iff.mp hw)]
  generalize (lib.register channel).get? channel w'.key = found at *
  generalize (lib'.register channel).get? channel w'.key = found' at *
  cases hget with
  | none => exact ⟨rfl, Table.Alike.insert hregister channel (hwaveforms.insert w'.key hw)⟩
  | some hstored =>
    dsimp only
    rw [hstored.contentEq_congr hw]
    split
    · exact ⟨rfl, hregister⟩
    · exact ⟨rfl, hregister⟩

end WaveformLibrary

/-! ## Steps in lockstep -/

/-- The same error, or answers that `R` relates. -/
inductive Answers {α : Type} (R : α → α → Prop) :
    Except CompileError α → Except CompileError α → Prop
  | error (e : CompileError) : Answers R (.error e) (.error e)
  | ok {a a' : α} : R a a' → Answers R (.ok a) (.ok a')

theorem Answers.of_eq {α : Type} {answer answer' : Except CompileError α}
    (h : answer = answer') : Answers Eq answer answer' := by
  subst h
  cases answer with
  | error e => exact .error e
  | ok a => exact .ok rfl

structure Outcome.Alike {α : Type} (R : α → α → Prop) (o o' : Outcome α) : Prop where
  library : o.library.Alike o'.library
  events : o.events = o'.events
  answer : Answers R o.answer o'.answer

namespace Compilation

variable {α β : Type} {R : α → α → Prop} {S : β → β → Prop}

/-- From libraries that are alike, the two steps report the same and come out alike. -/
def Alike (R : α → α → Prop) (step step' : Compilation α) : Prop :=
  ∀ lib lib' : WaveformLibrary, lib.Alike lib' → (step lib).Alike R (step' lib')

theorem alike_pure {a a' : α} (h : R a a') : Alike R (pure a) (pure a') :=
  fun _ _ hlib => ⟨hlib, rfl, .ok h⟩

theorem alike_report (events : List Event) : Alike Eq (report events) (report events) :=
  fun _ _ hlib => ⟨hlib, rfl, .ok rfl⟩

theorem alike_ofExcept {answer answer' : Except CompileError α} (h : Answers R answer answer') :
    Alike R (ofExcept answer) (ofExcept answer') :=
  fun _ _ hlib => ⟨hlib, rfl, h⟩

theorem alike_current : Alike WaveformLibrary.Alike current current :=
  fun _ _ hlib => ⟨hlib, rfl, .ok hlib⟩

theorem alike_register (channel : Channel) : Alike Eq (register channel) (register channel) :=
  fun _ _ hlib => ⟨hlib.register channel, rfl, .ok rfl⟩

theorem alike_store (channel : Channel) {w w' : Waveform} (h : w.Alike w') :
    Alike Eq (store channel w) (store channel w') := by
  intro lib lib' hlib
  obtain ⟨hanswer, hlibrary⟩ := hlib.insert channel h
  exact ⟨hlibrary, rfl, .of_eq hanswer⟩

theorem alike_apart {step step' : Compilation α} (h : Alike R step step') :
    Alike (fun x x' => R x.1 x'.1 ∧ x.2.Alike x'.2) (apart step) (apart step') := by
  intro lib lib' hlib
  obtain ⟨hscratch, hevents, hanswer⟩ := h .empty .empty (WaveformLibrary.alike_refl _)
  refine ⟨hlib, hevents, ?_⟩
  unfold apart
  dsimp only
  generalize (step .empty).answer = answer at *
  generalize (step' .empty).answer = answer' at *
  cases hanswer with
  | error e => exact .error e
  | ok ha => exact .ok ⟨ha, hscratch⟩

theorem alike_bind {step step' : Compilation α} {next next' : α → Compilation β}
    (h : Alike R step step') (hnext : ∀ a a', R a a' → Alike S (next a) (next' a')) :
    Alike S (step >>= next) (step' >>= next') := by
  intro lib lib' hlib
  obtain ⟨hlibrary, hevents, hanswer⟩ := h lib lib' hlib
  rw [bind_apply, bind_apply]
  generalize (step lib).answer = answer at *
  generalize (step' lib').answer = answer' at *
  cases hanswer with
  | error e => exact ⟨hlibrary, hevents, .error e⟩
  | ok ha =>
    obtain ⟨hafter, hlater, hresult⟩ := hnext _ _ ha _ _ hlibrary
    refine ⟨hafter, ?_, hresult⟩
    dsimp only
    rw [hevents, hlater]

/-- Where the first answers are equal, the rest may start from one of them. -/
theorem alike_bind_eq {step step' : Compilation α} {next next' : α → Compilation β}
    (h : Alike Eq step step') (hnext : ∀ a, Alike S (next a) (next' a)) :
    Alike S (step >>= next) (step' >>= next') := by
  refine alike_bind h ?_
  rintro a _ rfl
  exact hnext a

end Compilation

open Compilation

/-! ## Pulses and blocks -/

/-- Pulses that are alike differ in their samples at most. -/
structure Pulse.Alike (p p' : Pulse) : Prop where
  samples : p.samples.Alike p'.samples
  phase : p.phase = p'.phase
  frameChange : p.frameChange = p'.frameChange
  alignment : p.alignment = p'.alignment

theorem Pulse.Alike.length {p p' : Pulse} (h : p.Alike p') : p.length = p'.length :=
  Waveform.length_congr (Waveform.alike_iff.mp h.samples)

/-- Of a pulse itself, an entry has the phase and the frame change only. -/
theorem Entry.ofPulse_congr {p p' : Pulse} (hphase : p.phase = p'.phase)
    (hchange : p.frameChange = p'.frameChange) (key : Digest) (length : Nat) :
    Entry.ofPulse key length p = Entry.ofPulse key length p' := by
  rw [Entry.ofPulse, Entry.ofPulse, hphase, hchange]

structure Block.Alike (b b' : Block) : Prop where
  label : b.label = b'.label
  alignment : b.alignment = b'.alignment
  pulses : b.pulses.Alike Pulse.Alike b'.pulses

/-- A block lasts as long as any other with pulses of the same lengths. -/
theorem Block.duration_congr {R : Pulse → Pulse → Prop} {b b' : Block}
    (hR : ∀ p p', R p p' → p.length = p'.length) (h : b.pulses.Alike R b'.pulses) :
    b.duration = b'.duration := by
  rw [Block.duration, Block.duration, h.map_values hR]

theorem Block.Alike.duration {b b' : Block} (h : b.Alike b') : b.duration = b'.duration :=
  Block.duration_congr (fun _ _ hp => Pulse.Alike.length hp) h.pulses

structure Placement.Alike (x x' : Placement) : Prop where
  shape : x.shape.Alike x'.shape
  entries : x.entries = x'.entries

theorem Placement.alike_merged {p p' : Pulse} (h : p.Alike p') (before after : Nat) :
    (merged p before after).Alike (merged p' before after) := by
  have hcontent : (p.samples.pad before after).content = (p'.samples.pad before after).content := by
    rw [Waveform.content_pad, Waveform.content_pad, Waveform.alike_iff.mp h.samples]
  refine ⟨Waveform.alike_iff.mpr hcontent, ?_⟩
  unfold merged
  dsimp only
  rw [Waveform.key_congr hcontent, Waveform.length_congr hcontent,
    Entry.ofPulse_congr h.phase h.frameChange]

theorem Placement.alike_separate {p p' : Pulse} (h : p.Alike p') (before after : Nat) :
    (separate p before after).Alike (separate p' before after) := by
  refine ⟨h.samples, ?_⟩
  unfold separate
  dsimp only
  rw [Waveform.key_congr (Waveform.alike_iff.mp h.samples), h.length,
    Entry.ofPulse_congr h.phase h.frameChange]

theorem Pulse.Alike.place {p p' : Pulse} (h : p.Alike p') (blockLength : Nat)
    (alignment : Alignment) (cutoff : Nat) :
    Answers Placement.Alike (p.place blockLength alignment cutoff)
      (p'.place blockLength alignment cutoff) := by
  unfold Pulse.place
  rw [h.length]
  split
  · exact .error _
  · dsimp only
    split
    · exact .ok (Placement.alike_merged h _ _)
    · exact .ok (Placement.alike_separate h _ _)

/-! ## The builder -/

namespace Schedule

theorem alike_place (cutoff : Nat) {b b' : Block} (h : b.Alike b') (channel : Channel) :
    Alike Eq (place cutoff b channel) (place cutoff b' channel) := by
  have hget := h.pulses.get? channel
  unfold place
  rw [h.duration, h.alignment]
  generalize b.pulses.get? channel = found at *
  generalize b'.pulses.get? channel = found' at *
  cases hget with
  | none => exact alike_pure rfl
  | some hp =>
    refine alike_bind (alike_ofExcept (hp.place b'.duration b'.alignment cutoff)) ?_
    intro x x' hx
    refine alike_bind_eq (alike_store channel hx.shape) fun _ => ?_
    exact alike_pure hx.entries

theorem alike_extend (cutoff : Nat) {b b' : Block} (h : b.Alike b') (lists : ChannelLists) :
    Alike Eq (extend cutoff b lists) (extend cutoff b' lists) := by
  induction lists with
  | nil => exact alike_pure rfl
  | cons cl rest ih =>
    exact alike_bind_eq (alike_place cutoff h cl.1) fun _ => alike_bind_eq ih fun _ =>
      alike_pure rfl

theorem frameChangeCount_congr {R : Pulse → Pulse → Prop} {b b' : Block}
    (hR : ∀ p p', R p p' → p.frameChange = p'.frameChange) (h : b.pulses.Alike R b'.pulses) :
    frameChangeCount b = frameChangeCount b' := by
  have hcounts := congrArg (List.countP fun x : Binary64 => !x.numEq .zero) (h.map_values hR)
  rw [List.countP_map, List.countP_map] at hcounts
  exact hcounts

theorem dropEvents_congr {b b' : Block} (h : b.Alike b') (index : Nat) :
    dropEvents index b = dropEvents index b' := by
  rw [dropEvents, dropEvents,
    frameChangeCount_congr (fun _ _ hp => Pulse.Alike.frameChange hp) h.pulses, h.label]

theorem alike_extendAll (cutoff : Nat) {blocks blocks' : List Block}
    (h : List.Forall₂ Block.Alike blocks blocks') (index : Nat) (lists : ChannelLists) :
    Alike Eq (extendAll cutoff index blocks lists) (extendAll cutoff index blocks' lists) := by
  induction h generalizing index lists with
  | nil => exact alike_pure rfl
  | cons hb _ ih =>
    unfold extendAll
    rw [hb.duration, dropEvents_congr hb]
    split
    · exact alike_bind_eq (alike_report _) fun _ => ih _ _
    · exact alike_bind_eq (alike_extend cutoff hb lists) fun _ => ih _ _

theorem alike_registerAll (channels : List Channel) :
    Alike Eq (registerAll channels) (registerAll channels) := by
  induction channels with
  | nil => exact alike_pure rfl
  | cons channel rest ih => exact alike_bind_eq (alike_register channel) fun _ => ih

theorem channels_congr {R : Block → Block → Prop} {blocks blocks' : List Block}
    (hR : ∀ b b', R b b' → b.pulses.keys = b'.pulses.keys) (h : List.Forall₂ R blocks blocks') :
    channels blocks = channels blocks' := by
  unfold channels
  congr 1
  induction h with
  | nil => rfl
  | cons hb _ ih => rw [List.flatMap_cons, List.flatMap_cons, hR _ _ hb, ih]

theorem alike_build (cutoff : Nat) {blocks blocks' : List Block}
    (h : List.Forall₂ Block.Alike blocks blocks') :
    Alike Eq (build cutoff blocks) (build cutoff blocks') := by
  unfold build
  rw [channels_congr (fun _ _ hb => hb.pulses.keys) h]
  exact alike_bind_eq (alike_registerAll _) fun _ =>
    alike_bind_eq (alike_extendAll cutoff h 0 _) fun _ =>
      alike_bind_eq (alike_report _) fun _ => alike_pure rfl

end Schedule

/-! ## The frame pass -/

namespace Frame

variable {sources sources' lib lib' : WaveformLibrary}

structure Source.Alike (s s' : Source) : Prop where
  isTimeAmplitude : s.isTimeAmplitude = s'.isTimeAmplitude
  shape : s.shape.Alike s'.shape

theorem alike_collapse (detect : Bool) (channel : Channel) (index : Nat) (e : Entry)
    {shape shape' : Waveform} (h : shape.Alike shape') :
    Answers Source.Alike (collapse detect channel index e shape)
      (collapse detect channel index e shape') := by
  have hcontent := Waveform.alike_iff.mp h
  have hfirst : (shape.take 1).Alike (shape'.take 1) := by
    rw [Waveform.alike_iff, Waveform.content_take, Waveform.content_take, hcontent]
  unfold collapse
  rw [Waveform.isConstant_congr hcontent]
  split
  · exact .error _
  · split
    · exact .ok ⟨rfl, hfirst⟩
    · exact .ok ⟨rfl, h⟩

theorem alike_source (hsources : sources.Alike sources') (detect : Bool) (channel : Channel)
    (index : Nat) (e : Entry) :
    Answers Source.Alike (source detect sources channel index e)
      (source detect sources' channel index e) := by
  have hget := hsources.get? channel e.sourceKey
  unfold source WaveformLibrary.require
  generalize sources.get? channel e.sourceKey = found at *
  generalize sources'.get? channel e.sourceKey = found' at *
  cases hget with
  | none => exact .error _
  | some hshape => exact alike_collapse detect channel index e hshape

theorem failureEvents_congr (hsources : sources.Alike sources') (e : Entry) (err : CompileError) :
    failureEvents sources e err = failureEvents sources' e err := by
  unfold failureEvents
  split
  · rename_i channel index
    have hget := hsources.get? channel e.sourceKey
    generalize sources.get? channel e.sourceKey = found at *
    generalize sources'.get? channel e.sourceKey = found' at *
    cases hget with
    | none => rfl
    | some hshape =>
      simp only [Option.map_some, Option.getD_some]
      rw [Waveform.length_congr (Waveform.alike_iff.mp hshape)]
  · rfl

structure Result.Alike (r r' : Result) : Prop where
  list : r.list = r'.list
  library : r.library.Alike r'.library
  events : r.events = r'.events
  answer : r.answer = r'.answer

/-- The pass meets alike shapes, finds the same ones constant, turns them alike and stores them
under the same keys. -/
theorem alike_turn (hsources : sources.Alike sources') (detect : Bool) (channel : Channel)
    (index : Nat) (frame : Binary64) (list : LinkList) (hlib : lib.Alike lib') :
    (turn detect sources channel index frame list lib).Alike
      (turn detect sources' channel index frame list lib') := by
  induction list generalizing index frame lib lib' with
  | nil => exact ⟨rfl, hlib, rfl, rfl⟩
  | cons e rest ih =>
    have hsource := alike_source hsources detect channel index e
    unfold turn
    generalize source detect sources channel index e = found at *
    generalize source detect sources' channel index e = found' at *
    cases hsource with
    | error err => exact ⟨rfl, hlib, failureEvents_congr hsources e err, rfl⟩
    | @ok src src' hsrc =>
      dsimp only
      have hturned : (src.shape.rotate (e.phase + frame)).Alike
          (src'.shape.rotate (e.phase + frame)) :=
        Waveform.alike_iff.mpr (Waveform.content_rotate _ (Waveform.alike_iff.mp hsrc.shape))
      obtain ⟨hanswer, hlibrary⟩ := hlib.insert channel hturned
      -- From here on the shapes do not show: the flag, the key and the library are all that is left.
      rw [hsrc.isTimeAmplitude]
      generalize lib.insert channel (src.shape.rotate (e.phase + frame)) = inserted at *
      generalize lib'.insert channel (src'.shape.rotate (e.phase + frame)) = inserted' at *
      obtain ⟨after, answer⟩ := inserted
      obtain ⟨after', answer'⟩ := inserted'
      dsimp only at hanswer hlibrary
      subst hanswer
      cases answer with
      | error err => exact ⟨rfl, hlibrary, rfl, rfl⟩
      | ok key =>
        obtain ⟨hlist, hafter, hevents, hend⟩ := ih (index + 1) (frame + e.frameChange) hlibrary
        exact ⟨congrArg (_ :: ·) hlist, hafter, hevents, hend⟩

theorem alike_apply (hsources : sources.Alike sources') (detect : Bool) (channel : Channel)
    (list : LinkList) (hlib : lib.Alike lib') :
    (apply detect sources channel list lib).Alike (apply detect sources' channel list lib') := by
  have hturn := alike_turn hsources detect channel 0 .zero list (hlib.register channel)
  unfold apply
  dsimp only
  rw [hturn.answer]
  split
  · exact hturn
  · refine ⟨hturn.list, hturn.library, ?_, rfl⟩
    dsimp only
    rw [hturn.events, hturn.library.count]

theorem alike_step (hsources : sources.Alike sources') (detect : Bool) (channel : Channel)
    (list : LinkList) :
    Alike Eq (step detect sources channel list) (step detect sources' channel list) := by
  intro lib lib' hlib
  obtain ⟨hlist, hlibrary, hevents, hanswer⟩ := alike_apply hsources detect channel list hlib
  refine ⟨hlibrary, hevents, .of_eq ?_⟩
  unfold step
  dsimp only
  rw [hlist, hanswer]

theorem alike_applyAll (hsources : sources.Alike sources') (detect : Bool)
    (lists : ChannelLists) :
    Alike Eq (applyAll detect sources lists) (applyAll detect sources' lists) := by
  induction lists with
  | nil => exact alike_pure rfl
  | cons cl rest ih =>
    exact alike_bind_eq (alike_step hsources detect cl.1 cl.2) fun _ =>
      alike_bind_eq ih fun _ => alike_pure rfl

end Frame

/-! ## Programs -/

inductive Item.Alike : Item → Item → Prop
  | pulse (channel : Channel) {p p' : Pulse} :
      p.Alike p' → Item.Alike (.pulse channel p) (.pulse channel p')
  | block {b b' : Block} : b.Alike b' → Item.Alike (.block b) (.block b')

/-- A lone pulse gives its alignment to its block, which is why that has to be the same. -/
theorem Item.Alike.toBlock {x x' : Item} (h : x.Alike x') : x.toBlock.Alike x'.toBlock := by
  cases h with
  | pulse channel hp =>
    exact ⟨rfl, hp.alignment, Table.alike_empty.insert channel hp⟩
  | block hb => exact hb

/-- Sequences that are written alike, item by item. -/
inductive Sequences.Alike : Sequences → Sequences → Prop
  | single {items items' : List Item} :
      List.Forall₂ Item.Alike items items' → Sequences.Alike (.single items) (.single items')
  | many {sequences sequences' : List (List Item)} :
      List.Forall₂ (List.Forall₂ Item.Alike) sequences sequences' →
        Sequences.Alike (.many sequences) (.many sequences')

theorem forall₂_toBlock {items items' : List Item} (h : List.Forall₂ Item.Alike items items') :
    List.Forall₂ Block.Alike (items.map Item.toBlock) (items'.map Item.toBlock) := by
  simp only [List.forall₂_map_left_iff, List.forall₂_map_right_iff]
  exact h.imp fun _ _ hx => hx.toBlock

theorem Sequences.Alike.blocks {s s' : Sequences} (h : s.Alike s') :
    List.Forall₂ (List.Forall₂ Block.Alike) s.blocks s'.blocks := by
  cases h with
  | single hitems => exact .cons (forall₂_toBlock hitems) .nil
  | many hsequences =>
    exact List.forall₂_map_left_iff.mpr (List.forall₂_map_right_iff.mpr
      (hsequences.imp fun _ _ hitems => forall₂_toBlock hitems))

namespace Program

/-- Equal link lists, and libraries that are alike. -/
structure Alike (p p' : Program) : Prop where
  linkLists : p.linkLists = p'.linkLists
  waveforms : p.waveforms.Alike p'.waveforms

theorem alike_compileOne (settings : Settings) {blocks blocks' : List Block}
    (h : List.Forall₂ Block.Alike blocks blocks') :
    Compilation.Alike Eq (compileOne settings blocks) (compileOne settings blocks') := by
  refine alike_bind (alike_apart (Schedule.alike_build settings.paddingCutoff h)) ?_
  rintro ⟨lists, sources⟩ ⟨_, sources'⟩ ⟨rfl, hsources⟩
  exact Frame.alike_applyAll hsources settings.detectConstants lists

theorem alike_compileFrom (settings : Settings) {sequences sequences' : List (List Block)}
    (h : List.Forall₂ (List.Forall₂ Block.Alike) sequences sequences') (index : Nat) :
    Compilation.Alike Eq (compileFrom settings index sequences)
      (compileFrom settings index sequences') := by
  induction h generalizing index with
  | nil => exact alike_pure rfl
  | cons hblocks _ ih =>
    unfold compileFrom
    rw [hblocks.length_eq]
    exact alike_bind_eq (alike_compileOne settings hblocks) fun _ =>
      alike_bind_eq (alike_report _) fun _ => alike_bind_eq (ih _) fun _ => alike_pure rfl

theorem channels_congr {R : Block → Block → Prop} {sequences sequences' : List (List Block)}
    (hR : ∀ b b', R b b' → b.pulses.keys = b'.pulses.keys)
    (h : List.Forall₂ (List.Forall₂ R) sequences sequences') :
    channels sequences = channels sequences' := by
  have hsets : sequences.map Schedule.channels = sequences'.map Schedule.channels := by
    induction h with
    | nil => rfl
    | cons hblocks _ ih =>
      rw [List.map_cons, List.map_cons, Schedule.channels_congr hR hblocks, ih]
  unfold channels
  rw [hsets]

theorem alike_compile (settings : Settings) {sequences sequences' : Sequences}
    (h : sequences.Alike sequences') :
    Compilation.Alike Program.Alike (compile settings sequences) (compile settings sequences') := by
  have hblocks := h.blocks
  unfold compile
  dsimp only
  rw [channels_congr (fun _ _ hb => hb.pulses.keys) hblocks, hblocks.length_eq]
  refine alike_bind_eq (alike_report _) fun _ => ?_
  refine alike_bind_eq (alike_ofExcept (.of_eq rfl)) fun cs => ?_
  refine alike_bind_eq (alike_compileFrom settings.bounded hblocks 0) fun compiled => ?_
  refine alike_bind alike_current ?_
  intro waveforms waveforms' hwaveforms
  rw [hwaveforms.totalCount]
  exact alike_bind_eq (alike_report _) fun _ => alike_pure ⟨rfl, hwaveforms⟩

/-- Signs of zeros and payloads of NaNs do not show. Two inputs that are alike, with libraries that
are alike, report the same events. Then both fail with the same error, or both succeed with the same
link lists and with libraries that are alike again. -/
theorem zero_signs_and_nan_payloads_do_not_show (settings : Settings)
    {sequences sequences' : Sequences} {lib lib' : WaveformLibrary}
    (hsequences : sequences.Alike sequences') (hlib : lib.Alike lib') :
    (compile settings sequences lib).events = (compile settings sequences' lib').events ∧
      ((∃ e, (compile settings sequences lib).answer = .error e ∧
          (compile settings sequences' lib').answer = .error e) ∨
        ∃ p p', (compile settings sequences lib).answer = .ok p ∧
          (compile settings sequences' lib').answer = .ok p' ∧
          p.linkLists = p'.linkLists ∧ p.waveforms.Alike p'.waveforms) := by
  obtain ⟨_, hevents, hanswer⟩ := alike_compile settings hsequences lib lib' hlib
  refine ⟨hevents, ?_⟩
  generalize (compile settings sequences lib).answer = answer at *
  generalize (compile settings sequences' lib').answer = answer' at *
  cases hanswer with
  | error e => exact .inl ⟨e, rfl, rfl⟩
  | ok hp => exact .inr ⟨_, _, rfl, rfl, hp.linkLists, hp.waveforms⟩

end Program

namespace Trial

/-- Two channels together and then a sample that is no number, with the zeros and the NaN left
open. -/
def blurred (zero nan : Binary64) : Sequences :=
  .single [.block { pulses := .ofList [("q1", { samples := .ofReal [.one, zero] }),
      ("q2", { samples := ⟨[⟨.one, zero⟩]⟩, frameChange := .infinity })] },
    .pulse "q1" { samples := ⟨[⟨nan, nan⟩]⟩ }]

def negativeZero : Binary64 := ⟨0x8000000000000000⟩

/-- A NaN with a sign and a payload. -/
def oddNan : Binary64 := ⟨0xfff0000000000001⟩

theorem negativeZero_alike :
    (Waveform.ofReal [.one, .zero]).Alike (.ofReal [.one, negativeZero]) := by decide

theorem blurred_alike : (blurred .zero .nan).Alike (blurred negativeZero oddNan) := by
  refine .single (.cons (.block ⟨rfl, rfl, ?_⟩)
    (.cons (.pulse "q1" ⟨by decide, rfl, rfl, rfl⟩) .nil))
  simp only [Table.ofList, List.foldl_cons, List.foldl_nil]
  refine Table.Alike.insert (Table.Alike.insert Table.alike_empty "q1" ?_) "q2" ?_
  · exact ⟨negativeZero_alike, rfl, rfl, rfl⟩
  · exact ⟨by decide, rfl, rfl, rfl⟩

theorem blurred_compiles : ∃ p, (Program.compile {} (blurred .zero .nan)
    (WaveformLibrary.empty.insert "q3" (.ofReal [.one, .zero])).1).answer = .ok p := by
  have hchannels : Program.channels (blurred .zero .nan).blocks = .ok ["q1", "q2"] := by
    decide +kernel
  have hcontents : ∀ blocks ∈ (blurred .zero .nan).blocks, Program.ContentsIn
      (fun x => ∃ w ∈ shapes, w.content = x) ({} : Settings).bounded blocks := by
    unfold Program.ContentsIn
    decide +kernel
  exact Program.compile_completes (keysTellApart_of_nodup keys_nodup) (by decide +kernel) hchannels
    hcontents (seeded_within "q3")

end Trial

namespace Program

/-- Negative zeros and a NaN with a payload, in the input and in the library. -/
theorem negative_zeros_compile_as_zeros :
    ∃ p p',
      (compile {} (Trial.blurred .zero .nan)
        (WaveformLibrary.empty.insert "q3" (.ofReal [.one, .zero])).1).answer = .ok p ∧
      (compile {} (Trial.blurred Trial.negativeZero Trial.oddNan)
        (WaveformLibrary.empty.insert "q3" (.ofReal [.one, Trial.negativeZero])).1).answer =
          .ok p' ∧
      p.linkLists = p'.linkLists ∧ p.waveforms.Alike p'.waveforms := by
  obtain ⟨p, hp⟩ := Trial.blurred_compiles
  have hlib := ((WaveformLibrary.alike_refl .empty).insert "q3" Trial.negativeZero_alike).2
  rcases (zero_signs_and_nan_payloads_do_not_show {} Trial.blurred_alike hlib).2 with
    ⟨e, herror, _⟩ | hboth
  · rw [hp] at herror
    cases herror
  · exact hboth

end Program

end PulseSequencer
