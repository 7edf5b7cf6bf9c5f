-- What the compiler keeps of its library, step by step, and what its steps can
-- fail over. A step changes the library by registering a channel or by storing a
-- waveform and in no other way, so both questions are settled there.
import PulseSequencer.Proofs.Programs

namespace PulseSequencer

open Compilation

attribute [local irreducible] Waveform.key

/-! ## Steps -/

namespace Compilation

variable {P : WaveformLibrary → Prop} {E : CompileError → Prop} {α β : Type}

/-- From a library that is `P` the step leaves one that is `P`, and a failure is an `E`. -/
def Keeps (P : WaveformLibrary → Prop) (E : CompileError → Prop) (step : Compilation α) : Prop :=
  ∀ lib : WaveformLibrary, P lib →
    P (step lib).library ∧ ∀ e, (step lib).answer = .error e → E e

theorem keeps_ofExcept {answer : Except CompileError α} (h : ∀ e, answer = .error e → E e) :
    Keeps P E (ofExcept answer) := fun _ hlib => ⟨hlib, h⟩

theorem keeps_pure (a : α) : Keeps P E (pure a : Compilation α) :=
  fun _ hlib => ⟨hlib, fun _ he => nomatch he⟩

theorem keeps_report (events : List Event) : Keeps P E (report events) :=
  fun _ hlib => ⟨hlib, fun _ he => nomatch he⟩

/-- Two steps in a row fail if the first does, or the second does on what the first left. -/
theorem answer_bind_error {step : Compilation α} {next : α → Compilation β}
    {lib : WaveformLibrary} {e : CompileError} (h : ((step >>= next) lib).answer = .error e) :
    (step lib).answer = .error e ∨
      ∃ a middle, step.Yields lib a middle ∧ (next a middle).answer = .error e := by
  rw [bind_apply] at h
  cases hanswer : (step lib).answer with
  | error err =>
    rw [hanswer] at h
    cases h
    exact Or.inl rfl
  | ok a =>
    rw [hanswer] at h
    exact Or.inr ⟨a, _, ⟨hanswer, rfl⟩, h⟩

/-- The second step may rely on what the first one answered. -/
theorem keeps_bind {step : Compilation α} {next : α → Compilation β} (h : Keeps P E step)
    (hnext : ∀ a lib lib', step.Yields lib a lib' → Keeps P E (next a)) :
    Keeps P E (step >>= next) := by
  intro lib hlib
  obtain ⟨hmiddle, herror⟩ := h lib hlib
  refine ⟨?_, ?_⟩
  · rw [bind_apply]
    split
    · exact hmiddle
    · rename_i a hanswer
      exact (hnext a lib _ ⟨hanswer, rfl⟩ _ hmiddle).1
  · intro e he
    rcases answer_bind_error he with he | ⟨a, middle, hstep, he⟩
    · exact herror e he
    · have hleft := hstep.2
      subst hleft
      exact (hnext a lib _ hstep _ hmiddle).2 e he

end Compilation

/-- Registering keeps a library `P`. So does storing a waveform with its content in `S`, which
fails with an `E` if it fails. -/
structure Regime (S : List (UInt64 × UInt64) → Prop) (P : WaveformLibrary → Prop)
    (E : CompileError → Prop) : Prop where
  empty : P .empty
  register : ∀ lib channel, P lib → P (lib.register channel)
  insert : ∀ (lib : WaveformLibrary) (channel : Channel) (w : Waveform), P lib → S w.content →
    P (lib.insert channel w).1 ∧ ∀ e, (lib.insert channel w).2 = .error e → E e

/-! ## The builder -/

namespace Block

/-- A block is at least as long as each of its pulses. -/
theorem length_le_duration {b : Block} {channel : Channel} {pulse : Pulse}
    (h : b.pulses.get? channel = some pulse) : pulse.length ≤ b.duration := by
  have hmem : pulse ∈ b.pulses.values := Table.mem_values_iff.mpr ⟨channel, h⟩
  exact List.le_max_of_mem (List.mem_cons_of_mem 0 (List.mem_map_of_mem hmem))

end Block

namespace Pulse

theorem placed_mem_cues (p : Pulse) (blockLength : Nat) (alignment : Alignment) (cutoff : Nat) :
    Cue.ofPulse p (p.placedShape blockLength alignment cutoff) ∈
      p.cues blockLength alignment cutoff := by
  unfold cues placedShape
  dsimp only
  split
  · exact List.mem_singleton.mpr rfl
  · rw [List.mem_append, List.mem_cons]
    exact Or.inr (Or.inl rfl)

end Pulse

section

variable {S : List (UInt64 × UInt64) → Prop} {P : WaveformLibrary → Prop}
  {E : CompileError → Prop} (hR : Regime S P E)

include hR

namespace Compilation

theorem keeps_register (channel : Channel) : Keeps P E (register channel) :=
  fun lib hlib => ⟨hR.register lib channel hlib, fun _ he => nomatch he⟩

theorem keeps_store (channel : Channel) {w : Waveform} (hw : S w.content) :
    Keeps P E (store channel w) :=
  fun lib hlib => hR.insert lib channel w hlib hw

/-- A step on a library of its own leaves the current one alone. -/
theorem keeps_apart {α : Type} {step : Compilation α} (h : Keeps P E step) :
    Keeps P E (apart step) := by
  intro lib hlib
  obtain ⟨-, herror⟩ := h .empty hR.empty
  refine ⟨hlib, ?_⟩
  intro e he
  unfold apart at he
  cases hanswer : (step .empty).answer with
  | error err =>
    simp only [hanswer, Except.map, Except.error.injEq] at he
    subst he
    exact herror err hanswer
  | ok a => simp [hanswer, Except.map] at he

end Compilation

namespace Schedule

/-- A pulse fits into its block, so only the storing of its shape can fail. -/
theorem keeps_place {cutoff : Nat} {b : Block} {channel : Channel}
    (hcues : ∀ q ∈ b.cues cutoff channel, S q.shape.content) :
    Keeps P E (place cutoff b channel) := by
  unfold place
  unfold Block.cues at hcues
  cases hp : b.pulses.get? channel with
  | none => exact keeps_pure _
  | some pulse =>
    simp only [hp] at hcues ⊢
    have hfits := Block.length_le_duration hp
    have hplace := pulse.place_eq b.duration b.alignment cutoff
    rw [if_neg (by omega)] at hplace
    refine keeps_bind (keeps_ofExcept ?_) ?_
    · intro e he
      rw [hplace] at he
      cases he
    · intro placement lib lib' hyields
      obtain ⟨hanswer, _⟩ := yields_ofExcept_iff.mp hyields
      rw [hplace] at hanswer
      cases hanswer
      have hshape := hcues _ (pulse.placed_mem_cues b.duration b.alignment cutoff)
      exact keeps_bind (keeps_store hR channel hshape) fun _ _ _ _ => keeps_pure _

theorem keeps_extend {cutoff : Nat} {b : Block} {lists : ChannelLists}
    (hcues : ∀ cl ∈ lists, ∀ q ∈ b.cues cutoff cl.1, S q.shape.content) :
    Keeps P E (extend cutoff b lists) := by
  induction lists with
  | nil => exact keeps_pure _
  | cons cl rest ih =>
    have hfirst := keeps_place hR (hcues cl (List.mem_cons_self ..))
    have hrest := ih fun cl' hcl' => hcues cl' (List.mem_cons_of_mem _ hcl')
    exact keeps_bind hfirst fun _ _ _ _ => keeps_bind hrest fun _ _ _ _ => keeps_pure _

theorem keeps_extendAll {cutoff index : Nat} {blocks : List Block} {lists : ChannelLists}
    (hcues : ∀ cl ∈ lists, ∀ q ∈ score cutoff cl.1 blocks, S q.shape.content) :
    Keeps P E (extendAll cutoff index blocks lists) := by
  induction blocks generalizing index lists with
  | nil => exact keeps_pure _
  | cons b rest ih =>
    unfold extendAll
    split
    · rename_i hb
      simp only [score_cons_of_zero cutoff _ rest hb] at hcues
      exact keeps_bind (keeps_report _) fun _ _ _ _ => ih hcues
    · rename_i hb
      simp only [score_cons_of_ne cutoff _ rest hb, List.mem_append] at hcues
      have hfirst := keeps_extend hR fun cl hcl q hq => hcues cl hcl q (Or.inl hq)
      refine keeps_bind hfirst ?_
      intro lists' lib lib' hyields
      obtain ⟨rfl, -⟩ := extend_yields hyields
      apply ih
      intro cl hcl q hq
      obtain ⟨old, hold, rfl⟩ := List.mem_map.mp hcl
      exact hcues old hold q (Or.inr hq)

theorem keeps_registerAll (channels : List Channel) : Keeps P E (registerAll channels) := by
  induction channels with
  | nil => exact keeps_pure _
  | cons channel rest ih => exact keeps_bind (keeps_register hR channel) fun _ _ _ _ => ih

theorem keeps_build {cutoff : Nat} {blocks : List Block}
    (hcues : ∀ c ∈ channels blocks, ∀ q ∈ score cutoff c blocks, S q.shape.content) :
    Keeps P E (build cutoff blocks) := by
  refine keeps_bind (keeps_registerAll hR _) fun _ _ _ _ => ?_
  refine keeps_bind (keeps_extendAll hR ?_) fun _ _ _ _ => ?_
  · intro cl hcl
    obtain ⟨c, hc, rfl⟩ := List.mem_map.mp hcl
    exact hcues c hc
  · exact keeps_bind (keeps_report _) fun _ _ _ _ => keeps_pure _

end Schedule

/-! ## The frame pass -/

namespace Frame

omit hR in
/-- An entry that asks for one sample is padding, and padding is constant. -/
theorem source_completes (detect : Bool) {sources : WaveformLibrary} {channel : Channel}
    (index : Nat) {q : Cue} (hplain : q.Plain)
    (hheld : sources.Holds channel q.entry.sourceKey q.shape) :
    ∃ src, source detect sources channel index q.entry = .ok src := by
  obtain ⟨stored, hget, hcontent⟩ := hheld
  have hfit : (q.entry.isTimeAmplitude && !stored.isConstant) = false := by
    rw [Waveform.isConstant_congr hcontent]
    rcases hplain with ⟨n, _, rfl⟩ | ⟨pulse, shape, rfl⟩
    · rfl
    · rfl
  rw [source_eq_collapse hget, collapse, hfit]
  simp only [Bool.false_eq_true, if_false]
  split
  · exact ⟨_, rfl⟩
  · exact ⟨_, rfl⟩

/-- Every entry finds a source that suits it, so only the storing of what is turned can fail. -/
theorem keeps_turn {detect : Bool} {sources : WaveformLibrary} {channel : Channel} (index : Nat)
    {frame : Binary64} {cues : List Cue} {lib : WaveformLibrary} (hplain : ∀ q ∈ cues, q.Plain)
    (hheld : ∀ q ∈ cues, sources.Holds channel q.entry.sourceKey q.shape)
    (hcues : ∀ q ∈ turnedScore detect frame cues, S q.shape.content) (hlib : P lib) :
    P (turn detect sources channel index frame (cues.map Cue.entry) lib).library ∧
      ∀ e, (turn detect sources channel index frame (cues.map Cue.entry) lib).answer = .error e →
        E e := by
  induction cues generalizing index frame lib with
  | nil => exact ⟨hlib, fun _ he => nomatch he⟩
  | cons q rest ih =>
    have hq := List.mem_cons_self (a := q) (l := rest)
    obtain ⟨src, hsrc⟩ := source_completes detect index (hplain q hq) (hheld q hq)
    have hcontent := (source_ok (hheld q hq) hsrc).2
    have hturned : S (src.shape.rotate (q.entry.phase + frame)).content := by
      rw [Waveform.content_rotate _ hcontent]
      exact hcues _ (List.mem_cons_self ..)
    obtain ⟨hafter, herror⟩ := hR.insert lib channel _ hlib hturned
    rw [List.map_cons, turn, hsrc]
    dsimp only
    generalize lib.insert channel (src.shape.rotate (q.entry.phase + frame)) = inserted at *
    obtain ⟨after, answer⟩ := inserted
    cases answer with
    | error err =>
      refine ⟨hafter, ?_⟩
      intro e he
      cases he
      exact herror err rfl
    | ok key =>
      exact ih (index + 1) (fun p hp => hplain p (List.mem_cons_of_mem _ hp))
        (fun p hp => hheld p (List.mem_cons_of_mem _ hp))
        (fun p hp => hcues p (List.mem_cons_of_mem _ hp)) hafter

theorem keeps_step {detect : Bool} {sources : WaveformLibrary} {channel : Channel}
    {cues : List Cue} (hplain : ∀ q ∈ cues, q.Plain)
    (hheld : ∀ q ∈ cues, sources.Holds channel q.entry.sourceKey q.shape)
    (hcues : ∀ q ∈ turnedScore detect .zero cues, S q.shape.content) :
    Keeps P E (step detect sources channel (cues.map Cue.entry)) := by
  intro lib hlib
  obtain ⟨_, hlibrary, hanswer⟩ := apply_eq detect sources channel (cues.map Cue.entry) lib
  obtain ⟨hafter, herror⟩ :=
    keeps_turn hR 0 hplain hheld hcues (hR.register lib channel hlib)
  unfold step
  dsimp only
  rw [hlibrary, hanswer]
  refine ⟨hafter, ?_⟩
  intro e he
  generalize (turn detect sources channel 0 .zero (cues.map Cue.entry)
    (lib.register channel)).answer = answer at he herror
  cases answer with
  | error err =>
    cases he
    exact herror e rfl
  | ok final => cases he

theorem keeps_applyAll {detect : Bool} {sources : WaveformLibrary} {cs : List Channel}
    {cues : Channel → List Cue} (hplain : ∀ c ∈ cs, ∀ q ∈ cues c, q.Plain)
    (hheld : ∀ c ∈ cs, ∀ q ∈ cues c, sources.Holds c q.entry.sourceKey q.shape)
    (hcues : ∀ c ∈ cs, ∀ q ∈ turnedScore detect .zero (cues c), S q.shape.content) :
    Keeps P E (applyAll detect sources (cs.map fun c => (c, (cues c).map Cue.entry))) := by
  induction cs with
  | nil => exact keeps_pure _
  | cons c rest ih =>
    have hc := List.mem_cons_self (a := c) (l := rest)
    have hfirst := keeps_step hR (hplain c hc) (hheld c hc) (hcues c hc)
    have hrest := ih (fun d hd => hplain d (List.mem_cons_of_mem _ hd))
      (fun d hd => hheld d (List.mem_cons_of_mem _ hd))
      (fun d hd => hcues d (List.mem_cons_of_mem _ hd))
    exact keeps_bind hfirst fun _ _ _ _ => keeps_bind hrest fun _ _ _ _ => keeps_pure _

end Frame

/-! ## Sequences -/

namespace Program

/-- All contents that come up while a sequence is compiled: before turning and after. -/
def ContentsIn (S : List (UInt64 × UInt64) → Prop) (settings : Settings) (blocks : List Block) :
    Prop :=
  ∀ c ∈ Schedule.channels blocks,
    (∀ q ∈ Schedule.score settings.paddingCutoff c blocks, S q.shape.content) ∧
      ∀ q ∈ played settings c blocks, S q.shape.content

omit hR in
theorem contentsIn_true (settings : Settings) (blocks : List Block) :
    ContentsIn (fun _ => True) settings blocks :=
  fun _ _ => ⟨fun _ _ => trivial, fun _ _ => trivial⟩

theorem keeps_compileOne {settings : Settings} {blocks : List Block}
    (hcontents : ContentsIn S settings blocks) : Keeps P E (compileOne settings blocks) := by
  have hbuild := Schedule.keeps_build hR fun c hc => (hcontents c hc).1
  refine keeps_bind (keeps_apart hR hbuild) ?_
  rintro ⟨built, sources⟩ lib lib' hyields
  obtain ⟨hbuilt, _⟩ := yields_apart_iff.mp hyields
  have hlists := Schedule.build_lists hbuilt
  subst hlists
  exact Frame.keeps_applyAll hR (fun c _ q hq => Schedule.plain_of_mem_score hq)
    (Schedule.build_holds hbuilt) fun c hc => (hcontents c hc).2

theorem keeps_compileFrom {settings : Settings} (index : Nat) {sequences : List (List Block)}
    (hcontents : ∀ blocks ∈ sequences, ContentsIn S settings blocks) :
    Keeps P E (compileFrom settings index sequences) := by
  induction sequences generalizing index with
  | nil => exact keeps_pure _
  | cons blocks rest ih =>
    have hfirst := keeps_compileOne hR (hcontents blocks (List.mem_cons_self ..))
    have hrest := ih (index + 1) fun b hb => hcontents b (List.mem_cons_of_mem _ hb)
    exact keeps_bind hfirst fun _ _ _ _ => keeps_bind (keeps_report _) fun _ _ _ _ =>
      keeps_bind hrest fun _ _ _ _ => keeps_pure _

end Program

end

/-! ## The program -/

namespace Program

/-- A compilation fails over its channels before anything is compiled, or else over a sequence. -/
theorem compile_error {settings : Settings} {sequences : Sequences} {lib : WaveformLibrary}
    {e : CompileError} (h : (compile settings sequences lib).answer = .error e) :
    channels sequences.blocks = .error e ∨
      ∃ cs, channels sequences.blocks = .ok cs ∧
        (compileFrom settings.bounded 0 sequences.blocks lib).answer = .error e := by
  unfold compile at h
  obtain h | ⟨_, _, hreport, h⟩ := answer_bind_error h
  · cases h
  obtain rfl := yields_report_iff.mp hreport
  obtain h | ⟨cs, _, hchannels, h⟩ := answer_bind_error h
  · exact Or.inl h
  obtain ⟨hcs, rfl⟩ := yields_ofExcept_iff.mp hchannels
  obtain h | ⟨compiled, _, _, h⟩ := answer_bind_error h
  · exact Or.inr ⟨cs, hcs, h⟩
  -- What is left only reads the library, reports and answers.
  cases h

end Program

end PulseSequencer
