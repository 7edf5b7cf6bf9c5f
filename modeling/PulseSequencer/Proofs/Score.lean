-- The score of a channel: its entries, each with the samples it stands for,
-- written down from the blocks alone. The link lists that a sequence is built
-- into are the entries of the score, and the library of the sequence holds the
-- samples.
import PulseSequencer.Proofs.Growth
import PulseSequencer.Schedule

namespace PulseSequencer

open Compilation

-- The proofs never look into a key.
attribute [local irreducible] Waveform.key

/-! ## Cues -/

/-- An entry and the samples it stands for. -/
structure Cue where
  entry : Entry
  shape : Waveform

namespace Cue

/-- Zero output, which stands for a single zero sample. -/
def padding (length : Nat) : Cue := ⟨Entry.padding length, .zeros 1⟩

/-- A pulse that is played as `shape`. -/
def ofPulse (pulse : Pulse) (shape : Waveform) : Cue :=
  ⟨Entry.ofPulse shape.key shape.length pulse, shape⟩

/-- As a sequence is built: zero output of some length, or a pulse. -/
def Plain (q : Cue) : Prop := (∃ n, 0 < n ∧ q = padding n) ∨ ∃ pulse shape, q = ofPulse pulse shape

@[simp] theorem sourceKey_padding (length : Nat) : (padding length).entry.sourceKey = zeroKey := rfl

@[simp] theorem shape_padding (length : Nat) : (padding length).shape = .zeros 1 := rfl

theorem plain_padding {n : Nat} (h : 0 < n) : (padding n).Plain := Or.inl ⟨n, h, rfl⟩

theorem plain_ofPulse (pulse : Pulse) (shape : Waveform) : (ofPulse pulse shape).Plain :=
  Or.inr ⟨pulse, shape, rfl⟩

end Cue

/-- A cue of its own for padding, if there is any. -/
def paddingCues (length : Nat) : List Cue := if length = 0 then [] else [Cue.padding length]

theorem map_entry_paddingCues (length : Nat) :
    (paddingCues length).map Cue.entry = Placement.paddingEntries length := by
  unfold paddingCues Placement.paddingEntries
  split <;> rfl

theorem mem_paddingCues {q : Cue} {length : Nat} (h : q ∈ paddingCues length) :
    0 < length ∧ q = Cue.padding length := by
  unfold paddingCues at h
  split at h
  · simp at h
  · simp only [List.mem_singleton] at h
    exact ⟨by omega, h⟩

namespace Pulse

/-- Whether the padding becomes part of the pulse. -/
def IsMerged (p : Pulse) (blockLength : Nat) (alignment : Alignment) (cutoff : Nat) : Prop :=
  blockLength - p.length = 0 ∨ blockLength - p.length < alignment.mergeBound cutoff

instance (p : Pulse) (blockLength : Nat) (alignment : Alignment) (cutoff : Nat) :
    Decidable (p.IsMerged blockLength alignment cutoff) :=
  inferInstanceAs (Decidable (_ ∨ _))

/-- What is stored for the pulse in a block. -/
def placedShape (p : Pulse) (blockLength : Nat) (alignment : Alignment) (cutoff : Nat) :
    Waveform :=
  let margins := alignment.split (blockLength - p.length)
  if p.IsMerged blockLength alignment cutoff then p.samples.pad margins.1 margins.2 else p.samples

/-- The cues that fill a block with the pulse. -/
def cues (p : Pulse) (blockLength : Nat) (alignment : Alignment) (cutoff : Nat) : List Cue :=
  let margins := alignment.split (blockLength - p.length)
  if p.IsMerged blockLength alignment cutoff then
    [Cue.ofPulse p (p.samples.pad margins.1 margins.2)]
  else paddingCues margins.1 ++ Cue.ofPulse p p.samples :: paddingCues margins.2

theorem place_eq (p : Pulse) (blockLength : Nat) (alignment : Alignment) (cutoff : Nat) :
    p.place blockLength alignment cutoff =
      if blockLength < p.length then .error (.pulseExceedsBlock p.length blockLength)
      else .ok ⟨p.placedShape blockLength alignment cutoff,
        (p.cues blockLength alignment cutoff).map Cue.entry⟩ := by
  unfold place
  split
  · rfl
  · by_cases hm : p.IsMerged blockLength alignment cutoff
    · rw [placedShape, cues, if_pos hm, if_pos hm]
      exact if_pos hm
    · rw [placedShape, cues, if_neg hm, if_neg hm, List.map_append, List.map_cons,
        map_entry_paddingCues, map_entry_paddingCues]
      exact if_neg hm

/-- Among the cues of a pulse there is padding, and the pulse as it is stored. -/
theorem mem_cues {p : Pulse} {blockLength : Nat} {alignment : Alignment} {cutoff : Nat} {q : Cue}
    (h : q ∈ p.cues blockLength alignment cutoff) :
    (∃ n, 0 < n ∧ q = Cue.padding n) ∨
      q = Cue.ofPulse p (p.placedShape blockLength alignment cutoff) := by
  unfold cues at h
  unfold placedShape
  dsimp only at h ⊢
  split at h
  · rename_i hm
    rw [if_pos hm]
    exact Or.inr (List.mem_singleton.mp h)
  · rename_i hm
    rw [if_neg hm]
    rw [List.mem_append, List.mem_cons] at h
    rcases h with h | h | h
    · exact Or.inl ⟨_, mem_paddingCues h⟩
    · exact Or.inr h
    · exact Or.inl ⟨_, mem_paddingCues h⟩

end Pulse

/-- The cues of one block on one channel. -/
def Block.cues (cutoff : Nat) (b : Block) (channel : Channel) : List Cue :=
  match b.pulses.get? channel with
  | none => [Cue.padding b.duration]
  | some pulse => pulse.cues b.duration b.alignment cutoff

namespace Schedule

/-- The cues of a channel for a whole sequence. A block without duration has none. -/
def score (cutoff : Nat) (channel : Channel) (blocks : List Block) : List Cue :=
  (blocks.filter (·.duration ≠ 0)).flatMap (·.cues cutoff channel)

theorem score_nil (cutoff : Nat) (channel : Channel) : score cutoff channel [] = [] := rfl

theorem score_cons_of_zero (cutoff : Nat) (channel : Channel) {b : Block} (rest : List Block)
    (h : b.duration = 0) : score cutoff channel (b :: rest) = score cutoff channel rest := by
  simp [score, h]

theorem score_cons_of_ne (cutoff : Nat) (channel : Channel) {b : Block} (rest : List Block)
    (h : b.duration ≠ 0) :
    score cutoff channel (b :: rest) = b.cues cutoff channel ++ score cutoff channel rest := by
  simp [score, h]

theorem plain_of_mem_cues {cutoff : Nat} {b : Block} {channel : Channel} (hb : b.duration ≠ 0)
    {q : Cue} (h : q ∈ b.cues cutoff channel) : q.Plain := by
  unfold Block.cues at h
  split at h
  · rw [List.mem_singleton] at h
    subst h
    exact Cue.plain_padding (by omega)
  · rcases Pulse.mem_cues h with hq | rfl
    · exact Or.inl hq
    · exact Cue.plain_ofPulse _ _

theorem plain_of_mem_score {cutoff : Nat} {channel : Channel} {blocks : List Block} {q : Cue}
    (h : q ∈ score cutoff channel blocks) : q.Plain := by
  unfold score at h
  rw [List.mem_flatMap] at h
  obtain ⟨b, hb, hq⟩ := h
  rw [List.mem_filter, decide_eq_true_eq] at hb
  exact plain_of_mem_cues hb.2 hq

/-! ## Steps of the builder -/

theorem grows_place (cutoff : Nat) (b : Block) (channel : Channel) :
    Grows (place cutoff b channel) := by
  unfold place
  split
  · exact grows_pure _
  · exact grows_bind (grows_ofExcept _) fun _ => grows_bind (grows_store _ _) fun _ => grows_pure _

theorem grows_extend (cutoff : Nat) (b : Block) (lists : ChannelLists) :
    Grows (extend cutoff b lists) := by
  induction lists with
  | nil => exact grows_pure _
  | cons cl rest ih =>
    exact grows_bind (grows_place cutoff b cl.1) fun _ => grows_bind ih fun _ => grows_pure _

theorem grows_extendAll (cutoff index : Nat) (blocks : List Block) (lists : ChannelLists) :
    Grows (extendAll cutoff index blocks lists) := by
  induction blocks generalizing index lists with
  | nil => exact grows_pure _
  | cons b rest ih =>
    unfold extendAll
    split
    · exact grows_bind (grows_report _) fun _ => ih _ _
    · exact grows_bind (grows_extend cutoff b lists) fun _ => ih _ _

theorem grows_registerAll (channels : List Channel) : Grows (registerAll channels) := by
  induction channels with
  | nil => exact grows_pure _
  | cons channel rest ih => exact grows_bind (grows_register channel) fun _ => ih

theorem place_yields {cutoff : Nat} {b : Block} {channel : Channel} {entries : LinkList}
    {lib lib' : WaveformLibrary} (h : (place cutoff b channel).Yields lib entries lib') :
    entries = (b.cues cutoff channel).map Cue.entry ∧
      (lib.Holds channel zeroKey (.zeros 1) →
        ∀ q ∈ b.cues cutoff channel, lib'.Holds channel q.entry.sourceKey q.shape) := by
  have hgrow := h.growsTo (grows_place cutoff b channel)
  unfold place at h
  unfold Block.cues
  cases hp : b.pulses.get? channel with
  | none =>
    simp only [hp, yields_pure_iff] at h
    obtain ⟨rfl, rfl⟩ := h
    refine ⟨rfl, ?_⟩
    intro hzero q hq
    rw [List.mem_singleton] at hq
    subst hq
    rw [Cue.sourceKey_padding, Cue.shape_padding]
    exact hzero
  | some pulse =>
    simp only [hp, yields_bind_iff, yields_ofExcept_iff, yields_store_iff, yields_pure_iff] at h
    obtain ⟨placement, _, ⟨hplace, rfl⟩, key, _, ⟨hkey, rfl⟩, rfl, rfl⟩ := h
    rw [Pulse.place_eq] at hplace
    split at hplace
    · cases hplace
    · simp only [Except.ok.injEq] at hplace
      subst hplace
      refine ⟨rfl, ?_⟩
      intro hzero q hq
      rcases Pulse.mem_cues hq with ⟨n, _, rfl⟩ | rfl
      · rw [Cue.sourceKey_padding, Cue.shape_padding]
        exact hgrow.holds hzero
      · exact (WaveformLibrary.holds_of_insert_ok hkey).2

theorem extend_yields {cutoff : Nat} {b : Block} {lists lists' : ChannelLists}
    {lib lib' : WaveformLibrary} (h : (extend cutoff b lists).Yields lib lists' lib') :
    lists' = lists.map (fun cl => (cl.1, cl.2 ++ (b.cues cutoff cl.1).map Cue.entry)) ∧
      ((∀ cl ∈ lists, lib.Holds cl.1 zeroKey (.zeros 1)) →
        ∀ cl ∈ lists, ∀ q ∈ b.cues cutoff cl.1, lib'.Holds cl.1 q.entry.sourceKey q.shape) := by
  induction lists generalizing lists' lib with
  | nil =>
    simp only [extend, yields_pure_iff] at h
    obtain ⟨rfl, rfl⟩ := h
    exact ⟨rfl, by simp⟩
  | cons cl rest ih =>
    obtain ⟨channel, list⟩ := cl
    simp only [extend, yields_bind_iff, yields_pure_iff] at h
    obtain ⟨entries, middle, hplace, rest', after, hrest, rfl, rfl⟩ := h
    obtain ⟨rfl, hheld⟩ := place_yields hplace
    obtain ⟨rfl, hrestHeld⟩ := ih hrest
    refine ⟨rfl, ?_⟩
    intro hzero cl hcl q hq
    rcases List.mem_cons.mp hcl with rfl | hcl
    · have hq' := hheld (hzero _ (List.mem_cons_self ..)) q hq
      exact (hrest.growsTo (grows_extend cutoff b rest)).holds hq'
    · refine hrestHeld ?_ cl hcl q hq
      intro cl' hcl'
      exact (hplace.growsTo (grows_place cutoff b channel)).holds
        (hzero cl' (List.mem_cons_of_mem _ hcl'))

theorem extendAll_yields {cutoff index : Nat} {blocks : List Block} {lists lists' : ChannelLists}
    {lib lib' : WaveformLibrary}
    (h : (extendAll cutoff index blocks lists).Yields lib lists' lib') :
    lists' = lists.map (fun cl => (cl.1, cl.2 ++ (score cutoff cl.1 blocks).map Cue.entry)) ∧
      ((∀ cl ∈ lists, lib.Holds cl.1 zeroKey (.zeros 1)) →
        ∀ cl ∈ lists, ∀ q ∈ score cutoff cl.1 blocks,
          lib'.Holds cl.1 q.entry.sourceKey q.shape) := by
  induction blocks generalizing index lists lib with
  | nil =>
    simp only [extendAll, yields_pure_iff] at h
    obtain ⟨rfl, rfl⟩ := h
    simp [score_nil]
  | cons b rest ih =>
    by_cases hb : b.duration = 0
    · simp only [extendAll, hb, if_true, yields_bind_iff, yields_report_iff] at h
      obtain ⟨_, _, rfl, h⟩ := h
      simp only [score_cons_of_zero cutoff _ rest hb]
      exact ih h
    · simp only [extendAll, hb, if_false, yields_bind_iff] at h
      obtain ⟨middle, between, hextend, h⟩ := h
      have hgrow := h.growsTo (grows_extendAll cutoff (index + 1) rest middle)
      obtain ⟨rfl, hheld⟩ := extend_yields hextend
      obtain ⟨rfl, hrestHeld⟩ := ih h
      simp only [score_cons_of_ne cutoff _ rest hb]
      refine ⟨by simp [Function.comp_def], ?_⟩
      intro hzero cl hcl q hq
      rcases List.mem_append.mp hq with hq | hq
      · exact hgrow.holds (hheld hzero cl hcl q hq)
      · refine hrestHeld ?_ _ (List.mem_map_of_mem hcl) q hq
        intro cl' hcl'
        obtain ⟨old, hold, rfl⟩ := List.mem_map.mp hcl'
        exact (hextend.growsTo (grows_extend cutoff b lists)).holds (hzero old hold)

/-! ## A whole sequence -/

/-- Every channel of the library has the zero sample. -/
def HasZeros (lib : WaveformLibrary) : Prop :=
  ∀ channel ∈ lib.channels.keys, lib.Holds channel zeroKey (.zeros 1)

theorem hasZeros_empty : HasZeros .empty := by
  intro channel h
  cases h

theorem hasZeros_register {lib : WaveformLibrary} (channel : Channel) (h : HasZeros lib) :
    HasZeros (lib.register channel) := by
  intro other hother
  by_cases hnew : channel ∈ lib.channels.keys
  · rw [WaveformLibrary.register_of_mem hnew] at hother ⊢
    exact h other hother
  · rw [WaveformLibrary.keys_register, if_neg hnew, List.mem_append, List.mem_singleton] at hother
    rcases hother with hother | rfl
    · exact (lib.growsTo_register channel).holds (h other hother)
    · exact WaveformLibrary.holds_register hnew

theorem registerAll_yields {channels : List Channel} {u : Unit} {lib lib' : WaveformLibrary}
    (h : (registerAll channels).Yields lib u lib') (hz : HasZeros lib) :
    HasZeros lib' ∧ ∀ channel ∈ channels, channel ∈ lib'.channels.keys := by
  induction channels generalizing lib with
  | nil =>
    simp only [registerAll, yields_pure_iff] at h
    obtain ⟨_, rfl⟩ := h
    exact ⟨hz, by simp⟩
  | cons channel rest ih =>
    simp only [registerAll, yields_bind_iff, yields_register_iff] at h
    obtain ⟨_, _, rfl, h⟩ := h
    obtain ⟨hz', hrest⟩ := ih h (hasZeros_register channel hz)
    refine ⟨hz', ?_⟩
    intro other hother
    rcases List.mem_cons.mp hother with rfl | hother
    · have hgrow := h.growsTo (grows_registerAll rest)
      exact hgrow.channels.subset (WaveformLibrary.mem_keys_register lib other)
    · exact hrest other hother

/-- The lists of a sequence are the entries of its scores, whatever library it is built with. -/
theorem build_lists {cutoff : Nat} {blocks : List Block} {lists : ChannelLists}
    {lib lib' : WaveformLibrary} (h : (build cutoff blocks).Yields lib lists lib') :
    lists = (channels blocks).map fun c => (c, (score cutoff c blocks).map Cue.entry) := by
  simp only [build, yields_bind_iff, yields_report_iff, yields_pure_iff] at h
  obtain ⟨_, _, _, _, _, hextend, _, _, rfl, rfl, rfl⟩ := h
  rw [(extendAll_yields hextend).1]
  simp [Function.comp_def]

/-- A library of its own holds the samples of every cue of the sequence. -/
theorem build_holds {cutoff : Nat} {blocks : List Block} {lists : ChannelLists}
    {sources : WaveformLibrary} (h : (build cutoff blocks).Yields .empty lists sources) :
    ∀ c ∈ channels blocks, ∀ q ∈ score cutoff c blocks,
      sources.Holds c q.entry.sourceKey q.shape := by
  simp only [build, yields_bind_iff, yields_report_iff, yields_pure_iff] at h
  obtain ⟨_, _, hregister, _, _, hextend, _, _, rfl, rfl, rfl⟩ := h
  obtain ⟨hzeros, hregistered⟩ := registerAll_yields hregister hasZeros_empty
  intro c hc
  refine (extendAll_yields hextend).2 ?_ (c, []) (List.mem_map_of_mem hc)
  intro cl hcl
  obtain ⟨channel, hchannel, rfl⟩ := List.mem_map.mp hcl
  exact hzeros channel (hregistered channel hchannel)

end Schedule

end PulseSequencer
