-- A pulse in its block. However a placement is written down, its entries spread
-- out to the pulse between its margins, sample by sample. The cutoff decides how
-- many entries that takes, and nothing else.
import PulseSequencer.Proofs.Signal
import PulseSequencer.Proofs.Synchrony

namespace PulseSequencer

attribute [local irreducible] Waveform.key

namespace Placement

/-- The samples that the entries stand for: zeros where one sample is held, and the shape for
every other entry. -/
def spread (placement : Placement) : List Amplitude :=
  placement.entries.flatMap fun e =>
    if e.isTimeAmplitude then .replicate e.length .zero else placement.shape.samples

/-- The placement is the pulse with so many zeros before and behind it. One entry plays the pulse,
with its phase and its frame change, and as many samples as the shape has. Every other entry is
silence that lasts and turns nothing. -/
structure Fills (placement : Placement) (p : Pulse) (before after : Nat) : Prop where
  spread : placement.spread =
    List.replicate before .zero ++ p.samples.samples ++ List.replicate after .zero
  time : (placement.entries.map Entry.length).sum = before + p.length + after
  pulse : placement.entries.filter (!·.isTimeAmplitude) =
    [{ key := placement.shape.key, sourceKey := placement.shape.key,
       length := placement.shape.length, phase := p.phase, frameChange := p.frameChange }]
  silence : ∀ e ∈ placement.entries, e.isTimeAmplitude = true → 0 < e.length ∧
    e = { key := zeroKey, sourceKey := zeroKey, length := e.length, isTimeAmplitude := true,
          phase := .zero, frameChange := .zero }

/-! ## Padding of its own -/

theorem mem_paddingEntries {e : Entry} {n : Nat} (h : e ∈ paddingEntries n) :
    0 < n ∧ e = Entry.padding n := by
  unfold paddingEntries at h
  split at h
  · cases h
  · exact ⟨by omega, List.mem_singleton.mp h⟩

@[simp] theorem filter_paddingEntries (n : Nat) :
    (paddingEntries n).filter (!·.isTimeAmplitude) = [] := by
  rw [List.filter_eq_nil_iff]
  intro e he
  rw [(mem_paddingEntries he).2]
  simp [Entry.padding]

@[simp] theorem sum_length_paddingEntries (n : Nat) :
    ((paddingEntries n).map Entry.length).sum = n := by
  unfold paddingEntries
  split
  · simp [*]
  · simp [Entry.padding]

@[simp] theorem flatMap_paddingEntries (n : Nat) (samples : List Amplitude) :
    ((paddingEntries n).flatMap fun e =>
      if e.isTimeAmplitude then .replicate e.length .zero else samples) =
        List.replicate n .zero := by
  unfold paddingEntries
  split
  · simp [*]
  · simp [Entry.padding]

@[simp] theorem length_paddingEntries_eq_zero_iff (n : Nat) :
    (paddingEntries n).length = 0 ↔ n = 0 := by
  unfold paddingEntries
  split <;> simp [*]

/-! ## The two ways to write a placement down -/

theorem fills_merged (p : Pulse) (before after : Nat) :
    (merged p before after).Fills p before after where
  spread := by simp [Placement.spread, merged, Entry.ofPulse, Waveform.pad]
  time := by simp [merged, Entry.ofPulse, Pulse.length]
  pulse := by simp [merged, Entry.ofPulse]
  silence := by simp [merged, Entry.ofPulse]

theorem fills_separate (p : Pulse) (before after : Nat) :
    (separate p before after).Fills p before after where
  spread := by simp [Placement.spread, separate, Entry.ofPulse]
  time := by simp [separate, Entry.ofPulse, Nat.add_assoc]
  pulse := by simp [separate, Entry.ofPulse, Pulse.length]
  silence := by
    intro e he hflag
    rw [separate, List.mem_append, List.mem_cons] at he
    rcases he with he | rfl | he
    · obtain ⟨hpos, rfl⟩ := mem_paddingEntries he
      exact ⟨hpos, rfl⟩
    · cases hflag
    · obtain ⟨hpos, rfl⟩ := mem_paddingEntries he
      exact ⟨hpos, rfl⟩

theorem length_entries_separate (p : Pulse) (before after : Nat) :
    (separate p before after).entries.length = 1 ↔ before + after = 0 := by
  have hbefore := length_paddingEntries_eq_zero_iff before
  have hafter := length_paddingEntries_eq_zero_iff after
  simp only [separate, List.length_append, List.length_cons]
  omega

end Placement

namespace Alignment

theorem margins_sum (gap : Nat) (a : Alignment) : (a.margins gap).1 + (a.margins gap).2 = gap := by
  rw [← split_eq_margins]
  exact a.split_sum gap

theorem mergeBound_eq (cutoff : Nat) (a : Alignment) :
    a.mergeBound cutoff = if a = .center then min (2 * cutoff) (2 ^ 64 - 1) else cutoff := by
  cases a <;> rfl

end Alignment

namespace Pulse

theorem place_eq_error_iff (p : Pulse) (blockLength : Nat) (alignment : Alignment) (cutoff : Nat)
    (e : CompileError) :
    p.place blockLength alignment cutoff = .error e ↔
      e = .pulseExceedsBlock p.length blockLength ∧ blockLength < p.length := by
  rw [place_eq]
  split
  · rename_i hlong
    simp only [Except.error.injEq, hlong, and_true]
    exact eq_comm
  · rename_i hfits
    simp [hfits]

/-- A pulse that fits is written down in one of the two ways. -/
theorem place_of_fits {p : Pulse} {blockLength : Nat} (h : p.length ≤ blockLength)
    (alignment : Alignment) (cutoff : Nat) :
    let margins := alignment.margins (blockLength - p.length)
    p.place blockLength alignment cutoff = .ok
      (if p.IsMerged blockLength alignment cutoff then .merged p margins.1 margins.2
      else .separate p margins.1 margins.2) := by
  dsimp only
  rw [← Alignment.split_eq_margins, place, if_neg (Nat.not_lt.mpr h), apply_ite Except.ok]
  rfl

/-- A placement fills its block, and takes one entry if there is nothing to pad or so little that
it is merged. -/
theorem placed_fills {p : Pulse} {blockLength : Nat} (h : p.length ≤ blockLength)
    (alignment : Alignment) (cutoff : Nat) :
    let margins := alignment.margins (blockLength - p.length)
    ∃ placement, p.place blockLength alignment cutoff = .ok placement ∧
      placement.Fills p margins.1 margins.2 ∧
      (placement.entries.length = 1 ↔ p.IsMerged blockLength alignment cutoff) := by
  refine ⟨_, place_of_fits h alignment cutoff, ?_⟩
  split
  · rename_i hmerged
    exact ⟨Placement.fills_merged p _ _, iff_of_true rfl hmerged⟩
  · rename_i hseparate
    refine ⟨Placement.fills_separate p _ _, ?_⟩
    rw [Placement.length_entries_separate, Alignment.margins_sum]
    exact iff_of_false (fun hnone => hseparate (Or.inl hnone)) hseparate

/-- Placing fails for a pulse that is longer than the block, and for no other. The entries of any
other pulse take the time of the block and spread out to its samples between zeros, the same ones
for every cutoff. One entry is the pulse; all others are silence. There are no others exactly if the
block leaves no gap, or one below the cutoff, which counts twice for a centred pulse as far as a
word can hold it. -/
theorem a_pulse_is_placed_sample_by_sample (p : Pulse) (blockLength : Nat) (alignment : Alignment)
    (cutoff : Nat) :
    (∀ e, p.place blockLength alignment cutoff = .error e ↔
        e = .pulseExceedsBlock p.length blockLength ∧ blockLength < p.length) ∧
      (p.length ≤ blockLength → ∃ placement,
        p.place blockLength alignment cutoff = .ok placement ∧
          let gap := blockLength - p.length
          placement.Fills p (alignment.margins gap).1 (alignment.margins gap).2 ∧
            (placement.entries.map Entry.length).sum = blockLength ∧
            (placement.entries.length = 1 ↔
              gap = 0 ∨ gap < if alignment = .center then min (2 * cutoff) (2 ^ 64 - 1)
                else cutoff)) := by
  refine ⟨p.place_eq_error_iff blockLength alignment cutoff, ?_⟩
  intro hfits
  obtain ⟨placement, hplace, hfills, hsingle⟩ := placed_fills hfits alignment cutoff
  refine ⟨placement, hplace, hfills, ?_, ?_⟩
  · have hmargins := alignment.margins_sum (blockLength - p.length)
    rw [hfills.time]
    omega
  · rw [hsingle, ← Alignment.mergeBound_eq]
    rfl

/-- Around a centred pulse a gap of 23 samples is merged if the cutoff is 12. A gap of 24 is not,
and it is the same silence in entries of its own. -/
theorem a_centred_gap_is_merged_below_twice_the_cutoff :
    let p : Pulse := { samples := .ofReal [.one, .infinity, .one, .nan] }
    (∃ placement, p.place 27 .center 12 = .ok placement ∧ placement.entries.length = 1 ∧
        placement.spread =
          List.replicate 11 .zero ++ p.samples.samples ++ List.replicate 12 .zero) ∧
      ∃ placement, p.place 28 .center 12 = .ok placement ∧ placement.entries.length ≠ 1 ∧
        placement.spread =
          List.replicate 12 .zero ++ p.samples.samples ++ List.replicate 12 .zero := by
  intro p
  obtain ⟨merged, hmerged, hfills, -, hsingle⟩ :=
    (a_pulse_is_placed_sample_by_sample p 27 .center 12).2 (by decide)
  obtain ⟨apart, hapart, hfills', -, hsingle'⟩ :=
    (a_pulse_is_placed_sample_by_sample p 28 .center 12).2 (by decide)
  have hodd : Alignment.center.margins (27 - p.length) = (11, 12) := by decide
  have heven : Alignment.center.margins (28 - p.length) = (12, 12) := by decide
  rw [hodd] at hfills
  rw [heven] at hfills'
  exact ⟨⟨merged, hmerged, hsingle.mpr (by decide), hfills.spread⟩,
    apart, hapart, mt hsingle'.mp (by decide), hfills'.spread⟩

end Pulse

end PulseSequencer
