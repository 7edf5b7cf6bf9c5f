-- The content of a waveform: its samples with the signs of zeros and the
-- payloads of NaNs taken out. Keys, turning, cutting and the test for constants
-- see nothing else, so a stored waveform of the same content is as good.
import PulseSequencer.Proofs.Arithmetic
import PulseSequencer.Waveform

namespace PulseSequencer

/-! ## Samples -/

namespace Amplitude

def canonical (x : Amplitude) : UInt64 × UInt64 := (x.re.canonical, x.im.canonical)

theorem contentEq_iff (x y : Amplitude) : x.contentEq y = true ↔ x.canonical = y.canonical := by
  simp [contentEq, canonical]

/-- A product sees only the content of its factors. -/
theorem canonical_mul {x x' t : Amplitude} (h : x.canonical = x'.canonical) :
    (x * t).canonical = (x' * t).canonical := by
  obtain ⟨hre, him⟩ := Prod.mk.inj h
  exact Prod.ext
    (Binary64.canonical_sub (Binary64.canonical_mul hre rfl) (Binary64.canonical_mul him rfl))
    (Binary64.canonical_add (Binary64.canonical_mul hre rfl) (Binary64.canonical_mul him rfl))

/-- An angle that is no finite number has no place on the unit circle. -/
theorem phasor_of_not_finite {angle : Binary64} (h : angle.isFinite = false) :
    phasor angle = ⟨.nan, .nan⟩ := by
  simp [phasor, Binary64.cos, Binary64.sin, h]

end Amplitude

theorem Binary64.numEq_iff (x y : Binary64) :
    x.numEq y = true ↔ x.canonical = y.canonical ∧ x.isNaN = false := by
  rw [Binary64.canonical_eq_iff]
  obtain ⟨xbits⟩ := x
  obtain ⟨ybits⟩ := y
  simp only [Binary64.numEq, Bool.and_eq_true, Bool.not_eq_true', Bool.or_eq_true, beq_iff_eq,
    Binary64.mk.injEq]
  constructor
  · rintro ⟨⟨hx, -⟩, h | h⟩
    · exact ⟨Or.inl h, hx⟩
    · exact ⟨Or.inr (Or.inl h), hx⟩
  · rintro ⟨h | h | h, hx⟩
    · subst h
      exact ⟨⟨hx, hx⟩, Or.inl rfl⟩
    · refine ⟨⟨hx, ?_⟩, Or.inr h⟩
      rw [Bool.eq_false_iff]
      intro hy
      rw [Binary64.isZero_of_isNaN hy] at h
      exact Bool.false_ne_true h.2
    · rw [hx] at h
      exact absurd h.1 Bool.false_ne_true

/-- Whether a number is a NaN can be read off its canonical form. -/
theorem Binary64.isNaN_congr {x y : Binary64} (h : x.canonical = y.canonical) :
    x.isNaN = y.isNaN := by
  rw [Bool.eq_iff_iff, ← canonical_eq_nan_iff, ← canonical_eq_nan_iff, h]

theorem Amplitude.numEq_iff (x y : Amplitude) :
    x.numEq y = true ↔
      x.canonical = y.canonical ∧ x.re.isNaN = false ∧ x.im.isNaN = false := by
  simp only [numEq, Bool.and_eq_true, Binary64.numEq_iff, canonical, Prod.mk.injEq]
  constructor
  · rintro ⟨⟨h1, h2⟩, h3, h4⟩
    exact ⟨⟨h1, h3⟩, h2, h4⟩
  · rintro ⟨⟨h1, h3⟩, h2, h4⟩
    exact ⟨⟨h1, h2⟩, h3, h4⟩

theorem Amplitude.numEq_congr {x x' y y' : Amplitude} (hx : x.canonical = x'.canonical)
    (hy : y.canonical = y'.canonical) : x.numEq y = x'.numEq y' := by
  obtain ⟨hre, him⟩ := Prod.mk.inj hx
  rw [Bool.eq_iff_iff, numEq_iff, numEq_iff, hx, hy, Binary64.isNaN_congr hre,
    Binary64.isNaN_congr him]

/-! ## Waveforms -/

namespace Waveform

def content (w : Waveform) : List (UInt64 × UInt64) := w.samples.map Amplitude.canonical

@[simp] theorem length_content (w : Waveform) : w.content.length = w.length := by
  simp [content, length]

theorem isEqv_iff (xs ys : List Amplitude) :
    xs.isEqv ys Amplitude.contentEq = true ↔
      xs.map Amplitude.canonical = ys.map Amplitude.canonical := by
  induction xs generalizing ys with
  | nil => cases ys <;> simp [List.isEqv]
  | cons x xs ih =>
    cases ys with
    | nil => simp [List.isEqv]
    | cons y ys => simp [List.isEqv, Amplitude.contentEq_iff, ih]

theorem contentEq_iff (v w : Waveform) : v.contentEq w = true ↔ v.content = w.content :=
  isEqv_iff v.samples w.samples

theorem length_congr {v w : Waveform} (h : v.content = w.content) : v.length = w.length := by
  rw [← length_content, h, length_content]

/-- The bytes that the key is a digest of, from the content alone. -/
theorem encoding_eq (w : Waveform) :
    w.encoding = w.content.flatMap fun x => wordBytes x.1 ++ wordBytes x.2 := by
  simp [encoding, content, Amplitude.canonical, List.flatMap_map]

theorem key_congr {v w : Waveform} (h : v.content = w.content) : v.key = w.key := by
  rw [key, key, encoding_eq, encoding_eq, h]

/-- The number whose digits in base 256 are the bytes, the least significant one first. -/
def bytesValue : List UInt8 → Nat
  | [] => 0
  | b :: rest => b.toNat + 256 * bytesValue rest

/-- A word can be read back from its bytes. -/
theorem bytesValue_wordBytes (a : UInt64) : bytesValue (wordBytes a) = a.toNat := by
  have ha := a.toNat_lt
  simp only [wordBytes, bytesValue, UInt64.toNat_toUInt8, UInt64.toNat_shiftRight,
    Nat.shiftRight_eq_div_pow, UInt64.reduceToNat, Nat.reduceMod, Nat.reducePow]
  omega

theorem wordBytes_injective {a b : UInt64} (h : wordBytes a = wordBytes b) : a = b := by
  apply UInt64.toNat_inj.mp
  rw [← bytesValue_wordBytes, h, bytesValue_wordBytes]

/-- The bytes of a waveform tell its content, sample by sample. -/
theorem encoding_injective {v w : Waveform} (h : v.encoding = w.encoding) :
    v.content = w.content := by
  rw [encoding_eq, encoding_eq] at h
  generalize v.content = xs at *
  generalize w.content = ys at *
  induction xs generalizing ys with
  | nil =>
    cases ys with
    | nil => rfl
    | cons y ys => simp [wordBytes] at h
  | cons x xs ih =>
    cases ys with
    | nil => simp [wordBytes] at h
    | cons y ys =>
      -- Every word has eight bytes, so both parts and the rest can be split off.
      simp only [List.flatMap_cons, List.append_assoc] at h
      obtain ⟨hre, h⟩ := List.append_inj h rfl
      obtain ⟨him, h⟩ := List.append_inj h rfl
      rw [ih ys h, Prod.ext (wordBytes_injective hre) (wordBytes_injective him)]

theorem content_take (w : Waveform) (n : Nat) : (w.take n).content = w.content.take n := by
  simp [take, content]

theorem content_pad (w : Waveform) (before after : Nat) :
    (w.pad before after).content =
      (zeros before).content ++ w.content ++ (zeros after).content := by
  simp [content, pad, zeros, constant]

/-! ## Constant waveforms -/

theorem isConstant_iff (x : Amplitude) (xs : List Amplitude) :
    isConstant ⟨x :: xs⟩ = true ↔ ∀ y ∈ xs, y.numEq x = true := by
  simp [isConstant]

theorem isConstant_congr {v w : Waveform} (h : v.content = w.content) :
    v.isConstant = w.isConstant := by
  obtain ⟨xs⟩ := v
  obtain ⟨ys⟩ := w
  cases xs with
  | nil =>
    cases ys with
    | nil => rfl
    | cons y ys => simp [content] at h
  | cons x xs =>
    cases ys with
    | nil => simp [content] at h
    | cons y ys =>
      simp only [content, List.map_cons, List.cons.injEq] at h
      obtain ⟨hhead, htail⟩ := h
      simp only [isConstant]
      induction xs generalizing ys with
      | nil => cases ys <;> simp_all
      | cons a xs ih =>
        cases ys with
        | nil => simp at htail
        | cons b ys =>
          simp only [List.map_cons, List.cons.injEq] at htail
          rw [List.all_cons, List.all_cons, Amplitude.numEq_congr htail.1 hhead, ih ys htail.2]

/-- A constant waveform has the content of its first sample, over and over. -/
theorem content_of_isConstant {w : Waveform} (h : w.isConstant = true) :
    ∃ x rest, w.samples = x :: rest ∧ w.content = List.replicate w.length x.canonical := by
  obtain ⟨xs⟩ := w
  cases xs with
  | nil => simp [isConstant] at h
  | cons x xs =>
    refine ⟨x, xs, rfl, ?_⟩
    rw [isConstant_iff] at h
    rw [List.eq_replicate_iff]
    refine ⟨length_content _, ?_⟩
    intro c hc
    simp only [content, List.map_cons, List.mem_cons, List.mem_map] at hc
    rcases hc with rfl | ⟨y, hy, rfl⟩
    · rfl
    · exact ((Amplitude.numEq_iff y x).mp (h y hy)).1

theorem length_pos_of_isConstant {w : Waveform} (h : w.isConstant = true) : 0 < w.length := by
  obtain ⟨x, rest, hsamples, _⟩ := content_of_isConstant h
  rw [length, hsamples]
  simp

/-! ## Turning -/

theorem map_canonical_mul {xs ys : List Amplitude} (t : Amplitude)
    (h : xs.map Amplitude.canonical = ys.map Amplitude.canonical) :
    (xs.map (· * t)).map Amplitude.canonical = (ys.map (· * t)).map Amplitude.canonical := by
  induction xs generalizing ys with
  | nil => cases ys <;> simp_all
  | cons x xs ih =>
    cases ys with
    | nil => simp at h
    | cons y ys =>
      simp only [List.map_cons, List.cons.injEq] at h ⊢
      exact ⟨Amplitude.canonical_mul h.1, ih h.2⟩

theorem content_rotate {v w : Waveform} (angle : Binary64) (h : v.content = w.content) :
    (v.rotate angle).content = (w.rotate angle).content := by
  unfold rotate
  split
  · exact h
  · exact map_canonical_mul _ h

/-- Turning sees only the canonical form of the angle: both zeros turn nothing, and a NaN is no
angle, whatever its payload. -/
theorem rotate_congr (w : Waveform) {a b : Binary64} (h : a.canonical = b.canonical) :
    w.rotate a = w.rotate b := by
  rcases (Binary64.canonical_eq_iff a b).mp h with rfl | ⟨ha, hb⟩ | ⟨ha, hb⟩
  · rfl
  · rw [rotate, rotate, if_pos ha, if_pos hb]
  · simp [rotate, Binary64.isZero_of_isNaN ha, Binary64.isZero_of_isNaN hb,
      Amplitude.phasor_of_not_finite (Binary64.isFinite_of_isNaN ha),
      Amplitude.phasor_of_not_finite (Binary64.isFinite_of_isNaN hb)]

theorem samples_rotate_append (xs ys : List Amplitude) (angle : Binary64) :
    (rotate ⟨xs ++ ys⟩ angle).samples =
      (rotate ⟨xs⟩ angle).samples ++ (rotate ⟨ys⟩ angle).samples := by
  unfold rotate
  split
  · rfl
  · simp

theorem samples_rotate_replicate (n : Nat) (x : Amplitude) (angle : Binary64) :
    (rotate ⟨List.replicate n x⟩ angle).samples =
      List.replicate n (if angle.isZero then x else x * Amplitude.phasor angle) := by
  unfold rotate
  split <;> simp [*]

end Waveform

/-! ## Silence -/

/-- What is left of a zero sample once it is turned. A finite angle keeps it, and any other
angle makes it a NaN. -/
def Amplitude.silence (angle : Binary64) : Amplitude :=
  if angle.isFinite then .zero else ⟨.nan, .nan⟩

theorem Binary64.isFinite_congr {a b : Binary64} (h : a.canonical = b.canonical) :
    a.isFinite = b.isFinite := by
  rcases (canonical_eq_iff a b).mp h with rfl | ⟨ha, hb⟩ | ⟨ha, hb⟩
  · rfl
  · rw [isFinite_of_isZero ha, isFinite_of_isZero hb]
  · rw [isFinite_of_isNaN ha, isFinite_of_isNaN hb]

theorem Amplitude.silence_congr {a b : Binary64} (h : a.canonical = b.canonical) :
    silence a = silence b := by
  rw [silence, silence, Binary64.isFinite_congr h]

theorem Binary64.isFinite_cos {x : Binary64} (h : x.isFinite = true) : x.cos.isFinite = true := by
  rw [cos, if_pos h]
  exact isFinite_clampUnit _

theorem Binary64.isFinite_sin {x : Binary64} (h : x.isFinite = true) : x.sin.isFinite = true := by
  rw [sin, if_pos h]
  exact isFinite_clampUnit _

theorem Amplitude.canonical_zero_mul_phasor (angle : Binary64) :
    (zero * phasor angle).canonical = (silence angle).canonical := by
  unfold silence
  split
  · rename_i h
    have hcos := Binary64.canonical_zero_mul (Binary64.isFinite_cos h)
    have hsin := Binary64.canonical_zero_mul (Binary64.isFinite_sin h)
    have hre : (zero * phasor angle).re.canonical = (Binary64.zero - .zero).canonical :=
      Binary64.canonical_sub hcos hsin
    have him : (zero * phasor angle).im.canonical = (Binary64.zero + .zero).canonical :=
      Binary64.canonical_add hsin hcos
    exact Prod.ext hre him
  · rename_i h
    rw [phasor_of_not_finite (by simpa using h)]
    have hnan := Binary64.canonical_mul_nan .zero
    have hre : (zero * ⟨.nan, .nan⟩ : Amplitude).re.canonical =
        (Binary64.nan - .nan).canonical := Binary64.canonical_sub hnan hnan
    have him : (zero * ⟨.nan, .nan⟩ : Amplitude).im.canonical =
        (Binary64.nan + .nan).canonical := Binary64.canonical_add hnan hnan
    exact Prod.ext hre him

theorem Waveform.content_rotate_zeros (n : Nat) (angle : Binary64) :
    ((zeros n).rotate angle).content =
      List.replicate n (Amplitude.silence angle).canonical := by
  unfold content zeros constant
  rw [samples_rotate_replicate, List.map_replicate]
  congr 1
  split
  · rename_i h
    rw [Amplitude.silence, if_pos (Binary64.isFinite_of_isZero h)]
  · exact Amplitude.canonical_zero_mul_phasor angle

/-- Zeros around a waveform are turned with it. -/
theorem Waveform.content_rotate_pad (w : Waveform) (before after : Nat) (angle : Binary64) :
    ((w.pad before after).rotate angle).content =
      List.replicate before (Amplitude.silence angle).canonical ++ (w.rotate angle).content ++
        List.replicate after (Amplitude.silence angle).canonical := by
  rw [← content_rotate_zeros, ← content_rotate_zeros]
  unfold content pad zeros constant
  rw [samples_rotate_append, samples_rotate_append, List.map_append, List.map_append]

end PulseSequencer
