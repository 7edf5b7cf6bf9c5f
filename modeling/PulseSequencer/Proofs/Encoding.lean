-- The bytes that a key is a digest of. They have no separators, yet they tell
-- the content of a waveform and nothing else. Content in turn is what numeric
-- equality sees, with NaNs made equal to one another.
import PulseSequencer.Proofs.Content
import PulseSequencer.Proofs.Places

namespace PulseSequencer

attribute [local irreducible] Waveform.key

/-! ## Equal as numbers -/

namespace Binary64

open Float.Model UnpackedFloat

theorem compare_of_sameNumber {u v : UnpackedFloat} (hu : u ≠ .notANumber) (h : SameNumber u v) :
    u.compare v = some .eq := by
  rcases h with rfl | ⟨s, t, rfl, rfl⟩
  · cases u with
    | notANumber => exact absurd rfl hu
    | infinity s => cases s <;> rfl
    | zero s => rfl
    | finite s m e hm =>
      have hparts : (compare e e).then (compare m m) = .eq :=
        Ordering.then_eq_eq.mpr ⟨Int.compare_eq_eq.mpr rfl, Nat.compare_eq_eq.mpr rfl⟩
      cases s with
      | negative => exact congrArg (fun o : Ordering => some o.swap) hparts
      | positive => exact congrArg some hparts
  · rfl

theorem finite_eq_of_compare {s : Sign} {m m' : Nat} {e e' : Int} {hm : 0 < m} {hm' : 0 < m'}
    (h : (compare e e').then (compare m m') = .eq) :
    UnpackedFloat.finite s m e hm = .finite s m' e' hm' := by
  obtain ⟨he, hm⟩ := Ordering.then_eq_eq.mp h
  obtain rfl := Int.compare_eq_eq.mp he
  obtain rfl := Nat.compare_eq_eq.mp hm
  rfl

/-- The comparison of the machine tells numbers apart by sign, exponent and significand, save that
it does not look at the sign of a zero. -/
theorem sameNumber_of_compare {u v : UnpackedFloat} (h : u.compare v = some .eq) :
    u ≠ .notANumber ∧ SameNumber u v := by
  cases u with
  | notANumber => cases h
  | infinity s =>
    refine ⟨nofun, ?_⟩
    cases v with
    | infinity t =>
      cases s <;> cases t
      · exact .inl rfl
      · cases h
      · cases h
      · exact .inl rfl
    | _ => cases s <;> cases h
  | zero s =>
    refine ⟨nofun, ?_⟩
    cases v with
    | zero t => exact .inr ⟨s, t, rfl, rfl⟩
    | notANumber => cases h
    | infinity t => cases t <;> cases h
    | finite t m e hm => cases t <;> cases h
  | finite s m e hm =>
    refine ⟨nofun, .inl ?_⟩
    cases v with
    | finite t m' e' hm' =>
      cases s <;> cases t
      · exact finite_eq_of_compare (Ordering.swap_eq_eq.mp (Option.some.inj h))
      · cases h
      · cases h
      · exact finite_eq_of_compare (Option.some.inj h)
    | zero t => cases s <;> cases h
    | notANumber => cases s <;> cases h
    | infinity t => cases s <;> cases t <;> cases h

theorem unpacked_eq_notANumber_iff (x : Binary64) : x.unpacked = .notANumber ↔ x.isNaN = true := by
  refine ⟨fun h => ?_, unpacked_of_isNaN⟩
  rw [← canonical_eq_nan_iff, ← canonical_pack_unpacked, h]
  rfl

/-- Comparing the bits comes to the same as comparing the numbers on the machine. -/
theorem numEq_eq_beq (x y : Binary64) : x.numEq y = (x.toFloat == y.toFloat) := by
  have hmachine : (x.toFloat == y.toFloat) = (x.unpacked.compare y.unpacked == some .eq) := rfl
  -- Both sides ask for the same canonical form and for a number: the bits directly, the machine
  -- through what it unpacks.
  rw [Bool.eq_iff_iff, hmachine, beq_iff_eq, numEq_iff]
  constructor
  · rintro ⟨hcanonical, hx⟩
    refine compare_of_sameNumber ?_ (sameNumber_of_canonical hcanonical)
    rw [Ne, unpacked_eq_notANumber_iff, hx]
    exact Bool.false_ne_true
  · intro h
    obtain ⟨hx, hsame⟩ := sameNumber_of_compare h
    rw [Ne, unpacked_eq_notANumber_iff, Bool.not_eq_true] at hx
    have hcanonical := canonical_pack hsame
    rw [canonical_pack_unpacked, canonical_pack_unpacked] at hcanonical
    exact ⟨hcanonical, hx⟩

end Binary64

/-! ## Bytes -/

namespace Waveform

theorem toUInt8_shiftRight (u : UInt64) {shift : UInt64} {k : Nat} (hshift : shift.toNat = 8 * k)
    (hk : k < 8) : (u >>> shift).toUInt8 = UInt8.ofNat (digit 256 u.toNat k) := by
  have hmod : 8 * k % 64 = 8 * k := Nat.mod_eq_of_lt (by omega)
  apply UInt8.toNat_inj.mp
  rw [UInt64.toNat_toUInt8, UInt64.toNat_shiftRight, hshift, hmod, UInt8.toNat_ofNat', digit,
    Nat.shiftRight_eq_div_pow, Nat.pow_mul, Nat.mod_mod]

/-- The bytes of a word are its digits in base 256, the least significant one first. -/
theorem getElem?_wordBytes (u : UInt64) {k : Nat} (hk : k < 8) :
    (wordBytes u)[k]? = some (UInt8.ofNat (digit 256 u.toNat k)) := by
  have hwhole : u.toUInt8 = (u >>> 0).toUInt8 := by rw [UInt64.shiftRight_zero]
  match k, hk with
  | 0, h => exact congrArg some (hwhole.trans (toUInt8_shiftRight u rfl h))
  | 1, h => exact congrArg some (toUInt8_shiftRight u rfl h)
  | 2, h => exact congrArg some (toUInt8_shiftRight u rfl h)
  | 3, h => exact congrArg some (toUInt8_shiftRight u rfl h)
  | 4, h => exact congrArg some (toUInt8_shiftRight u rfl h)
  | 5, h => exact congrArg some (toUInt8_shiftRight u rfl h)
  | 6, h => exact congrArg some (toUInt8_shiftRight u rfl h)
  | 7, h => exact congrArg some (toUInt8_shiftRight u rfl h)

/-- The sixteen bytes of a sample. -/
theorem getElem?_encoding {w : Waveform} {i k : Nat} {x : Amplitude} (hx : w.samples[i]? = some x)
    (hk : k < 16) :
    w.encoding[16 * i + k]? = (wordBytes x.re.canonical ++ wordBytes x.im.canonical)[k]? := by
  have hquotient : (16 * i + k) / 16 = i := by omega
  have hremainder : (16 * i + k) % 16 = k := by omega
  have hpiece : ∀ y : Amplitude,
      (wordBytes y.re.canonical ++ wordBytes y.im.canonical).length = 16 := fun _ => rfl
  rw [encoding, getElem?_flatMap_of_length hpiece (by decide), hquotient, hremainder, hx,
    Option.bind_some]

theorem length_encoding (w : Waveform) : w.encoding.length = 16 * w.length := by
  obtain ⟨xs⟩ := w
  unfold encoding length
  induction xs with
  | nil => rfl
  | cons x xs ih =>
    rw [List.flatMap_cons, List.length_append, ih, List.length_cons, Nat.mul_succ, Nat.add_comm]
    rfl

theorem encoding_eq_iff (v w : Waveform) : v.encoding = w.encoding ↔ v.contentEq w = true := by
  rw [contentEq_iff]
  refine ⟨encoding_injective, fun h => ?_⟩
  rw [encoding_eq, encoding_eq, h]

end Waveform

/-- Two byte strings that differ and have one digest. -/
def Digest.Collide (a b : List UInt8) : Prop := a ≠ b ∧ ofBytes a = ofBytes b

namespace Waveform

/-- Keys are equal for the same content, and otherwise only where the digest collides. -/
theorem key_eq_iff (v w : Waveform) :
    v.key = w.key ↔ v.contentEq w = true ∨ Digest.Collide v.encoding w.encoding := by
  rw [key, key]
  by_cases h : v.encoding = w.encoding
  · exact ⟨fun _ => .inl ((encoding_eq_iff v w).mp h), fun _ => congrArg Digest.ofBytes h⟩
  · rw [← encoding_eq_iff]
    constructor
    · exact fun hkey => .inr ⟨h, hkey⟩
    · rintro (hsame | hcollide)
      · exact absurd hsame h
      · exact hcollide.2

theorem equivalence_contentEq : Equivalence fun v w : Waveform => v.contentEq w = true where
  refl w := (contentEq_iff w w).mpr rfl
  symm h := (contentEq_iff _ _).mpr ((contentEq_iff _ _).mp h).symm
  trans h h' :=
    (contentEq_iff _ _).mpr (((contentEq_iff _ _).mp h).trans ((contentEq_iff _ _).mp h'))

/-! ## Numbers and content -/

/-- No sample has a NaN in it. -/
def IsNumeric (w : Waveform) : Prop :=
  ∀ x ∈ w.samples, x.re.isNaN = false ∧ x.im.isNaN = false

/-- Equal as numbers means the same content, made of numbers. -/
theorem numEq_iff (v w : Waveform) :
    v.numEq w = true ↔ v.contentEq w = true ∧ v.IsNumeric := by
  rw [contentEq_iff]
  obtain ⟨xs⟩ := v
  obtain ⟨ys⟩ := w
  simp only [numEq, content, IsNumeric]
  induction xs generalizing ys with
  | nil => cases ys <;> simp [List.isEqv]
  | cons x xs ih =>
    cases ys with
    | nil => simp [List.isEqv]
    | cons y ys =>
      simp only [List.isEqv, Bool.and_eq_true, Amplitude.numEq_iff, ih, List.map_cons,
        List.cons.injEq, List.forall_mem_cons]
      constructor
      · rintro ⟨⟨hx, hnumber⟩, hxs, hnumbers⟩
        exact ⟨⟨hx, hxs⟩, hnumber, hnumbers⟩
      · rintro ⟨⟨hx, hxs⟩, hnumber, hnumbers⟩
        exact ⟨⟨hx, hnumber⟩, hxs, hnumbers⟩

/-- The operations that do not turn a waveform see its content only. -/
theorem contentEq_congr {v w : Waveform} (h : v.contentEq w = true) :
    v.isConstant = w.isConstant ∧
      (∀ before after, (v.pad before after).contentEq (w.pad before after) = true) ∧
      ∀ n, (v.take n).contentEq (w.take n) = true := by
  rw [contentEq_iff] at h
  refine ⟨isConstant_congr h, fun before after => ?_, fun n => ?_⟩
  · rw [contentEq_iff, content_pad, content_pad, h]
  · rw [contentEq_iff, content_take, content_take, h]

/-- A waveform is written down as sixteen bytes for each sample, first those of the real part and
then those of the imaginary part, each in canonical form and with its least significant byte in
front. These bytes are the same for two waveforms exactly if their contents are. So the same content
has the same key, and where two keys are equal all the same, the digest has collided. Numeric
equality, which is that of the machine for each part of a sample, is the same content without NaNs.
Whether a waveform is constant can be told from its content, and the same content stays the same
when it is padded and when it is cut. -/
theorem the_bytes_of_a_waveform_tell_its_content :
    (∀ w : Waveform, w.encoding.length = 16 * w.length ∧
      ∀ i x, w.samples[i]? = some x → ∀ k < 8,
        w.encoding[16 * i + k]? = some (.ofNat (digit 256 x.re.canonical.toNat k)) ∧
        w.encoding[16 * i + (8 + k)]? = some (.ofNat (digit 256 x.im.canonical.toNat k))) ∧
      (∀ v w : Waveform, v.encoding = w.encoding ↔ v.contentEq w = true) ∧
      (Equivalence fun v w : Waveform => v.contentEq w = true) ∧
      (∀ v w : Waveform,
        v.key = w.key ↔ v.contentEq w = true ∨ Digest.Collide v.encoding w.encoding) ∧
      (∀ x y : Binary64, x.numEq y = (x.toFloat == y.toFloat)) ∧
      (∀ v w : Waveform, v.numEq w = true ↔ v.contentEq w = true ∧ v.IsNumeric) ∧
      ∀ v w : Waveform, v.contentEq w = true →
        v.isConstant = w.isConstant ∧
          (∀ before after, (v.pad before after).contentEq (w.pad before after) = true) ∧
          ∀ n, (v.take n).contentEq (w.take n) = true := by
  refine ⟨fun w => ⟨length_encoding w, ?_⟩, encoding_eq_iff, equivalence_contentEq, key_eq_iff,
    Binary64.numEq_eq_beq, numEq_iff, fun v w h => contentEq_congr h⟩
  intro i x hx k hk
  constructor
  · rw [getElem?_encoding hx (by omega), List.getElem?_append_left hk, getElem?_wordBytes _ hk]
  · have hlength : (wordBytes x.re.canonical).length = 8 := rfl
    rw [getElem?_encoding hx (by omega), List.getElem?_append_right (by omega), hlength,
      Nat.add_sub_cancel_left, getElem?_wordBytes _ hk]

/-- A negative zero and a NaN with a payload, beside a zero and the plain NaN. Byte 23 is the
highest of the second sample's real part. -/
theorem a_negative_zero_and_a_payload_do_not_show :
    let v : Waveform := ⟨[⟨.one, ⟨0x8000000000000000⟩⟩, ⟨⟨0xfff0000000000001⟩, .zero⟩]⟩
    let w : Waveform := ⟨[⟨.one, .zero⟩, ⟨.nan, .zero⟩]⟩
    v.contentEq w = true ∧ v.encoding = w.encoding ∧ v.key = w.key ∧ v.numEq w = false ∧
      v.encoding[23]? = some 0x7f ∧ (v.pad 1 2).contentEq (w.pad 1 2) = true ∧
      (v.take 1).contentEq (w.take 1) = true := by
  intro v w
  obtain ⟨hbytes, hencoding, -, hkey, -, hnumbers, hsame⟩ := the_bytes_of_a_waveform_tell_its_content
  have hcontent : v.contentEq w = true := by decide
  have hnot : ¬ v.numEq w = true := by
    rw [hnumbers]
    exact fun h => absurd (h.2 _ (List.mem_cons_of_mem _ List.mem_cons_self)).1 (by decide)
  obtain ⟨-, hpad, htake⟩ := hsame v w hcontent
  exact ⟨hcontent, (hencoding v w).mpr hcontent, (hkey v w).mpr (.inl hcontent),
    Bool.eq_false_iff.mpr hnot, ((hbytes v).2 1 _ rfl 7 (by decide)).1, hpad 1 2, htake 1⟩

end Waveform

end PulseSequencer
