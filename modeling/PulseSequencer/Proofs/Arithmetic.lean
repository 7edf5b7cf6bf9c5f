-- The laws of arithmetic on doubles, as far as the canonical form can see: it
-- makes one of the two zeros and one of all NaNs, and sums, differences and
-- products depend on nothing else of their arguments.
import Mathlib.Algebra.Group.Nat.Defs
import PulseSequencer.Amplitude

namespace PulseSequencer.Binary64

open Float.Model UnpackedFloat

/-! ## The fields of a pattern -/

/-- The number that the machine reads out of a pattern. -/
def unpacked (x : Binary64) : UnpackedFloat := x.toFloat.toModel.unpack

/-- The pattern that the machine writes for a number. -/
def pack (u : UnpackedFloat) : Binary64 := ofFloat (.ofModel (Float.Model.pack u))

def signBit (b : BitVec 64) : BitVec 1 := @unpackSign .binary64 b

def exponentBits (b : BitVec 64) : BitVec 11 := @unpackExponent .binary64 b

def mantissaBits (b : BitVec 64) : BitVec 52 := @unpackMantissa .binary64 b

theorem toNat_mantissa (b : BitVec 64) : (mantissaBits b).toNat = b.toNat % 2 ^ 52 := by
  simp [mantissaBits, unpackMantissa]

theorem toNat_exponent (b : BitVec 64) : (exponentBits b).toNat = b.toNat / 2 ^ 52 % 2 ^ 11 := by
  simp [exponentBits, unpackExponent, Nat.shiftRight_eq_div_pow]

theorem toNat_sign (b : BitVec 64) : (signBit b).toNat = b.toNat / 2 ^ 63 := by
  have hb := b.isLt
  have htop : signBit b = b.extractLsb 63 63 := rfl
  rw [htop, BitVec.extractLsb_toNat, Nat.shiftRight_eq_div_pow]
  omega

theorem toBitVec_ofBitVec (v : BitVec 1) : (Sign.ofBitVec v).toBitVec = v := by
  revert v
  decide

theorem toNat_packComponents (s : Sign) (e : BitVec 11) (m : BitVec 52) :
    (packComponents .binary64 s e m).toNat =
      s.toBitVec.toNat * 2 ^ 63 + e.toNat * 2 ^ 52 + m.toNat := by
  have he := e.isLt
  have hm := m.isLt
  simp only [packComponents, BitVec.toNat_append]
  rw [← Nat.shiftLeft_add_eq_or_of_lt he, ← Nat.shiftLeft_add_eq_or_of_lt hm]
  simp only [Nat.shiftLeft_eq]
  omega

theorem packComponents_unpack (b : BitVec 64) :
    packComponents .binary64 (Sign.ofBitVec (signBit b)) (exponentBits b) (mantissaBits b) = b := by
  apply BitVec.eq_of_toNat_eq
  have hb := b.isLt
  rw [toNat_packComponents, toBitVec_ofBitVec, toNat_sign, toNat_exponent, toNat_mantissa]
  omega

/-! ## The class of a pattern -/

theorem toNat_unsigned (x : Binary64) : x.unsigned.toNat = x.bits.toNat % 2 ^ 63 := by
  unfold unsigned
  rw [UInt64.toNat_and]
  exact Nat.and_two_pow_sub_one_eq_mod _ 63

theorem isNaN_iff (x : Binary64) :
    x.isNaN = true ↔ 0x7ff0000000000000 < x.bits.toNat % 2 ^ 63 := by
  rw [← toNat_unsigned]
  simp [isNaN, infinity, UInt64.lt_iff_toNat_lt]

theorem isZero_iff (x : Binary64) : x.isZero = true ↔ x.bits.toNat % 2 ^ 63 = 0 := by
  rw [← toNat_unsigned]
  simp [isZero, ← UInt64.toNat_inj]

theorem isFinite_iff (x : Binary64) :
    x.isFinite = true ↔ x.bits.toNat % 2 ^ 63 < 0x7ff0000000000000 := by
  rw [← toNat_unsigned]
  simp [isFinite, infinity, UInt64.lt_iff_toNat_lt]

theorem exponent_full_iff (b : BitVec 64) :
    exponentBits b = -1#11 ↔ 0x7ff0000000000000 ≤ b.toNat % 2 ^ 63 := by
  rw [← BitVec.toNat_inj, toNat_exponent]
  simp
  omega

theorem exponent_zero_iff (b : BitVec 64) : exponentBits b = 0#11 ↔ b.toNat % 2 ^ 63 < 2 ^ 52 := by
  rw [← BitVec.toNat_inj, toNat_exponent]
  simp
  omega

theorem mantissa_zero_iff (b : BitVec 64) : mantissaBits b = 0#52 ↔ b.toNat % 2 ^ 52 = 0 := by
  rw [← BitVec.toNat_inj, toNat_mantissa]
  rfl

/-! ## Reading a pattern and writing it back -/

theorem pack_infinity {b : BitVec 64} (he : exponentBits b = -1#11) (hm : mantissaBits b = 0#52) :
    UnpackedFloat.pack .binary64 (.infinity (Sign.ofBitVec (signBit b))) = b := by
  have h := packComponents_unpack b
  rw [he, hm] at h
  exact h

theorem pack_zero {b : BitVec 64} (he : exponentBits b = 0#11) (hm : mantissaBits b = 0#52) :
    UnpackedFloat.pack .binary64 (.zero (Sign.ofBitVec (signBit b))) = b := by
  have h := packComponents_unpack b
  rw [he, hm] at h
  exact h

theorem pack_finite (s : Sign) (m : Nat) (e : Int) (hm : 0 < m) :
    UnpackedFloat.pack .binary64 (.finite s m e hm) =
      if 2048 ≤ (e + 1023 + 52).toNat + 1 then packedInfinity .binary64 s
      else if m.log2 + 1 = 53 then
        packComponents .binary64 s (BitVec.ofNat 11 (e + 1023 + 52).toNat) (BitVec.ofNat 52 m)
      else packComponents .binary64 s 0#11 (BitVec.ofNat 52 m) := rfl

theorem pack_subnormal {b : BitVec 64} (he : exponentBits b = 0#11)
    (hm : 0 < (mantissaBits b).toNat) :
    UnpackedFloat.pack .binary64
      (.finite (Sign.ofBitVec (signBit b)) (mantissaBits b).toNat (-1074) hm) = b := by
  have hlt := (mantissaBits b).isLt
  have hlog : (mantissaBits b).toNat.log2 < 52 := (Nat.log2_lt (by omega)).mpr hlt
  have h := packComponents_unpack b
  rw [he] at h
  rw [pack_finite, if_neg (by decide), if_neg (by omega), BitVec.ofNat_toNat, BitVec.setWidth_eq]
  exact h

theorem toNat_implicit (m : BitVec 52) : (1#1 ++ m).toNat = 2 ^ 52 + m.toNat := by
  rw [BitVec.toNat_append, ← Nat.shiftLeft_add_eq_or_of_lt m.isLt]
  rfl

theorem pack_normal {b : BitVec 64} (he : exponentBits b ≠ -1#11)
    (hm : 0 < (1#1 ++ mantissaBits b).toNat) :
    UnpackedFloat.pack .binary64 (.finite (Sign.ofBitVec (signBit b)) (1#1 ++ mantissaBits b).toNat
      ((exponentBits b).toNat - 1075) hm) = b := by
  have hlt := (mantissaBits b).isLt
  have helt := (exponentBits b).isLt
  have hlog : (2 ^ 52 + (mantissaBits b).toNat).log2 = 52 := by
    rw [Nat.log2_eq_iff (by omega)]
    omega
  have hne : (exponentBits b).toNat ≠ 2047 := fun h => he (BitVec.eq_of_toNat_eq h)
  have hbias :
      ((exponentBits b).toNat - 1075 + 1023 + 52 : Int).toNat = (exponentBits b).toNat := by
    omega
  have hm' : BitVec.ofNat 52 (2 ^ 52 + (mantissaBits b).toNat) = mantissaBits b := by
    apply BitVec.eq_of_toNat_eq
    rw [BitVec.toNat_ofNat, Nat.add_mod_left, Nat.mod_eq_of_lt hlt]
  rw [pack_finite, hbias, toNat_implicit, hlog, if_neg (by omega), if_pos rfl, BitVec.ofNat_toNat,
    BitVec.setWidth_eq, hm']
  exact packComponents_unpack b

theorem unpack_eq (b : BitVec 64) :
    UnpackedFloat.unpack .binary64 b =
      if exponentBits b = -1#11 then
        if mantissaBits b = 0#52 then .infinity (Sign.ofBitVec (signBit b)) else .notANumber
      else if exponentBits b = 0#11 then
        if h : mantissaBits b = 0#52 then .zero (Sign.ofBitVec (signBit b))
        else .finite (Sign.ofBitVec (signBit b)) (mantissaBits b).toNat
          ((exponentBits b).toNat - 1075 + 1) (by simpa [BitVec.toNat_pos, BitVec.pos_iff_ne_zero])
      else .finite (Sign.ofBitVec (signBit b)) (1#1 ++ mantissaBits b).toNat
        ((exponentBits b).toNat - 1075) (by rw [toNat_implicit]; omega) := rfl

/-- Every pattern but a NaN is read in full. -/
theorem pack_unpack {b : BitVec 64} (h : ¬ (exponentBits b = -1#11 ∧ mantissaBits b ≠ 0#52)) :
    UnpackedFloat.pack .binary64 (UnpackedFloat.unpack .binary64 b) = b := by
  rw [unpack_eq]
  by_cases he : exponentBits b = -1#11
  · by_cases hm : mantissaBits b = 0#52
    · rw [if_pos he, if_pos hm]
      exact pack_infinity he hm
    · exact absurd ⟨he, hm⟩ h
  · rw [if_neg he]
    by_cases h0 : exponentBits b = 0#11
    · rw [if_pos h0]
      by_cases hm : mantissaBits b = 0#52
      · rw [dif_pos hm]
        exact pack_zero h0 hm
      · have hexp : ((exponentBits b).toNat - 1075 + 1 : Int) = -1074 := by rw [h0]; rfl
        rw [dif_neg hm, hexp]
        exact pack_subnormal h0 _
    · rw [if_neg h0]
      exact pack_normal he _

theorem isNaN_fields (x : Binary64) :
    x.isNaN = true ↔
      exponentBits x.bits.toBitVec = -1#11 ∧ mantissaBits x.bits.toBitVec ≠ 0#52 := by
  rw [isNaN_iff, exponent_full_iff, Ne, mantissa_zero_iff, UInt64.toNat_toBitVec]
  omega

theorem ofFloat_toFloat {x : Binary64} (h : x.isNaN = false) : ofFloat x.toFloat = x := by
  have hf : ¬ (exponentBits x.bits.toBitVec = -1#11 ∧ mantissaBits x.bits.toBitVec ≠ 0#52) := by
    rw [← isNaN_fields, h]
    decide
  have hb : (ofFloat x.toFloat).bits.toBitVec = x.bits.toBitVec := pack_unpack hf
  obtain ⟨bits⟩ := x
  exact congrArg Binary64.mk (UInt64.toBitVec_inj.mp hb)

theorem unpacked_of_isNaN {x : Binary64} (h : x.isNaN = true) : x.unpacked = .notANumber := by
  have hf := (isNaN_fields x).mp h
  have hu : UnpackedFloat.unpack .binary64 x.bits.toBitVec = .notANumber := by
    rw [unpack_eq, if_pos hf.1, if_neg hf.2]
  have hx : x.unpacked =
      UnpackedFloat.unpack .binary64
        (UnpackedFloat.pack .binary64 (UnpackedFloat.unpack .binary64 x.bits.toBitVec)) := rfl
  rw [hx, hu]
  rfl

theorem unpacked_of_not_isNaN {x : Binary64} (h : x.isNaN = false) :
    x.unpacked = UnpackedFloat.unpack .binary64 x.bits.toBitVec := by
  have hx : x.unpacked = UnpackedFloat.unpack .binary64 (ofFloat x.toFloat).bits.toBitVec := rfl
  rw [hx, ofFloat_toFloat h]

theorem pack_unpacked {x : Binary64} (h : x.isNaN = false) : pack x.unpacked = x := by
  have hx : pack x.unpacked = ofFloat (ofFloat x.toFloat).toFloat := rfl
  rw [hx, ofFloat_toFloat h, ofFloat_toFloat h]

/-! ## Numbers up to the sign of a zero -/

/-- The same number, where the two zeros are one. -/
def SameNumber (u v : UnpackedFloat) : Prop :=
  u = v ∨ ∃ s t, u = .zero s ∧ v = .zero t

theorem SameNumber.trans {u v w : UnpackedFloat} (h : SameNumber u v) (h' : SameNumber v w) :
    SameNumber u w := by
  rcases h with rfl | ⟨s, t, rfl, rfl⟩
  · exact h'
  · rcases h' with rfl | ⟨t', r, _, rfl⟩
    · exact Or.inr ⟨s, t, rfl, rfl⟩
    · exact Or.inr ⟨s, r, rfl, rfl⟩

/-- An operation that cannot tell the zeros apart on either side. -/
structure IgnoresZeroSign (op : UnpackedFloat → UnpackedFloat → UnpackedFloat) : Prop where
  left : ∀ s t v, SameNumber (op (.zero s) v) (op (.zero t) v)
  right : ∀ u s t, SameNumber (op u (.zero s)) (op u (.zero t))

theorem IgnoresZeroSign.congr {op : UnpackedFloat → UnpackedFloat → UnpackedFloat}
    (hop : IgnoresZeroSign op) {u u' v v' : UnpackedFloat} (hu : SameNumber u u')
    (hv : SameNumber v v') : SameNumber (op u v) (op u' v') := by
  have hleft : SameNumber (op u v) (op u' v) := by
    rcases hu with rfl | ⟨s, t, rfl, rfl⟩
    · exact Or.inl rfl
    · exact hop.left s t v
  have hright : SameNumber (op u' v) (op u' v') := by
    rcases hv with rfl | ⟨s, t, rfl, rfl⟩
    · exact Or.inl rfl
    · exact hop.right u' s t
  exact hleft.trans hright

theorem add_ignoresZeroSign : IgnoresZeroSign (UnpackedFloat.add .binary64) where
  left s t v := by
    cases v with
    | zero r => cases s <;> cases t <;> cases r <;> exact Or.inr ⟨_, _, rfl, rfl⟩
    | _ => exact Or.inl rfl
  right u s t := by
    cases u with
    | zero r => cases s <;> cases t <;> cases r <;> exact Or.inr ⟨_, _, rfl, rfl⟩
    | _ => exact Or.inl rfl

theorem sub_ignoresZeroSign : IgnoresZeroSign (UnpackedFloat.sub .binary64) where
  left s t v := by
    cases v with
    | zero r => cases s <;> cases t <;> cases r <;> exact Or.inr ⟨_, _, rfl, rfl⟩
    | _ => exact Or.inl rfl
  right u s t := by
    cases u with
    | zero r => cases s <;> cases t <;> cases r <;> exact Or.inr ⟨_, _, rfl, rfl⟩
    | _ => exact Or.inl rfl

theorem mul_ignoresZeroSign : IgnoresZeroSign (UnpackedFloat.mul .binary64) where
  left s t v := by
    cases v with
    | zero r => exact Or.inr ⟨_, _, rfl, rfl⟩
    | finite r m e hm => exact Or.inr ⟨_, _, rfl, rfl⟩
    | _ => exact Or.inl rfl
  right u s t := by
    cases u with
    | zero r => exact Or.inr ⟨_, _, rfl, rfl⟩
    | finite r m e hm => exact Or.inr ⟨_, _, rfl, rfl⟩
    | _ => exact Or.inl rfl

/-! ## Arithmetic in canonical form -/

theorem isZero_of_isNaN {x : Binary64} (h : x.isNaN = true) : x.isZero = false := by
  rw [isNaN_iff] at h
  rw [Bool.eq_false_iff, Ne, isZero_iff]
  omega

theorem isFinite_of_isNaN {x : Binary64} (h : x.isNaN = true) : x.isFinite = false := by
  rw [isNaN_iff] at h
  rw [Bool.eq_false_iff, Ne, isFinite_iff]
  omega

theorem isFinite_of_isZero {x : Binary64} (h : x.isZero = true) : x.isFinite = true := by
  rw [isZero_iff] at h
  rw [isFinite_iff]
  omega

theorem canonical_eq_zero_iff (x : Binary64) : x.canonical = 0 ↔ x.isZero = true := by
  unfold canonical
  split
  · simp [*]
  · rename_i hz
    split
    · simp [hz, nan]
    · refine ⟨fun h => ?_, fun h => absurd h hz⟩
      simp [isZero, unsigned, h]

theorem canonical_eq_nan_iff (x : Binary64) : x.canonical = nan.bits ↔ x.isNaN = true := by
  unfold canonical
  split
  · rename_i hz
    refine ⟨fun h => absurd h (by decide), fun h => ?_⟩
    rw [isZero_of_isNaN h] at hz
    cases hz
  · split
    · simp [*]
    · rename_i hn
      refine ⟨fun h => ?_, fun h => absurd h hn⟩
      obtain ⟨bits⟩ := x
      cases h
      rfl

theorem canonical_of_number {x : Binary64} (hz : x.isZero = false) (hn : x.isNaN = false) :
    x.canonical = x.bits := by
  simp [canonical, hz, hn]

/-- Two patterns have one canonical form if they are equal, both zero, or both NaN. -/
theorem canonical_eq_iff (x y : Binary64) :
    x.canonical = y.canonical ↔
      x = y ∨ (x.isZero = true ∧ y.isZero = true) ∨ (x.isNaN = true ∧ y.isNaN = true) := by
  constructor
  · intro h
    by_cases hz : x.isZero = true
    · have hy := (canonical_eq_zero_iff x).mpr hz
      rw [h, canonical_eq_zero_iff] at hy
      exact Or.inr (Or.inl ⟨hz, hy⟩)
    · by_cases hn : x.isNaN = true
      · have hy := (canonical_eq_nan_iff x).mpr hn
        rw [h, canonical_eq_nan_iff] at hy
        exact Or.inr (Or.inr ⟨hn, hy⟩)
      · have hyz : ¬ y.isZero = true := by
          rwa [← canonical_eq_zero_iff, ← h, canonical_eq_zero_iff]
        have hyn : ¬ y.isNaN = true := by
          rwa [← canonical_eq_nan_iff, ← h, canonical_eq_nan_iff]
        rw [canonical_of_number (by simpa using hz) (by simpa using hn),
          canonical_of_number (by simpa using hyz) (by simpa using hyn)] at h
        obtain ⟨xbits⟩ := x
        obtain ⟨ybits⟩ := y
        exact Or.inl (congrArg Binary64.mk h)
  · rintro (rfl | ⟨hx, hy⟩ | ⟨hx, hy⟩)
    · rfl
    · rw [(canonical_eq_zero_iff x).mpr hx, (canonical_eq_zero_iff y).mpr hy]
    · rw [(canonical_eq_nan_iff x).mpr hx, (canonical_eq_nan_iff y).mpr hy]

theorem unpacked_of_isZero {x : Binary64} (h : x.isZero = true) : ∃ s, x.unpacked = .zero s := by
  have hn : x.isNaN = false := by
    rw [Bool.eq_false_iff]
    intro hn
    rw [isZero_of_isNaN hn] at h
    cases h
  rw [isZero_iff] at h
  have he : exponentBits x.bits.toBitVec = 0#11 := by
    rw [exponent_zero_iff, UInt64.toNat_toBitVec]
    omega
  have hm : mantissaBits x.bits.toBitVec = 0#52 := by
    rw [mantissa_zero_iff, UInt64.toNat_toBitVec]
    omega
  refine ⟨Sign.ofBitVec (signBit x.bits.toBitVec), ?_⟩
  rw [unpacked_of_not_isNaN hn, unpack_eq, if_neg (by rw [he]; decide), if_pos he, dif_pos hm]

theorem sameNumber_of_canonical {x y : Binary64} (h : x.canonical = y.canonical) :
    SameNumber x.unpacked y.unpacked := by
  rcases (canonical_eq_iff x y).mp h with rfl | ⟨hx, hy⟩ | ⟨hx, hy⟩
  · exact Or.inl rfl
  · obtain ⟨s, hs⟩ := unpacked_of_isZero hx
    obtain ⟨t, ht⟩ := unpacked_of_isZero hy
    exact Or.inr ⟨s, t, hs, ht⟩
  · exact Or.inl (by rw [unpacked_of_isNaN hx, unpacked_of_isNaN hy])

theorem canonical_pack {u v : UnpackedFloat} (h : SameNumber u v) :
    (pack u).canonical = (pack v).canonical := by
  rcases h with rfl | ⟨s, t, rfl, rfl⟩
  · rfl
  · cases s <;> cases t <;> rfl

theorem canonical_add {x x' y y' : Binary64} (hx : x.canonical = x'.canonical)
    (hy : y.canonical = y'.canonical) : (x + y).canonical = (x' + y').canonical :=
  canonical_pack
    (add_ignoresZeroSign.congr (sameNumber_of_canonical hx) (sameNumber_of_canonical hy))

theorem canonical_sub {x x' y y' : Binary64} (hx : x.canonical = x'.canonical)
    (hy : y.canonical = y'.canonical) : (x - y).canonical = (x' - y').canonical :=
  canonical_pack
    (sub_ignoresZeroSign.congr (sameNumber_of_canonical hx) (sameNumber_of_canonical hy))

theorem canonical_mul {x x' y y' : Binary64} (hx : x.canonical = x'.canonical)
    (hy : y.canonical = y'.canonical) : (x * y).canonical = (x' * y').canonical :=
  canonical_pack
    (mul_ignoresZeroSign.congr (sameNumber_of_canonical hx) (sameNumber_of_canonical hy))

/-- Reading a number and writing it back keeps its canonical form, also of a NaN. -/
theorem canonical_pack_unpacked (x : Binary64) : (pack x.unpacked).canonical = x.canonical := by
  by_cases hn : x.isNaN = true
  · rw [unpacked_of_isNaN hn, (canonical_eq_nan_iff x).mpr hn]
    rfl
  · rw [pack_unpacked (by simpa using hn)]

theorem canonical_add_zero (x : Binary64) : (x + zero).canonical = x.canonical := by
  have hsame :
      SameNumber (UnpackedFloat.add .binary64 x.unpacked (.zero .positive)) x.unpacked := by
    cases x.unpacked with
    | zero s => cases s <;> exact Or.inr ⟨_, _, rfl, rfl⟩
    | _ => exact Or.inl rfl
  rw [← canonical_pack_unpacked x]
  exact canonical_pack hsame

theorem canonical_zero_add (x : Binary64) : (zero + x).canonical = x.canonical := by
  have hsame :
      SameNumber (UnpackedFloat.add .binary64 (.zero .positive) x.unpacked) x.unpacked := by
    cases x.unpacked with
    | zero s => cases s <;> exact Or.inr ⟨_, _, rfl, rfl⟩
    | _ => exact Or.inl rfl
  rw [← canonical_pack_unpacked x]
  exact canonical_pack hsame

/-! ## Products with zero and with NaN -/

theorem unpacked_of_isFinite {x : Binary64} (h : x.isFinite = true) :
    (∃ s, x.unpacked = .zero s) ∨ ∃ s m e, ∃ hm : 0 < m, x.unpacked = .finite s m e hm := by
  rw [isFinite_iff] at h
  have hn : x.isNaN = false := by
    rw [Bool.eq_false_iff, Ne, isNaN_iff]
    omega
  have he : ¬ exponentBits x.bits.toBitVec = -1#11 := by
    rw [exponent_full_iff, UInt64.toNat_toBitVec]
    omega
  rw [unpacked_of_not_isNaN hn, unpack_eq, if_neg he]
  by_cases h0 : exponentBits x.bits.toBitVec = 0#11
  · rw [if_pos h0]
    by_cases hm : mantissaBits x.bits.toBitVec = 0#52
    · rw [dif_pos hm]
      exact Or.inl ⟨_, rfl⟩
    · rw [dif_neg hm]
      exact Or.inr ⟨_, _, _, _, rfl⟩
  · rw [if_neg h0]
    exact Or.inr ⟨_, _, _, _, rfl⟩

theorem canonical_zero_mul {x : Binary64} (h : x.isFinite = true) :
    (zero * x).canonical = zero.canonical := by
  have hmul : ∃ s, UnpackedFloat.mul .binary64 (.zero .positive) x.unpacked = .zero s := by
    rcases unpacked_of_isFinite h with ⟨s, hs⟩ | ⟨s, m, e, hm, hs⟩
    · exact ⟨_, by rw [hs]; rfl⟩
    · exact ⟨_, by rw [hs]; rfl⟩
  obtain ⟨s, hs⟩ := hmul
  calc (zero * x).canonical = (pack (.zero s)).canonical := by rw [← hs]; rfl
    _ = zero.canonical := by cases s <;> rfl

theorem canonical_mul_nan (x : Binary64) : (x * nan).canonical = nan.canonical := by
  have hmul : UnpackedFloat.mul .binary64 x.unpacked .notANumber = .notANumber := by
    cases x.unpacked <;> rfl
  calc (x * nan).canonical = (pack .notANumber).canonical := by rw [← hmul]; rfl
    _ = nan.canonical := rfl

theorem unsigned_withSign (b : UInt64) :
    (⟨one.bits ||| (b &&& 0x8000000000000000)⟩ : Binary64).unsigned = one.bits := by
  apply UInt64.toBitVec_inj.mp
  simp only [unsigned, UInt64.toBitVec_and, UInt64.toBitVec_or]
  rw [BitVec.and_or_distrib_right, BitVec.and_assoc]
  have h :
      (0x8000000000000000 : UInt64).toBitVec &&& (0x7fffffffffffffff : UInt64).toBitVec = 0#64 :=
    rfl
  rw [h, BitVec.and_zero, BitVec.or_zero]
  rfl

theorem isFinite_clampUnit (x : Binary64) : x.clampUnit.isFinite = true := by
  unfold clampUnit
  split
  · unfold isFinite
    rw [unsigned_withSign]
    decide
  · rename_i h
    simp only [isFinite, decide_eq_true_eq]
    exact UInt64.lt_of_le_of_lt (UInt64.not_lt.mp h) (by decide)

end PulseSequencer.Binary64
