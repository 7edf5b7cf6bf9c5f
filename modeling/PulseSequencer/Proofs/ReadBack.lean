-- Decimals read as doubles. Where the reals that round to one double end, those
-- that round to the next one begin, so the double of a decimal is found by
-- halving the patterns; and the shortest decimal of a double is read back as it.
import Mathlib.Data.Nat.Bitwise
import PulseSequencer.Decimal
import PulseSequencer.Proofs.Arithmetic

namespace PulseSequencer

/-! ## A double and the next one -/

namespace Binary64

theorem exponentField_eq (x : Binary64) : x.exponentField = x.unsigned.toNat / 2 ^ 52 := by
  rw [exponentField, UInt64.toNat_shiftRight, Nat.shiftRight_eq_div_pow]
  rfl

theorem fractionField_eq (x : Binary64) : x.fractionField = x.unsigned.toNat % 2 ^ 52 := by
  have hmask : x.fractionField = x.bits.toNat % 2 ^ 52 := by
    unfold fractionField
    rw [UInt64.toNat_and]
    exact Nat.and_two_pow_sub_one_eq_mod _ 52
  rw [hmask, toNat_unsigned]
  omega

theorem units_eq (x : Binary64) : x.units = x.significand * 2 ^ x.scale := Nat.shiftLeft_eq _ _

variable {x y : Binary64}

/-- The fields of the next pattern: the fraction grows by one, or it starts again and the
exponent grows by one. -/
theorem fields_succ (h : y.unsigned.toNat = x.unsigned.toNat + 1) :
    (y.exponentField = x.exponentField ∧ y.fractionField = x.fractionField + 1) ∨
      (y.exponentField = x.exponentField + 1 ∧ x.fractionField + 1 = 2 ^ 52 ∧
        y.fractionField = 0) := by
  rw [exponentField_eq, exponentField_eq, fractionField_eq, fractionField_eq, h]
  omega

/-- The next double is one step of its own scale away. -/
theorem units_succ (h : y.unsigned.toNat = x.unsigned.toNat + 1) :
    y.units = x.units + 2 ^ x.scale := by
  rw [units_eq, units_eq]
  unfold significand scale
  obtain ⟨hexponent, hfraction⟩ | ⟨hexponent, hfull, hfraction⟩ := fields_succ h
  · rw [hexponent, hfraction]
    split
    · rw [Nat.add_mul, Nat.one_mul]
    · rw [← Nat.add_assoc, Nat.add_mul, Nat.one_mul]
  · rw [hexponent, hfraction, if_neg (by omega)]
    split
    · rename_i hzero
      rw [hzero]
      omega
    · rename_i hpositive
      obtain ⟨e, he⟩ := Nat.exists_eq_succ_of_ne_zero hpositive
      have hsignificand : 0x10000000000000 + x.fractionField = 2 ^ 53 - 1 := by omega
      rw [he, hsignificand]
      simp only [Nat.succ_eq_add_one, Nat.add_sub_cancel, Nat.pow_succ]
      generalize 2 ^ e = step
      omega

theorem significand_succ (h : y.unsigned.toNat = x.unsigned.toNat + 1) :
    y.significand % 2 = 0 ↔ ¬ x.significand % 2 = 0 := by
  unfold significand
  obtain ⟨hexponent, hfraction⟩ | ⟨hexponent, hfull, hfraction⟩ := fields_succ h
  · rw [hexponent, hfraction]
    split <;> omega
  · rw [hexponent, hfraction, if_neg (by omega)]
    split <;> omega

end Binary64

namespace Decimal

open Binary64

/-! ## Where one interval ends and the next one begins -/

namespace Interval

variable {x y : Binary64}

/-- Halfway to the next double. -/
theorem high_eq (x : Binary64) : (ofDouble x).high = 4 * x.units + 2 * 2 ^ x.scale := by
  unfold ofDouble
  dsimp only
  rw [Nat.one_shiftLeft]

/-- The distance to halfway to the double before. -/
def lowGap (x : Binary64) : Nat :=
  if x.fractionField = 0 ∧ 1 < x.exponentField then 2 ^ x.scale else 2 * 2 ^ x.scale

theorem low_eq (x : Binary64) : (ofDouble x).low = 4 * x.units - lowGap x := by
  unfold ofDouble lowGap
  dsimp only
  rw [Nat.one_shiftLeft]

theorem lowGap_succ (h : y.unsigned.toNat = x.unsigned.toNat + 1) :
    lowGap y = 2 * 2 ^ x.scale := by
  unfold lowGap scale
  obtain ⟨hexponent, hfraction⟩ | ⟨hexponent, hfull, hfraction⟩ := fields_succ h
  · rw [hexponent, if_neg (by omega)]
  · rw [hexponent, hfraction]
    cases hx : x.exponentField with
    | zero => rw [if_neg (by omega)]
    | succ e =>
      rw [if_pos (by omega)]
      simp only [Nat.add_sub_cancel, Nat.pow_succ]
      omega

theorem low_succ (h : y.unsigned.toNat = x.unsigned.toNat + 1) :
    (ofDouble y).low = (ofDouble x).high := by
  rw [low_eq, high_eq, lowGap_succ h, units_succ h]
  omega

theorem closed_succ (h : y.unsigned.toNat = x.unsigned.toNat + 1) :
    (ofDouble y).closed = !(ofDouble x).closed := by
  unfold ofDouble
  dsimp only
  rw [Bool.eq_iff_iff]
  simp [significand_succ h]

theorem low_lt_high (x : Binary64) : (ofDouble x).low < (ofDouble x).high := by
  rw [low_eq, high_eq]
  have hstep := Nat.two_pow_pos x.scale
  omega

end Interval

/-! ## Reading -/

/-- Whether the point `n / d` lies beyond the lower end of the interval. -/
def Interval.reaches (i : Interval) (n d : Nat) : Bool :=
  if i.closed then i.low * d ≤ n else i.low * d < n

/-- What lies in an interval reaches it, and does not reach the next one. -/
theorem Interval.holds_iff {x y : Binary64} (h : y.unsigned.toNat = x.unsigned.toNat + 1)
    (n d : Nat) :
    (ofDouble x).holds n d = true ↔
      (ofDouble x).reaches n d = true ∧ (ofDouble y).reaches n d = false := by
  unfold holds reaches
  rw [closed_succ h, low_succ h]
  cases (ofDouble x).closed <;> simp

/-- What reaches an interval reaches the one before. -/
theorem Interval.reaches_of_succ {x y : Binary64} (h : y.unsigned.toNat = x.unsigned.toNat + 1)
    {n d : Nat} (hd : 0 < d) (hreaches : (ofDouble y).reaches n d = true) :
    (ofDouble x).reaches n d = true := by
  have hlow : (ofDouble x).low * d < (ofDouble y).low * d := by
    rw [low_succ h]
    exact Nat.mul_lt_mul_of_pos_right (low_lt_high x) hd
  have hle : (ofDouble y).low * d ≤ n := by
    unfold reaches at hreaches
    split at hreaches <;> simp only [decide_eq_true_eq] at hreaches <;> omega
  unfold reaches
  split <;> simp only [decide_eq_true_eq] <;> omega

/-- The last number for which `p` holds, if it is among the `2 ^ k` from `b` on. -/
def lastWith (p : Nat → Bool) : Nat → Nat → Nat
  | 0, b => b
  | k + 1, b => if p (b + 2 ^ k) then lastWith p k (b + 2 ^ k) else lastWith p k b

theorem lastWith_eq {p : Nat → Bool} (hp : ∀ j, p (j + 1) = true → p j = true) {k b m : Nat}
    (hb : b ≤ m) (hm : m < b + 2 ^ k) (hlast : p m = true) (hnext : p (m + 1) = false) :
    lastWith p k b = m := by
  have hdown : ∀ i j, p (i + j) = true → p i = true := by
    intro i j
    induction j with
    | zero => exact id
    | succ j ih => exact fun h => ih (hp _ h)
  induction k generalizing b with
  | zero =>
    rw [lastWith]
    omega
  | succ k ih =>
    rw [Nat.pow_succ] at hm
    rw [lastWith]
    split
    · rename_i hhalf
      apply ih
      · refine Nat.le_of_not_lt fun hlt => ?_
        have hback := hdown (m + 1) (b + 2 ^ k - (m + 1))
        rw [Nat.add_sub_cancel' (by omega)] at hback
        rw [hback hhalf] at hnext
        cases hnext
      · omega
    · rename_i hhalf
      refine ih hb (Nat.lt_of_not_le fun hge => ?_)
      have hback := hdown (b + 2 ^ k) (m - (b + 2 ^ k))
      rw [Nat.add_sub_cancel' (by omega)] at hback
      exact hhalf (hback hlast)

/-- The decimal lies among the reals that round to the double, whatever its sign. -/
def Reads (d : Decimal) (x : Binary64) : Prop :=
  (Interval.ofDouble x).holds (d.digits * (gridStep d.exponent).1) (gridStep d.exponent).2 = true

/-- The double of the given pattern and no sign. -/
def ofPattern (b : Nat) : Binary64 := ⟨UInt64.ofNat b⟩

/-- The double that a decimal is read as: the last one whose interval it reaches. -/
def toDouble (negative : Bool) (d : Decimal) : Binary64 :=
  let reached := fun b => b < infinity.bits.toNat &&
    (Interval.ofDouble (ofPattern b)).reaches (d.digits * (gridStep d.exponent).1)
      (gridStep d.exponent).2
  let b := lastWith reached 63 0
  ofPattern (if negative then 2 ^ 63 + b else b)

theorem unsigned_ofPattern {b : Nat} (h : b < 2 ^ 63) : (ofPattern b).unsigned.toNat = b := by
  rw [toNat_unsigned, ofPattern, UInt64.toNat_ofNat']
  omega

theorem Interval.ofDouble_congr {x y : Binary64} (h : x.unsigned.toNat = y.unsigned.toNat) :
    ofDouble x = ofDouble y := by
  unfold ofDouble units significand scale
  rw [exponentField_eq, exponentField_eq, fractionField_eq, fractionField_eq, h]

theorem Interval.holds_of_lt {i : Interval} {n d : Nat} (hlow : i.low * d < n)
    (hhigh : n < i.high * d) : i.holds n d = true := by
  unfold holds
  split <;> simp only [Bool.and_eq_true, decide_eq_true_eq] <;> omega

/-- A point is a fraction, however it is expanded. -/
theorem Interval.holds_mul (i : Interval) (n d : Nat) {k : Nat} (hk : 0 < k) :
    i.holds (n * k) (d * k) = i.holds n d := by
  unfold holds
  simp only [← Nat.mul_assoc, Nat.mul_le_mul_right_iff hk, Nat.mul_lt_mul_right hk]

/-- A double other than zero lies inside its interval, by a step of its scale at least. -/
theorem Interval.low_add_le {x : Binary64} (hx : x.significand ≠ 0) :
    (ofDouble x).low + 2 ^ x.scale ≤ (ofDouble x).value ∧
      (ofDouble x).value < (ofDouble x).high := by
  have hvalue : (ofDouble x).value = 4 * x.units := rfl
  have hstep := Nat.two_pow_pos x.scale
  have hunits : 2 ^ x.scale ≤ x.units := by
    rw [units_eq]
    exact Nat.le_mul_of_pos_left _ (Nat.pos_of_ne_zero hx)
  rw [low_eq, high_eq, hvalue]
  unfold lowGap
  split <;> omega

theorem gridStep_pos (exponent : Int) :
    0 < (gridStep exponent).1 ∧ 0 < (gridStep exponent).2 := by
  have hten (e : Nat) : 0 < Nat.pow 10 e := Nat.pow_pos (by decide)
  cases exponent with
  | ofNat e => exact ⟨Nat.lt_of_lt_of_le (hten e) (Nat.le_shiftLeft ..), Nat.one_pos⟩
  | negSucc e => exact ⟨Nat.lt_of_lt_of_le Nat.one_pos (Nat.le_shiftLeft ..), hten (e + 1)⟩

theorem isNegative_iff (x : Binary64) : x.isNegative = true ↔ 2 ^ 63 ≤ x.bits.toNat := by
  have hlt := x.bits.toNat_lt
  have hbit : x.bits.toNat &&& 2 ^ 63 = (x.bits.toNat.testBit 63).toNat * 2 ^ 63 :=
    Nat.and_two_pow _ _
  rw [Nat.testBit_eq_decide_div_mod_eq] at hbit
  have hmask : x.isNegative = true ↔ x.bits.toNat &&& 2 ^ 63 ≠ 0 := by
    rw [isNegative, bne_iff_ne, Ne, ← UInt64.toNat_inj, UInt64.toNat_and]
    rfl
  rw [hmask, hbit]
  by_cases h : 2 ^ 63 ≤ x.bits.toNat
  · have hset : x.bits.toNat / 2 ^ 63 % 2 = 1 := by omega
    simp only [hset, h]
    decide
  · have hclear : x.bits.toNat / 2 ^ 63 % 2 = 0 := by omega
    simp only [hclear, h]
    decide

/-- A decimal among the reals that round to a finite double is read as it. -/
theorem toDouble_of_reads {d : Decimal} {x : Binary64} (hx : x.isFinite = true) (h : d.Reads x) :
    d.toDouble x.isNegative = x := by
  have hfinite := (isFinite_iff x).mp hx
  rw [← toNat_unsigned] at hfinite
  have hinfinity : infinity.bits.toNat = 0x7ff0000000000000 := rfl
  have hnext := unsigned_ofPattern (b := x.unsigned.toNat + 1) (by omega)
  obtain ⟨hreaches, hmisses⟩ := (Interval.holds_iff hnext _ _).mp h
  have hpattern : lastWith (fun b => b < infinity.bits.toNat &&
      (Interval.ofDouble (ofPattern b)).reaches (d.digits * (gridStep d.exponent).1)
        (gridStep d.exponent).2) 63 0 = x.unsigned.toNat := by
    apply lastWith_eq
    · intro j hj
      rw [Bool.and_eq_true, decide_eq_true_eq] at hj ⊢
      have hsucc : (ofPattern (j + 1)).unsigned.toNat = (ofPattern j).unsigned.toNat + 1 := by
        rw [unsigned_ofPattern (by omega), unsigned_ofPattern (by omega)]
      exact ⟨by omega, Interval.reaches_of_succ hsucc (gridStep_pos _).2 hj.2⟩
    · omega
    · omega
    · rw [Bool.and_eq_true, decide_eq_true_eq,
        Interval.ofDouble_congr (unsigned_ofPattern (b := x.unsigned.toNat) (by omega))]
      exact ⟨by omega, hreaches⟩
    · rw [hmisses, Bool.and_false]
  unfold toDouble
  dsimp only
  rw [hpattern, toNat_unsigned]
  have hlt := x.bits.toNat_lt
  have hbits : (if x.isNegative = true then 2 ^ 63 + x.bits.toNat % 2 ^ 63
      else x.bits.toNat % 2 ^ 63) = x.bits.toNat := by
    simp only [isNegative_iff]
    split <;> omega
  rw [hbits, ofPattern, UInt64.ofNat_toNat]

/-- Zeros behind the last digit, one of them behind the point, do not change what is read. -/
theorem Reads.with_zeros {m e : Nat} {x : Binary64} (h : Reads ⟨m, .ofNat e⟩ x) :
    Reads ⟨m * 10 ^ (e + 1), -1⟩ x := by
  have hscaled (shift : Nat) : m * 10 ^ (e + 1) * 1 <<< shift = m * (10 ^ e <<< shift) * 10 := by
    rw [Nat.one_shiftLeft, Nat.shiftLeft_eq, Nat.pow_succ]
    simp only [Nat.mul_left_comm, Nat.mul_comm]
  have hsame := Interval.holds_mul (.ofDouble x) (m * (10 ^ e <<< 1076)) 1 (k := 10) (by decide)
  rw [← hscaled] at hsame
  exact hsame.trans h

/-! ## The shortest decimal -/

theorem nearestOnGrid_holds {tie : Tie} {i : Interval} {exponent : Int} {k : Nat}
    (h : nearestOnGrid tie i exponent = some k) :
    i.holds (k * (gridStep exponent).1) (gridStep exponent).2 = true := by
  unfold nearestOnGrid at h
  dsimp only at h
  split at h
  · cases h
  · cases h
    assumption
  · cases h
    assumption
  · rename_i hbelow habove
    split at h
    · cases h
      exact hbelow
    · split at h
      · cases h
        exact habove
      · cases tie with
        | up =>
          cases h
          exact habove
        | even =>
          dsimp only at h
          split at h
          · cases h
            exact hbelow
          · cases h
            exact habove

/-- A grid with steps no longer than the double's own has a point among the reals that round to
it, the one next below the double itself. -/
theorem nearestOnGrid_of_fine {x : Binary64} (hx : x.significand ≠ 0) (tie : Tie) {exponent : Int}
    (hfine : (gridStep exponent).1 ≤ 2 ^ x.scale * (gridStep exponent).2) :
    ∃ k, nearestOnGrid tie (.ofDouble x) exponent = some k := by
  have hbelow : (Interval.ofDouble x).holds ((Interval.ofDouble x).value *
      (gridStep exponent).2 / (gridStep exponent).1 * (gridStep exponent).1)
      (gridStep exponent).2 = true := by
    obtain ⟨hn, hd⟩ := gridStep_pos exponent
    obtain ⟨hlow, hhigh⟩ := Interval.low_add_le hx
    generalize (gridStep exponent).1 = n at *
    generalize (gridStep exponent).2 = d at *
    have hle := Nat.div_mul_le_self ((Interval.ofDouble x).value * d) n
    have hlt : (Interval.ofDouble x).value * d <
        (Interval.ofDouble x).value * d / n * n + n := Nat.lt_div_mul_add hn
    have hlow := Nat.mul_le_mul_right d hlow
    have hhigh := Nat.mul_lt_mul_of_pos_right hhigh hd
    rw [Nat.add_mul] at hlow
    exact Interval.holds_of_lt (by omega) (by omega)
  unfold nearestOnGrid
  dsimp only
  rw [hbelow]
  cases (Interval.ofDouble x).holds (((Interval.ofDouble x).value * (gridStep exponent).2 /
      (gridStep exponent).1 + 1) * (gridStep exponent).1) (gridStep exponent).2 with
  | false => exact ⟨_, rfl⟩
  | true =>
    dsimp only
    split
    · exact ⟨_, rfl⟩
    · split
      · exact ⟨_, rfl⟩
      · cases tie with
        | up => exact ⟨_, rfl⟩
        | even =>
          dsimp only
          split <;> exact ⟨_, rfl⟩

theorem firstHit_holds {tie : Tie} {i : Interval} {fuel : Nat} {exponent : Int} {k : Nat}
    (h : nearestOnGrid tie i (exponent - fuel) = some k) :
    i.holds ((firstHit tie i fuel exponent).digits *
        (gridStep (firstHit tie i fuel exponent).exponent).1)
      (gridStep (firstHit tie i fuel exponent).exponent).2 = true := by
  induction fuel generalizing exponent with
  | zero =>
    rw [Int.natCast_zero, Int.sub_zero] at h
    rw [firstHit, h]
    exact nearestOnGrid_holds h
  | succ fuel ih =>
    rw [firstHit]
    split
    · rename_i digits hdigits
      exact nearestOnGrid_holds hdigits
    · apply ih
      rw [← h]
      congr 1
      omega

theorem ten_pow_le {e k : Nat} (h : 10 * e ≤ 3 * k) : 10 ^ e ≤ 2 ^ k := by
  rw [← Nat.pow_le_pow_iff_left (n := 3) (by decide)]
  calc (10 ^ e) ^ 3 = (10 ^ 3) ^ e := Nat.pow_right_comm ..
    _ ≤ (2 ^ 10) ^ e := Nat.pow_le_pow_left (by decide) e
    _ = 2 ^ (10 * e) := (Nat.pow_mul ..).symm
    _ ≤ 2 ^ (3 * k) := Nat.pow_le_pow_right (by decide) h
    _ = (2 ^ k) ^ 3 := by rw [Nat.mul_comm, Nat.pow_mul]

theorem two_pow_le {k m : Nat} (h : 10 * k ≤ 33 * m) : 2 ^ k ≤ 10 ^ m := by
  rw [← Nat.pow_le_pow_iff_left (n := 10) (by decide)]
  calc (2 ^ k) ^ 10 = 2 ^ (10 * k) := by rw [Nat.mul_comm, Nat.pow_mul]
    _ ≤ 2 ^ (33 * m) := Nat.pow_le_pow_right (by decide) h
    _ = (2 ^ 33) ^ m := Nat.pow_mul ..
    _ ≤ (10 ^ 10) ^ m := Nat.pow_le_pow_left (by decide) m
    _ = (10 ^ m) ^ 10 := Nat.pow_right_comm ..

theorem shiftLeft_le {a k : Nat} (h : a ≤ 2 ^ k) (shift : Nat) :
    a <<< shift ≤ 2 ^ (k + shift) := by
  rw [Nat.shiftLeft_eq, Nat.pow_add]
  exact Nat.mul_le_mul_right _ h

theorem one_shiftLeft_le {shift k b : Nat} (h : 2 ^ (shift - k) ≤ b) :
    1 <<< shift ≤ 2 ^ k * b := by
  calc 1 <<< shift = 2 ^ shift := Nat.one_shiftLeft shift
    _ ≤ 2 ^ (k + (shift - k)) := Nat.pow_le_pow_right (by decide) (by omega)
    _ = 2 ^ k * 2 ^ (shift - k) := Nat.pow_add ..
    _ ≤ 2 ^ k * b := Nat.mul_le_mul_left _ h

theorem significand_lt (x : Binary64) : x.significand < 2 ^ 53 := by
  have hfraction : x.fractionField < 2 ^ 52 := by
    rw [fractionField_eq]
    omega
  unfold significand
  split <;> omega

theorem significand_eq_zero_iff (x : Binary64) : x.significand = 0 ↔ x.isZero = true := by
  rw [isZero_iff, ← toNat_unsigned]
  unfold significand
  rw [exponentField_eq, fractionField_eq]
  split <;> omega

theorem scale_lt {x : Binary64} (h : x.isFinite = true) : x.scale < 2046 := by
  rw [isFinite_iff, ← toNat_unsigned] at h
  rw [scale, exponentField_eq]
  omega

/-- The search for the shortest decimal comes to a grid that is fine enough. -/
theorem coarsest_fine {x : Binary64} (hx : x.significand ≠ 0) (hfinite : x.isFinite = true) :
    (gridStep (coarsest x - 24)).1 ≤ 2 ^ x.scale * (gridStep (coarsest x - 24)).2 := by
  have hscale := scale_lt hfinite
  have hunits : x.units ≠ 0 := by
    rw [units_eq]
    exact Nat.mul_ne_zero hx (Nat.two_pow_pos _).ne'
  have hlog : Nat.log2 x.units < 53 + x.scale := by
    rw [Nat.log2_lt hunits, units_eq, Nat.pow_add]
    exact Nat.mul_lt_mul_of_pos_right (significand_lt x) (Nat.two_pow_pos _)
  generalize hexponent : coarsest x - 24 = exponent
  rw [coarsest] at hexponent
  cases exponent with
  | ofNat e =>
    rw [Int.ofNat_eq_natCast] at hexponent
    obtain ⟨k, hk⟩ : ∃ k, x.scale = k + 1076 := ⟨x.scale - 1076, by omega⟩
    have hpower : 10 ^ e ≤ 2 ^ k := ten_pow_le (by omega)
    rw [hk]
    exact Nat.le_trans (shiftLeft_le hpower 1076) (Nat.le_mul_of_pos_right _ Nat.one_pos)
  | negSucc e =>
    exact one_shiftLeft_le (two_pow_le (by omega))

/-- The shortest decimal of a finite double lies among the reals that round to it. -/
theorem reads_shortest (tie : Tie) {x : Binary64} (hx : x.isFinite = true) :
    (shortest tie x).Reads x := by
  unfold shortest Reads
  split
  · rename_i hzero
    have hsignificand := (significand_eq_zero_iff x).mpr hzero
    have hclosed : (Interval.ofDouble x).closed = true := by
      unfold Interval.ofDouble
      simp [hsignificand]
    have hlow : (Interval.ofDouble x).low = 0 := by
      rw [Interval.low_eq, units_eq, hsignificand]
      omega
    simp [Interval.holds, hclosed, hlow]
  · rename_i hzero
    have hsignificand := mt (significand_eq_zero_iff x).mp hzero
    obtain ⟨k, hk⟩ := nearestOnGrid_of_fine hsignificand tie (coarsest_fine hsignificand hx)
    exact firstHit_holds hk

end Decimal

end PulseSequencer
