-- The texts of numbers. A number with a point or an exponent is read digit by digit
-- as a decimal, and the text of a double as a decimal that rounds to it.
import Mathlib.Data.List.TakeWhile
import PulseSequencer.Text.Json
import PulseSequencer.Proofs.ReadBack

namespace PulseSequencer.Text.Json

/-! ## Reading -/

/-- The parts of a text before and behind the first `c`. -/
def cut (c : Char) (cs : List Char) : List Char × List Char :=
  (cs.takeWhile (· ≠ c), (cs.dropWhile (· ≠ c)).tail)

theorem ne_of_mem {c : Char} {xs : List Char} (h : c ∉ xs) :
    ∀ d ∈ xs, decide (d ≠ c) = true := by
  intro d hd
  rw [decide_eq_true_eq]
  rintro rfl
  exact h hd

theorem cut_append {c : Char} {xs : List Char} (h : c ∉ xs) (ys : List Char) :
    cut c (xs ++ c :: ys) = (xs, ys) := by
  have hne := ne_of_mem h
  unfold cut
  rw [List.takeWhile_append_of_pos hne, List.dropWhile_append_of_pos hne]
  simp

theorem cut_of_not_mem {c : Char} {xs : List Char} (h : c ∉ xs) : cut c xs = (xs, []) := by
  unfold cut
  rw [List.takeWhile_eq_self_iff.mpr (ne_of_mem h), List.dropWhile_eq_nil_iff.mpr (ne_of_mem h)]
  rfl

/-- The exponent behind the `e`. -/
def exponentOf : List Char → Int
  | [] => 0
  | sign :: cs => if sign = '-' then -(Nat.ofDigitChars 10 cs 0 : Int) else Nat.ofDigitChars 10 cs 0

/-- A number with a point or an exponent, and no sign in front. -/
def decimalOf (cs : List Char) : Decimal :=
  let (mantissa, exponent) := cut 'e' cs
  let (whole, places) := cut '.' mantissa
  ⟨Nat.ofDigitChars 10 (whole ++ places) 0, exponentOf exponent - places.length⟩

/-- The digits of a number before the point, those behind it if there is one, and the exponent if
there is one. -/
structure Numeral where
  whole : List Char
  places : Option (List Char)
  exponent : Option Int
  nonempty : whole ≠ []
  whole_digits : ∀ c ∈ whole, c.isDigit = true
  places_digits : ∀ c ∈ places.getD [], c.isDigit = true
  /-- There is a point or an exponent. -/
  marked : places.isSome = true ∨ exponent.isSome = true

namespace Numeral

def exponentText (e : Int) : List Char :=
  'e' :: (if e < 0 then '-' else '+') :: Nat.toDigits 10 e.natAbs

/-- The parts written one after another. -/
def text (n : Numeral) : List Char :=
  n.whole ++ n.places.elim [] ('.' :: ·) ++ n.exponent.elim [] exponentText

/-- The number they stand for. -/
def decimal (n : Numeral) : Decimal :=
  ⟨Nat.ofDigitChars 10 (n.whole ++ n.places.getD []) 0,
    n.exponent.getD 0 - (n.places.getD []).length⟩

theorem exponentOf_exponentText (e : Int) : exponentOf (exponentText e).tail = e := by
  unfold exponentText exponentOf
  dsimp only [List.tail_cons]
  rw [Nat.ofDigitChars_ten_toDigits]
  by_cases hnegative : e < 0
  · rw [if_pos hnegative, if_pos rfl]
    omega
  · rw [if_neg hnegative, if_neg (by decide)]
    omega

theorem not_mem_of_digits {c : Char} {cs : List Char} (hc : c.isDigit = false)
    (h : ∀ c ∈ cs, c.isDigit = true) : c ∉ cs := by
  intro hm
  rw [h c hm] at hc
  cases hc

/-- The reader takes a number apart where its parts meet. -/
theorem decimalOf_text (n : Numeral) : decimalOf n.text = n.decimal := by
  -- No digit and no point is an `e`, and no digit is a point.
  have hcut : cut 'e' n.text = (n.whole ++ n.places.elim [] ('.' :: ·),
      (n.exponent.elim [] exponentText).tail) := by
    have hmantissa : 'e' ∉ n.whole ++ n.places.elim [] ('.' :: ·) := by
      rw [List.mem_append, not_or]
      refine ⟨not_mem_of_digits (by decide) n.whole_digits, ?_⟩
      have hplaces := not_mem_of_digits (c := 'e') (by decide) n.places_digits
      cases hp : n.places with
      | none => simp
      | some places => simpa [hp] using hplaces
    unfold text
    cases n.exponent with
    | none => simpa using cut_of_not_mem hmantissa
    | some e => exact cut_append hmantissa _
  have hpoint : cut '.' (n.whole ++ n.places.elim [] ('.' :: ·)) =
      (n.whole, n.places.getD []) := by
    have hwhole := not_mem_of_digits (c := '.') (by decide) n.whole_digits
    cases n.places with
    | none => simpa using cut_of_not_mem hwhole
    | some places => exact cut_append hwhole _
  have hexponent : exponentOf (n.exponent.elim [] exponentText).tail = n.exponent.getD 0 := by
    cases n.exponent with
    | none => rfl
    | some e => exact exponentOf_exponentText e
  unfold decimalOf decimal
  rw [hcut]
  dsimp only
  rw [hpoint]
  dsimp only
  rw [hexponent]

theorem head_text (n : Numeral) : ∃ c cs, n.text = c :: cs ∧ c.isDigit = true := by
  obtain ⟨c, cs, hwhole⟩ := List.exists_cons_of_ne_nil n.nonempty
  refine ⟨c, cs ++ n.places.elim [] ('.' :: ·) ++ n.exponent.elim [] exponentText, ?_, ?_⟩
  · rw [text, hwhole]
    rfl
  · exact n.whole_digits c (hwhole ▸ List.mem_cons_self)

/-- The point or the `e` tells such a number from a whole one. -/
theorem not_all_digits (n : Numeral) : n.text.all Char.isDigit = false := by
  unfold text
  obtain hplaces | hexponent := n.marked
  · obtain ⟨places, hplaces⟩ := Option.isSome_iff_exists.mp hplaces
    simp [hplaces]
  · obtain ⟨e, hexponent⟩ := Option.isSome_iff_exists.mp hexponent
    simp [hexponent, exponentText]

end Numeral

/-! ## The texts of decimals -/

/-- The text of a double without its sign. -/
def magnitude (d : Decimal) : String :=
  if -5 ≤ d.leadingExponent ∧ d.leadingExponent ≤ 15 then
    d.positional ++ (if d.exponent < 0 then "" else ".0")
  else d.scientific

theorem doubleText_eq (x : Binary64) :
    (doubleText x).toList =
      (if x.isNegative then ['-'] else []) ++ (magnitude (.shortest .even x)).toList := by
  unfold doubleText magnitude
  dsimp only
  split <;> split <;> simp

theorem toList_digitText (d : Decimal) : d.digitText.toList = Nat.toDigits 10 d.digits := by
  rw [Decimal.digitText, Nat.repr_eq_ofList_toDigits, String.toList_ofList]

theorem digits_toDigits (n : Nat) : ∀ c ∈ Nat.toDigits 10 n, c.isDigit = true :=
  fun _ hc => Nat.isDigit_of_mem_toDigits (by decide) (by decide) hc

theorem digits_replicate_zero (n : Nat) : ∀ c ∈ List.replicate n '0', c.isDigit = true := by
  intro c hc
  rw [(List.mem_replicate.mp hc).2]
  decide

theorem digits_append {xs ys : List Char} (hxs : ∀ c ∈ xs, c.isDigit = true)
    (hys : ∀ c ∈ ys, c.isDigit = true) : ∀ c ∈ xs ++ ys, c.isDigit = true := by
  intro c hc
  obtain hc | hc := List.mem_append.mp hc
  · exact hxs c hc
  · exact hys c hc

/-- A whole number with `.0` behind it. -/
def Numeral.ofWhole (m e : Nat) : Numeral where
  whole := Nat.toDigits 10 m ++ List.replicate e '0'
  places := some ['0']
  exponent := none
  nonempty := by simp [Nat.toDigits_ne_nil]
  whole_digits := digits_append (digits_toDigits m) (digits_replicate_zero e)
  places_digits := digits_replicate_zero 1
  marked := .inl rfl

theorem Numeral.text_ofWhole (m e : Nat) :
    (ofWhole m e).text = ((Decimal.positional ⟨m, .ofNat e⟩) ++ ".0").toList := by
  simp [text, ofWhole, Decimal.positional, toList_digitText, Decimal.zerosText]

theorem Numeral.decimal_ofWhole (m e : Nat) : (ofWhole m e).decimal = ⟨m * 10 ^ (e + 1), -1⟩ := by
  have hdigits : Nat.toDigits 10 m ++ List.replicate e '0' ++ ['0'] =
      Nat.toDigits 10 m ++ List.replicate (e + 1) '0' := by
    rw [List.replicate_succ', List.append_assoc]
  unfold decimal ofWhole
  simp only [Option.getD_some, Option.getD_none]
  rw [hdigits, Nat.ofDigitChars_append, Nat.ofDigitChars_ten_toDigits,
    Nat.ofDigitChars_replicate_zero, Nat.mul_comm]
  rfl

/-- The digits of a number below one, or with places, the zeros in front written out. -/
def padded (m places : Nat) : List Char :=
  List.replicate (places + 1 - (Nat.toDigits 10 m).length) '0' ++ Nat.toDigits 10 m

theorem length_padded (m places : Nat) : places < (padded m places).length := by
  rw [padded, List.length_append, List.length_replicate]
  omega

theorem digits_padded (m places : Nat) : ∀ c ∈ padded m places, c.isDigit = true :=
  digits_append (digits_replicate_zero _) (digits_toDigits m)

/-- A number with as many places as the grid has. -/
def Numeral.ofPlaces (m places : Nat) : Numeral where
  whole := (padded m places).take ((padded m places).length - places)
  places := some ((padded m places).drop ((padded m places).length - places))
  exponent := none
  nonempty := by
    have hlength := length_padded m places
    rw [Ne, List.take_eq_nil_iff, ← List.length_eq_zero_iff]
    omega
  whole_digits := fun c hc => digits_padded m places c (List.mem_of_mem_take hc)
  places_digits := fun c hc => digits_padded m places c (List.mem_of_mem_drop hc)
  marked := .inl rfl

theorem Numeral.text_ofPlaces (m e : Nat) :
    (ofPlaces m (e + 1)).text = (Decimal.positional ⟨m, .negSucc e⟩).toList := by
  simp [text, ofPlaces, padded, Decimal.positional, toList_digitText, Decimal.zerosText,
    ← String.length_toList]

theorem Numeral.decimal_ofPlaces (m e : Nat) : (ofPlaces m (e + 1)).decimal = ⟨m, .negSucc e⟩ := by
  have hlength := length_padded m (e + 1)
  have hdigits : Nat.ofDigitChars 10 (padded m (e + 1)) 0 = m := by
    rw [padded, Nat.ofDigitChars_append, Nat.ofDigitChars_replicate_zero, Nat.mul_zero,
      Nat.ofDigitChars_ten_toDigits]
  unfold decimal ofPlaces
  simp only [Option.getD_some, Option.getD_none, List.take_append_drop, List.length_drop]
  rw [hdigits, Nat.sub_sub_self (by omega)]
  congr 1

/-- One digit, the others behind the point, and an exponent. -/
def Numeral.ofScientific (d : Decimal) : Numeral where
  whole := (Nat.toDigits 10 d.digits).take 1
  places := if (Nat.toDigits 10 d.digits).length = 1 then none
    else some ((Nat.toDigits 10 d.digits).drop 1)
  exponent := some d.leadingExponent
  nonempty := by simp [Nat.toDigits_ne_nil]
  whole_digits := fun c hc => digits_toDigits _ c (List.mem_of_mem_take hc)
  places_digits := by
    split
    · simp
    · exact fun c hc => digits_toDigits _ c (List.mem_of_mem_drop hc)
  marked := .inr rfl

theorem Numeral.text_ofScientific (d : Decimal) : (ofScientific d).text = d.scientific.toList := by
  unfold text ofScientific Decimal.scientific exponentText
  simp only [← String.length_toList, toList_digitText]
  by_cases hone : (Nat.toDigits 10 d.digits).length = 1 <;>
    by_cases hnegative : d.leadingExponent < 0 <;>
    simp [hone, hnegative, toList_digitText, Nat.repr_eq_ofList_toDigits]

theorem Numeral.decimal_ofScientific (d : Decimal) : (ofScientific d).decimal = d := by
  have hplaces : (ofScientific d).places.getD [] = (Nat.toDigits 10 d.digits).drop 1 := by
    dsimp only [ofScientific]
    split
    · rename_i hone
      rw [List.drop_eq_nil_of_le (by omega), Option.getD_none]
    · rw [Option.getD_some]
  have hpos := Nat.length_toDigits_pos (b := 10) (n := d.digits)
  unfold decimal
  rw [hplaces]
  simp only [ofScientific, Option.getD_some, List.take_append_drop, List.length_drop]
  rw [Nat.ofDigitChars_ten_toDigits, Decimal.leadingExponent, ← String.length_toList,
    toList_digitText]
  congr 1
  omega

/-- A decimal is written so that whatever it is read as is read from its text too. -/
theorem exists_numeral (d : Decimal) :
    ∃ n : Numeral, n.text = (magnitude d).toList ∧ ∀ x, d.Reads x → n.decimal.Reads x := by
  unfold magnitude
  split
  · obtain ⟨m, exponent⟩ := d
    cases exponent with
    | ofNat e =>
      refine ⟨.ofWhole m e, ?_, fun x h => ?_⟩
      · have hexponent : ¬ Int.ofNat e < 0 := Int.not_lt.mpr (Int.natCast_nonneg e)
        dsimp only
        rw [Numeral.text_ofWhole, if_neg hexponent]
      · -- Only here does the text have more digits than the decimal.
        rw [Numeral.decimal_ofWhole]
        exact h.with_zeros
    | negSucc e =>
      refine ⟨.ofPlaces m (e + 1), ?_, fun x h => ?_⟩
      · rw [Numeral.text_ofPlaces]
        simp
      · rw [Numeral.decimal_ofPlaces]
        exact h
  · refine ⟨.ofScientific d, Numeral.text_ofScientific d, fun x h => ?_⟩
    rw [Numeral.decimal_ofScientific]
    exact h

end PulseSequencer.Text.Json
