-- Places: the digits of a number in some base, and the members of a list that is
-- put together from pieces of one length. Both are found by quotients and
-- remainders.
import Mathlib.Algebra.Group.Nat.Defs

namespace PulseSequencer

/-- The digit of `i` in base `b` at place `k`, counted from the least significant one. -/
def digit (b i k : Nat) : Nat := i / b ^ k % b

theorem digit_lt {b : Nat} (hb : 0 < b) (i k : Nat) : digit b i k < b := Nat.mod_lt _ hb

/-- The digits below a place are those of the remainder. -/
theorem digit_mod_pow (b i : Nat) {k n : Nat} (h : k < n) :
    digit b (i % b ^ n) k = digit b i k := by
  obtain ⟨j, rfl⟩ := Nat.exists_eq_add_of_lt h
  have hsplit : b ^ (k + j + 1) = b ^ k * (b * b ^ j) := by
    rw [Nat.add_assoc, Nat.pow_add, Nat.pow_succ']
  rw [digit, digit, hsplit, Nat.mod_mul_right_div_self, Nat.mod_mul_right_mod]

/-- The digit at the highest place is the quotient. -/
theorem digit_top {b i n : Nat} (h : i < b ^ (n + 1)) : digit b i n = i / b ^ n := by
  rw [Nat.pow_succ] at h
  exact Nat.mod_eq_of_lt (Nat.div_lt_of_lt_mul h)

/-- In a row of pieces of one length, the quotient of an index picks the piece and the remainder
the place in it. -/
theorem getElem?_flatMap_of_length {α β : Type} {f : α → List β} {size : Nat}
    (hf : ∀ a, (f a).length = size) (hsize : 0 < size) (l : List α) (i : Nat) :
    (l.flatMap f)[i]? = l[i / size]?.bind fun a => (f a)[i % size]? := by
  induction l generalizing i with
  | nil => rfl
  | cons a rest ih =>
    rw [List.flatMap_cons]
    by_cases hlt : i < size
    · rw [List.getElem?_append_left (by rw [hf]; exact hlt), Nat.div_eq_of_lt hlt,
        Nat.mod_eq_of_lt hlt]
      rfl
    · have hge : size ≤ i := Nat.le_of_not_lt hlt
      rw [List.getElem?_append_right (by rw [hf]; exact hge), hf, ih,
        Nat.div_eq_sub_div hsize hge, Nat.mod_eq_sub_mod hge]
      rfl

end PulseSequencer
