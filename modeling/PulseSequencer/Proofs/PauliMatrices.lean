-- The Pauli matrices of several qubits, counted in base four. The digits of a
-- number name the factors of its matrix, and the bits of a row and a column
-- pick the entry of each factor.
import PulseSequencer.Clifford.Pauli
import PulseSequencer.Proofs.Places

namespace PulseSequencer

/-! ## Products over all places -/

/-- The value at place `n` before the value at place `n - 1` and so on down to place zero, grouped
from the right. -/
def fromTop {α : Type} (op : α → α → α) (value : Nat → α) : Nat → α
  | 0 => value 0
  | n + 1 => op (value (n + 1)) (fromTop op value n)

theorem fromTop_congr {α : Type} (op : α → α → α) {f g : Nat → α} {n : Nat}
    (h : ∀ k < n + 1, f k = g k) : fromTop op f n = fromTop op g n := by
  induction n with
  | zero => exact h 0 (Nat.zero_lt_one)
  | succ n ih =>
    rw [fromTop, fromTop, h (n + 1) (Nat.lt_succ_self _), ih fun k hk => h k (by omega)]

/-! ## Kronecker products -/

namespace GateMatrix

/-- Entry by entry: the quotients pick the entry of the first factor, and the remainders that of
the second. -/
theorem get_kron {a b : GateMatrix} {r c : Nat} (hr : r < a.rows * b.rows)
    (hc : c < a.cols * b.cols) :
    (a.kron b).get r c =
      a.get (r / b.rows) (c / b.cols) * b.get (r % b.rows) (c % b.cols) :=
  get_ofFn _ hr hc

/-- A product of two-by-two matrices has a row and a column for each string of bits. -/
theorem shape_fromTop {factor : Nat → GateMatrix}
    (h : ∀ k, (factor k).rows = 2 ∧ (factor k).cols = 2) (n : Nat) :
    (fromTop kron factor n).rows = 2 ^ (n + 1) ∧ (fromTop kron factor n).cols = 2 ^ (n + 1) := by
  induction n with
  | zero => exact h 0
  | succ n ih =>
    obtain ⟨hrows, hcols⟩ := h (n + 1)
    constructor
    · calc (fromTop kron factor (n + 1)).rows
          = (factor (n + 1)).rows * (fromTop kron factor n).rows := rfl
        _ = 2 ^ (n + 2) := by rw [hrows, ih.1, Nat.pow_succ' (n := n + 1)]
    · calc (fromTop kron factor (n + 1)).cols
          = (factor (n + 1)).cols * (fromTop kron factor n).cols := rfl
        _ = 2 ^ (n + 2) := by rw [hcols, ih.2, Nat.pow_succ' (n := n + 1)]

/-- The entries of such a product, from the bits of the row and of the column. -/
theorem get_fromTop {factor : Nat → GateMatrix}
    (h : ∀ k, (factor k).rows = 2 ∧ (factor k).cols = 2) {n r c : Nat} (hr : r < 2 ^ (n + 1))
    (hc : c < 2 ^ (n + 1)) :
    (fromTop kron factor n).get r c =
      fromTop (· * ·) (fun k => (factor k).get (digit 2 r k) (digit 2 c k)) n := by
  induction n generalizing r c with
  | zero =>
    have hrow : digit 2 r 0 = r := by rw [digit_top hr, Nat.pow_zero, Nat.div_one]
    have hcol : digit 2 c 0 = c := by rw [digit_top hc, Nat.pow_zero, Nat.div_one]
    rw [fromTop, fromTop, hrow, hcol]
  | succ n ih =>
    obtain ⟨hrows, hcols⟩ := h (n + 1)
    obtain ⟨hrest, hrest'⟩ := shape_fromTop h n
    -- The second factor is looked up at the remainders, which have the same bits below the top.
    have hlow : fromTop (· * ·)
        (fun k => (factor k).get (digit 2 (r % 2 ^ (n + 1)) k) (digit 2 (c % 2 ^ (n + 1)) k)) n =
          fromTop (· * ·) (fun k => (factor k).get (digit 2 r k) (digit 2 c k)) n := by
      apply fromTop_congr
      intro k hk
      rw [digit_mod_pow 2 r hk, digit_mod_pow 2 c hk]
    have hpos : 0 < 2 ^ (n + 1) := Nat.two_pow_pos _
    rw [fromTop, fromTop, get_kron (by rw [hrows, hrest]; omega) (by rw [hcols, hrest']; omega),
      hrest, hrest', ih (Nat.mod_lt _ hpos) (Nat.mod_lt _ hpos), hlow, digit_top hr, digit_top hc]

end GateMatrix

/-! ## The list of matrices -/

namespace Pauli

/-- The matrix that a digit stands for. -/
def ofDigit : Nat → GateMatrix
  | 0 => .identity 2
  | 1 => x
  | 2 => y
  | _ => z

/-- The entry of I, X, Y or Z, whichever the digit stands for, in a row and a column. -/
def entry : Nat → Nat → Nat → Amplitude
  | 0, 0, 0 | 0, 1, 1 | 1, 0, 1 | 1, 1, 0 | 3, 0, 0 => ⟨.one, .zero⟩
  | 2, 0, 1 => ⟨.zero, -.one⟩
  | 2, 1, 0 => ⟨.zero, .one⟩
  | 3, 1, 1 => ⟨-.one, .zero⟩
  | _, _, _ => ⟨.zero, .zero⟩

theorem get_ofDigit : ∀ d < 4, ∀ r < 2, ∀ s < 2, (ofDigit d).get r s = entry d r s := by
  decide +kernel

theorem getElem?_single {d : Nat} (h : d < 4) : single[d]? = some (ofDigit d) := by
  match d, h with
  | 0, _ => rfl
  | 1, _ => rfl
  | 2, _ => rfl
  | 3, _ => rfl

theorem shape_ofDigit (d : Nat) : (ofDigit d).rows = 2 ∧ (ofDigit d).cols = 2 := by
  unfold ofDigit
  split <;> exact ⟨rfl, rfl⟩

theorem length_onQubits (n : Nat) : (onQubits n).length = 4 ^ (n + 1) := by
  induction n with
  | zero => rfl
  | succ n ih =>
    have hpieces : (onQubits (n + 1)).length = 4 * (onQubits n).length := by
      simp only [onQubits, single, List.flatMap_cons, List.flatMap_nil, List.length_append,
        List.length_map, List.length_nil]
      omega
    rw [hpieces, ih, Nat.pow_succ' (n := n + 1)]

/-- The matrix of a number is the Kronecker product of the matrices of its digits, the first digit
in front. -/
theorem getElem?_onQubits {n i : Nat} (h : i < 4 ^ (n + 1)) :
    (onQubits n)[i]? = some (fromTop GateMatrix.kron (fun k => ofDigit (digit 4 i k)) n) := by
  induction n generalizing i with
  | zero =>
    have hdigit : digit 4 i 0 = i := by rw [digit_top h, Nat.pow_zero, Nat.div_one]
    rw [onQubits, fromTop, hdigit]
    exact getElem?_single h
  | succ n ih =>
    -- Each of the four pieces has the matrices of one qubit less, so the quotient is the first
    -- digit and the remainder counts within the piece.
    have hpos : 0 < 4 ^ (n + 1) := Nat.pow_pos (by decide)
    have hpiece : ∀ p : GateMatrix, ((onQubits n).map (p.kron ·)).length = 4 ^ (n + 1) := by
      intro p
      rw [List.length_map, length_onQubits]
    have hlow : fromTop GateMatrix.kron (fun k => ofDigit (digit 4 (i % 4 ^ (n + 1)) k)) n =
        fromTop GateMatrix.kron (fun k => ofDigit (digit 4 i k)) n :=
      fromTop_congr _ fun k hk => by rw [digit_mod_pow 4 i hk]
    rw [onQubits, getElem?_flatMap_of_length hpiece hpos, ← digit_top h,
      getElem?_single (digit_lt (by decide) i _), Option.bind_some, List.getElem?_map,
      ih (Nat.mod_lt i hpos), hlow]
    rfl

/-- There are Pauli matrices for every number of qubits but zero. For `n + 1` qubits they are
counted in base four, and each has a row and a column for every string of `n + 1` bits. Digit `k` of
the number names the factor of qubit `k`, one of I, X, Y and Z, and bit `k` of the row and of the
column picks its entry. -/
theorem pauli_matrices_are_counted_in_base_four :
    (∀ qubits e, matrices qubits = .error e ↔ qubits = 0 ∧ e = .noQubits) ∧
      (∀ d < 4, ∀ r < 2, ∀ s < 2, (ofDigit d).get r s = entry d r s) ∧
      ∀ n, ∃ l, matrices (n + 1) = .ok l ∧ l.length = 4 ^ (n + 1) ∧
        ∀ i < 4 ^ (n + 1), ∃ m, l[i]? = some m ∧
          m.rows = 2 ^ (n + 1) ∧ m.cols = 2 ^ (n + 1) ∧
          m = fromTop GateMatrix.kron (fun k => ofDigit (digit 4 i k)) n ∧
          ∀ r < 2 ^ (n + 1), ∀ s < 2 ^ (n + 1),
            m.get r s = fromTop (· * ·)
              (fun k => entry (digit 4 i k) (digit 2 r k) (digit 2 s k)) n := by
  refine ⟨?_, get_ofDigit, ?_⟩
  · intro qubits e
    cases qubits with
    | zero =>
      rw [matrices, Except.error.injEq]
      exact ⟨fun he => ⟨rfl, he.symm⟩, fun he => he.2.symm⟩
    | succ n => exact ⟨nofun, fun he => absurd he.1 (Nat.succ_ne_zero n)⟩
  · intro n
    refine ⟨onQubits n, rfl, length_onQubits n, ?_⟩
    intro i hi
    have hshape : ∀ k, (ofDigit (digit 4 i k)).rows = 2 ∧ (ofDigit (digit 4 i k)).cols = 2 :=
      fun k => shape_ofDigit _
    obtain ⟨hrows, hcols⟩ := GateMatrix.shape_fromTop hshape n
    refine ⟨_, getElem?_onQubits hi, hrows, hcols, rfl, ?_⟩
    intro r hr s hs
    rw [GateMatrix.get_fromTop hshape hr hs]
    apply fromTop_congr
    intro k _
    exact get_ofDigit _ (digit_lt (by decide) i k) _ (digit_lt (by decide) r k) _
      (digit_lt (by decide) s k)

/-- Number eleven of two qubits, `23` in base four, is Y on the first qubit and Z on the second. In
row `11` and column `01` it has the entry of Y in row `1` and column `0` times that of Z in row `1`
and column `1`, which is `i` times `-1`. -/
theorem eleven_is_y_and_z :
    11 < 4 ^ 2 ∧ ∃ l m, matrices 2 = .ok l ∧ l[11]? = some m ∧ m = y.kron z ∧
      y.get 1 0 = ⟨.zero, .one⟩ ∧ z.get 1 1 = ⟨-.one, .zero⟩ ∧ m.get 3 1 = ⟨-.zero, -.one⟩ := by
  obtain ⟨-, hdigits, hmatrices⟩ := pauli_matrices_are_counted_in_base_four
  obtain ⟨l, hl, -, hentries⟩ := hmatrices 1
  obtain ⟨m, hm, -, -, hfactors, hget⟩ := hentries 11 (by decide)
  refine ⟨by decide, l, m, hl, hm, hfactors, hdigits 2 (by decide) 1 (by decide) 0 (by decide),
    hdigits 3 (by decide) 1 (by decide) 1 (by decide), ?_⟩
  rw [hget 3 (by decide) 1 (by decide)]
  decide

end Pauli

end PulseSequencer
