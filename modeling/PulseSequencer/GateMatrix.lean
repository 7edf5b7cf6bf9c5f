-- Dense complex matrices, row after row.
import PulseSequencer.Amplitude

namespace PulseSequencer

structure GateMatrix where
  rows : Nat
  cols : Nat
  data : Array Amplitude
  size_eq : data.size = rows * cols

namespace GateMatrix

/-- The entry in a row and a column. -/
def get (m : GateMatrix) (r c : Nat) : Amplitude := m.data.getD (r * m.cols + c) .zero

/-- The matrix whose entries a function gives. -/
def ofFn (rows cols : Nat) (entry : Nat → Nat → Amplitude) : GateMatrix where
  rows := rows
  cols := cols
  data := (Array.range (rows * cols)).map fun i => entry (i / cols) (i % cols)
  size_eq := by simp

theorem get_ofFn {rows cols r c : Nat} (entry : Nat → Nat → Amplitude) (hr : r < rows)
    (hc : c < cols) : (ofFn rows cols entry).get r c = entry r c := by
  have hlt : r * cols + c < rows * cols :=
    calc r * cols + c < r * cols + cols := by omega
      _ = (r + 1) * cols := by rw [Nat.succ_mul]
      _ ≤ rows * cols := Nat.mul_le_mul_right _ hr
  have hrow : (r * cols + c) / cols = r := by
    rw [Nat.mul_comm, Nat.mul_add_div (by omega), Nat.div_eq_of_lt hc, Nat.add_zero]
  have hcol : (r * cols + c) % cols = c := by
    rw [Nat.mul_comm, Nat.mul_add_mod, Nat.mod_eq_of_lt hc]
  simp [get, ofFn, Array.getD, hlt, hrow, hcol]

/-- The matrix of a list of entries, if there is the right number of them. -/
def ofList? (rows cols : Nat) (entries : List Amplitude) : Option GateMatrix :=
  if h : entries.length = rows * cols then some ⟨rows, cols, entries.toArray, by simpa using h⟩
  else none

/-- The entries of each row. -/
def toLists (m : GateMatrix) : List (List Amplitude) :=
  (List.range m.rows).map fun r => (List.range m.cols).map (m.get r)

def identity (n : Nat) : GateMatrix := ofFn n n fun r c => if r = c then .one else .zero

instance : Add GateMatrix := ⟨fun a b => ofFn a.rows a.cols fun r c => a.get r c + b.get r c⟩

/-- Every entry times one factor. -/
def scale (m : GateMatrix) (factor : Amplitude) : GateMatrix :=
  ofFn m.rows m.cols fun r c => m.get r c * factor

/-- A row of one matrix against a column of another, summed from the left. -/
def dot (a b : GateMatrix) (r c : Nat) : Amplitude :=
  (List.range a.cols).foldl (fun sum k => sum + a.get r k * b.get k c) .zero

instance : Mul GateMatrix := ⟨fun a b => ofFn a.rows b.cols (dot a b)⟩

/-- The conjugate transpose. -/
def adjoint (m : GateMatrix) : GateMatrix := ofFn m.cols m.rows fun r c => (m.get c r).conj

/-- The Kronecker product: a copy of `b` for each entry of `a`. -/
def kron (a b : GateMatrix) : GateMatrix :=
  ofFn (a.rows * b.rows) (a.cols * b.cols) fun r c =>
    a.get (r / b.rows) (c / b.cols) * b.get (r % b.rows) (c % b.cols)

/-- The length of the trace of `a * b`. For unitary matrices it is the dimension exactly if
`b` undoes `a` up to a global phase. -/
def traceLength (a b : GateMatrix) : Binary64 :=
  ((List.range a.rows).foldl (fun sum r => sum + dot a b r r) .zero).magnitude

end GateMatrix

end PulseSequencer
