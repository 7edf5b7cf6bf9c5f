-- The Pauli matrices, of one qubit and of several.
import PulseSequencer.Clifford.Error
import PulseSequencer.GateMatrix

namespace PulseSequencer.Pauli

/-- A two-by-two matrix from its four entries. -/
def ofEntries (a b c d : Amplitude) : GateMatrix where
  rows := 2
  cols := 2
  data := #[a, b, c, d]
  size_eq := rfl

def x : GateMatrix := ofEntries .zero .one .one .zero

def y : GateMatrix := ofEntries .zero ⟨.zero, -.one⟩ ⟨.zero, .one⟩ .zero

def z : GateMatrix := ofEntries .one .zero .zero ⟨-.one, .zero⟩

/-- Identity, X, Y and Z. -/
def single : List GateMatrix := [.identity 2, x, y, z]

/-- The Pauli matrices of `n + 1` qubits. The first qubit varies slowest. -/
def onQubits : Nat → List GateMatrix
  | 0 => single
  | n + 1 => single.flatMap fun p => (onQubits n).map (p.kron ·)

def matrices (qubits : Nat) : Except CliffordError (List GateMatrix) :=
  match qubits with
  | 0 => .error .noQubits
  | n + 1 => .ok (onQubits n)

end PulseSequencer.Pauli
