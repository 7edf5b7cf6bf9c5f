-- The Clifford gates of two qubits, as gates on each qubit around one that
-- entangles them; and the search for inverses.
import PulseSequencer.Clifford.Single

namespace PulseSequencer.Clifford

/-! ## Entangling gates -/

inductive Entangler where
  | cnot
  | iswap
  | swap
deriving DecidableEq

def Entangler.name : Entangler → String
  | cnot => "CNOT"
  | iswap => "iSWAP"
  | swap => "SWAP"

def Entangler.parse (name : String) : Except CliffordError Entangler :=
  match [Entangler.cnot, .iswap, .swap].find? (·.name = name) with
  | some gate => .ok gate
  | none => .error (.unknownEntangler name)

def invSqrtTwo : Binary64 := 0.7071067811865476

/-- The echoed cross-resonance gate, an eighth turn about X on one qubit and Z on the other.
It stands for a CNOT. -/
def crossResonance : GateMatrix :=
  (GateMatrix.identity 4).scale ⟨invSqrtTwo, .zero⟩ +
    (Pauli.x.kron Pauli.z).scale ⟨.zero, invSqrtTwo⟩

/-- The gate of that number. All numbers in this module are in range. -/
def gate (index : Nat) : GateMatrix := singles.getD index (.identity 2)

/-- The quarter turn about Y, backwards, on both qubits. -/
def backTurns : GateMatrix := (gate 6).kron (gate 6)

def iswapMatrix : GateMatrix := crossResonance * backTurns * crossResonance

def swapMatrix : GateMatrix :=
  crossResonance * (gate 6 * gate 1).kron (gate 1) * crossResonance * backTurns * crossResonance

def Entangler.matrix : Entangler → GateMatrix
  | cnot => crossResonance
  | iswap => iswapMatrix
  | swap => swapMatrix

/-! ## The gates -/

/-- A gate on each qubit, then an entangling gate, then again a gate on each qubit. -/
structure TwoQubit where
  singles : Nat × Nat
  entangler : Option Entangler := none
  after : Option (Nat × Nat) := none
deriving DecidableEq

/-- All pairs of members of a list, the first leading. -/
def pairs (l : List Nat) : List (Nat × Nat) := l.flatMap fun a => l.map (a, ·)

/-- The turns by thirds about the first diagonal. -/
def thirdTurns : List Nat := [0, 16, 17]

/-- All gates: without entanglement, of the CNOT class, of the iSWAP class, of the SWAP
class. -/
def twoQubits : Array TwoQubit :=
  let all := pairs (List.range 24)
  let entangledBy (e : Entangler) : List TwoQubit :=
    all.flatMap fun p => (pairs thirdTurns).map fun s => ⟨p, some e, some s⟩
  Array.mk (all.map (⟨·, none, none⟩) ++ entangledBy .cnot ++ entangledBy .iswap
    ++ all.map (⟨·, some .swap, none⟩))

/-- A gate on each of the two qubits. -/
def onBoth (p : Nat × Nat) : GateMatrix := (gate p.1).kron (gate p.2)

def TwoQubit.matrix (t : TwoQubit) : GateMatrix :=
  let first := onBoth t.singles
  let entangled := match t.entangler with
    | some e => e.matrix * first
    | none => first
  match t.after with
  | some s => onBoth s * entangled
  | none => entangled

/-- The matrix of a Clifford gate on one or two qubits. -/
def matrix (index qubits : Nat) : Except CliffordError GateMatrix :=
  match qubits with
  | 1 => single index
  | 2 =>
    match twoQubits[index]? with
    | some t => .ok t.matrix
    | none => .error (.invalidIndex index 2)
  | n => .error (.unsupportedQubits n)

/-! ## Inverses -/

/-- Equality up to rounding, relative to `b`. -/
def nearlyEqual (a b : Binary64) : Bool := (a - b).abs.le (1e-8 + 1e-5 * b.abs)

/-- Whether a gate undoes a matrix up to a global phase. -/
def undoes (m candidate : GateMatrix) : Bool :=
  nearlyEqual (m.traceLength candidate) (.ofNat m.rows)

/-- The number of the first Clifford gate that undoes a matrix. -/
def inverse (m : GateMatrix) : Except CliffordError Nat :=
  let found (index : Option Nat) : Except CliffordError Nat :=
    match index with
    | some i => .ok i
    | none => .error .inverseNotFound
  if m.cols ≠ m.rows then .error (.unsupportedDimension m.rows)
  else match m.rows with
    | 2 => found (singles.findIdx? (undoes m))
    | 4 => found (twoQubits.findIdx? fun t => undoes m t.matrix)
    | n => .error (.unsupportedDimension n)

end PulseSequencer.Clifford
