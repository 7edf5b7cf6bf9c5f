-- Why a question about Clifford gates has no answer.

namespace PulseSequencer

inductive CliffordError where
  | invalidIndex (index qubits : Nat)
  | unsupportedQubits (qubits : Nat)
  | unsupportedDimension (dimension : Nat)
  | unknownEntangler (name : String)
  | inverseNotFound
  | noQubits
deriving DecidableEq

def CliffordError.message : CliffordError → String
  | invalidIndex index qubits =>
    s!"Clifford index {index} is out of range for {qubits} qubit(s)."
  | unsupportedQubits qubits =>
    s!"Only one- and two-qubit Cliffords are supported, got {qubits} qubits."
  | unsupportedDimension dimension =>
    s!"Expected a 2x2 or 4x4 matrix, got dimension {dimension}."
  | unknownEntangler name =>
    s!"Entangling gate must be one of: CNOT, iSWAP, SWAP. Got '{name}'."
  | inverseNotFound => "Could not find the inverse Clifford."
  | noQubits => "You need at least 1 qubit."

end PulseSequencer
