-- The twenty-four Clifford gates of one qubit, and their products.
import PulseSequencer.Clifford.Pauli

namespace PulseSequencer.Clifford

/-! ## The gates -/

/-- A direction in space. -/
structure Axis where
  x : Binary64
  y : Binary64
  z : Binary64

def Axis.norm (n : Axis) : Binary64 := (n.x * n.x + n.y * n.y + n.z * n.z).sqrt

/-- The generator of the turns about an axis, for the unit vector along it. -/
def Axis.generator (n : Axis) : GateMatrix :=
  Pauli.x.scale ⟨n.x / n.norm, .zero⟩ + Pauli.y.scale ⟨n.y / n.norm, .zero⟩ +
    Pauli.z.scale ⟨n.z / n.norm, .zero⟩

/-- The turn by twice the angle `theta` about an axis: `cos θ - i sin θ` times its
generator. -/
def rotation (theta : Binary64) (n : Axis) : GateMatrix :=
  (GateMatrix.identity 2).scale ⟨theta.cos, .zero⟩ + n.generator.scale ⟨.zero, -theta.sin⟩

def pi : Binary64 := 3.141592653589793

def coordinateAxes : List Axis := [⟨1.0, 0.0, 0.0⟩, ⟨0.0, 1.0, 0.0⟩, ⟨0.0, 0.0, 1.0⟩]

/-- The lines through the middles of opposite edges of a cube. -/
def edgeAxes : List Axis :=
  [⟨1.0, 1.0, 0.0⟩, ⟨1.0, -1.0, 0.0⟩, ⟨1.0, 0.0, 1.0⟩, ⟨1.0, 0.0, -1.0⟩, ⟨0.0, 1.0, 1.0⟩,
    ⟨0.0, 1.0, -1.0⟩]

/-- The diagonals of a cube. -/
def cornerAxes : List Axis :=
  [⟨1.0, 1.0, 1.0⟩, ⟨1.0, -1.0, 1.0⟩, ⟨1.0, 1.0, -1.0⟩, ⟨-1.0, 1.0, 1.0⟩]

/-- The identity, then the turns of a cube about its coordinate axes by quarters, about its
edge axes by halves, and about its corner axes by thirds. -/
def singles : Array GateMatrix := Array.mk <|
  [GateMatrix.identity 2]
    ++ coordinateAxes.flatMap (fun n => [1.0, 2.0, 3.0].map fun k => rotation (k * pi / 4.0) n)
    ++ edgeAxes.map (rotation (pi / 2.0))
    ++ cornerAxes.flatMap fun n => [rotation (pi / 3.0) n, rotation (2.0 * pi / 3.0) n]

def single (index : Nat) : Except CliffordError GateMatrix :=
  match singles[index]? with
  | some m => .ok m
  | none => .error (.invalidIndex index 1)

/-! ## Products -/

/-- Rows of gate numbers: the entry at `c1` and `c2` is the gate that plays `c1` and then
`c2`. -/
abbrev ProductTable := List (List Nat)

/-- The better of the best candidate so far and the next one, which has to be strictly
better. -/
def better (m : GateMatrix) (best : Nat × Binary64) (candidate : GateMatrix × Nat) :
    Nat × Binary64 :=
  let score := m.traceLength candidate.1
  if best.2.lt score then (candidate.2, score) else best

/-- The number of the candidate that undoes `m` best, the first of equals. -/
def bestMatch (candidates : List GateMatrix) (m : GateMatrix) : Nat :=
  (candidates.zipIdx.foldl (better m) (0, -.infinity)).1

/-- The product of any two gates, found as the gate closest to it. -/
def productTable (gates : List GateMatrix) : ProductTable :=
  gates.map fun g1 => gates.map fun g2 => bestMatch gates (g2 * g1).adjoint

def products : ProductTable := productTable singles.toList

/-- The number of the gate that plays `c1` and then `c2`. -/
def product (c1 c2 : Nat) : Except CliffordError Nat :=
  match products[c1]? with
  | none => .error (.invalidIndex c1 1)
  | some row =>
    match row[c2]? with
    | none => .error (.invalidIndex c2 1)
    | some product => .ok product

end PulseSequencer.Clifford
