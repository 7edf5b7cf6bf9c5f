-- Clifford gates as short words over the gates that can be played directly.
import PulseSequencer.Clifford.Single

namespace PulseSequencer.Clifford

/-- The gates that can be played directly: the identity, the quarter turns about X and Y both
ways, and the half turns about X and Y. -/
def generators : List Nat := [0, 1, 3, 4, 6, 2, 5]

/-- A word is played from the left. -/
abbrev Word := List Nat

/-- All words of a length, in the order of the generators, the first letter leading. -/
def wordsOfLength : Nat → List Word
  | 0 => [[]]
  | n + 1 => (wordsOfLength n).flatMap fun w => generators.map fun g => w ++ [g]

def maxWordLength : Nat := 3

/-- All words that are looked at, the shortest first. -/
def words : List Word := (List.range maxWordLength).flatMap fun n => wordsOfLength (n + 1)

/-- The entry of a table in row `c1` and column `c2`. -/
def ProductTable.get? (table : ProductTable) (c1 c2 : Nat) : Option Nat :=
  table[c1]?.bind (·[c2]?)

/-- The gate that a word makes. The empty word makes none. -/
def reduce (table : ProductTable) : Word → Option Nat
  | [] => none
  | first :: rest => rest.foldlM table.get? first

/-- The words that make a gate. -/
def wordsFor (table : ProductTable) (gate : Nat) : List Word :=
  words.filter (reduce table · = some gate)

/-- The shortest words that make a gate. Words come shortest first, so the first one has the
length of all of them. -/
def minimalWords (table : ProductTable) (gate : Nat) : List Word :=
  match wordsFor table gate with
  | [] => []
  | first :: rest => (first :: rest).filter (·.length = first.length)

/-- The shortest words of a Clifford gate. -/
def decompositions (gate : Nat) : Except CliffordError (List Word) :=
  if gate < singles.size then .ok (minimalWords products gate)
  else .error (.invalidIndex gate 1)

end PulseSequencer.Clifford
