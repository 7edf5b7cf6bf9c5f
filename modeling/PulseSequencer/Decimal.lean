-- The shortest decimal that reads back as a given double, by exact integer
-- arithmetic.
import PulseSequencer.Binary64

namespace PulseSequencer

/-- The number `digits * 10 ^ exponent`. -/
structure Decimal where
  digits : Nat
  exponent : Int
deriving DecidableEq

/-- Which way a double goes that lies exactly between two shortest decimals. -/
inductive Tie where
  | up
  | even
deriving DecidableEq

namespace Decimal

/-! ## The reals that round to a double

All bounds are counted in units of 2⁻¹⁰⁷⁶, a quarter of the smallest double, so that the
points halfway between two doubles are whole numbers too. -/

/-- The interval of reals that round to `x`. The bounds themselves belong to it when the
significand is even. -/
structure Interval where
  low : Nat
  value : Nat
  high : Nat
  closed : Bool

/-- Below a power of two the doubles lie twice as close. -/
def Interval.ofDouble (x : Binary64) : Interval :=
  let step := 1 <<< x.scale
  let value := 4 * x.units
  let lowGap := if x.fractionField = 0 ∧ 1 < x.exponentField then step else 2 * step
  ⟨value - lowGap, value, value + 2 * step, x.significand % 2 = 0⟩

/-- Whether the point `n / d` lies in the interval. -/
def Interval.holds (i : Interval) (n d : Nat) : Bool :=
  if i.closed then i.low * d ≤ n && n ≤ i.high * d else i.low * d < n && n < i.high * d

/-! ## Powers of ten as grids -/

/-- The units in one step of the grid `10 ^ exponent`, as a fraction. -/
def gridStep (exponent : Int) : Nat × Nat :=
  match exponent with
  | .ofNat e => (Nat.pow 10 e <<< 1076, 1)
  | .negSucc e => (1 <<< 1076, Nat.pow 10 (e + 1))

/-- The point of a grid that lies in the interval and is nearest to its value, if any. -/
def nearestOnGrid (tie : Tie) (i : Interval) (exponent : Int) : Option Nat :=
  let (n, d) := gridStep exponent
  let below := i.value * d / n
  let above := below + 1
  match i.holds (below * n) d, i.holds (above * n) d with
  | false, false => none
  | true, false => some below
  | false, true => some above
  | true, true =>
    -- Twice the value against twice the point halfway between the two.
    let twice := 2 * (i.value * d)
    let middle := (below + above) * n
    if twice < middle then some below
    else if middle < twice then some above
    else match tie with
      | .up => some above
      | .even => if below % 2 = 0 then some below else some above

/-- A power of ten above the value: ten to a third of the number's bits is more than enough. -/
def coarsest (x : Binary64) : Int := (Nat.log2 x.units * 1234 / 4096 : Nat) - 322

/-- Walks to finer grids until one has a point in the interval. -/
def firstHit (tie : Tie) (i : Interval) : Nat → Int → Decimal
  | 0, exponent => ⟨(nearestOnGrid tie i exponent).getD 0, exponent⟩
  | fuel + 1, exponent =>
    match nearestOnGrid tie i exponent with
    | some digits => ⟨digits, exponent⟩
    | none => firstHit tie i fuel (exponent - 1)

/-- The decimal of fewest digits that reads back as `|x|`, and of those the nearest. Seventeen
digits always suffice. -/
def shortest (tie : Tie) (x : Binary64) : Decimal :=
  if x.isZero then ⟨0, 0⟩ else firstHit tie (.ofDouble x) 24 (coarsest x)

/-! ## Notation -/

def digitText (d : Decimal) : String := d.digits.repr

/-- The exponent of the first digit. -/
def leadingExponent (d : Decimal) : Int := d.exponent + d.digitText.length - 1

def zerosText (n : Nat) : String := String.ofList (List.replicate n '0')

/-- All digits with the point in its place; no point after a whole number. -/
def positional (d : Decimal) : String :=
  match d.exponent with
  | .ofNat e => d.digitText ++ zerosText e
  | .negSucc e =>
    let places := e + 1
    let text := zerosText (places + 1 - d.digitText.length) ++ d.digitText
    let whole := text.length - places
    (text.take whole).toString ++ "." ++ (text.drop whole).toString

/-- One digit before the point, the others behind it, and the exponent with its sign. -/
def scientific (d : Decimal) : String :=
  let text := d.digitText
  let fraction := if text.length = 1 then "" else "." ++ (text.drop 1).toString
  let sign := if d.leadingExponent < 0 then "-" else "+"
  (text.take 1).toString ++ fraction ++ "e" ++ sign ++ d.leadingExponent.natAbs.repr

end Decimal

end PulseSequencer
