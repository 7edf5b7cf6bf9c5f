-- Doubles as 64-bit patterns. Comparison and canonical form are read off the
-- bits, so the sign of a zero and the payload of a NaN never get lost by
-- accident; arithmetic is the IEEE arithmetic of the machine.

namespace PulseSequencer

/-- A double, kept as its bits. Equality of two values is equality of their bits; the
numeric comparison is `numEq`. -/
structure Binary64 where
  bits : UInt64
deriving DecidableEq

namespace Binary64

/-! ## Classes of patterns -/

def zero : Binary64 := ⟨0⟩

def one : Binary64 := ⟨0x3ff0000000000000⟩

def infinity : Binary64 := ⟨0x7ff0000000000000⟩

/-- The NaN that stands for all of them. -/
def nan : Binary64 := ⟨0x7ff8000000000000⟩

instance : Inhabited Binary64 := ⟨zero⟩

/-- The bits without the sign. Over the numbers they grow with the absolute value. -/
def unsigned (x : Binary64) : UInt64 := x.bits &&& 0x7fffffffffffffff

def isNegative (x : Binary64) : Bool := x.bits &&& 0x8000000000000000 != 0

def isZero (x : Binary64) : Bool := x.unsigned == 0

def isNaN (x : Binary64) : Bool := infinity.bits < x.unsigned

def isInfinite (x : Binary64) : Bool := x.unsigned == infinity.bits

def isFinite (x : Binary64) : Bool := x.unsigned < infinity.bits

/-- Numeric equality: the two zeros are equal, and a NaN equals nothing. -/
def numEq (x y : Binary64) : Bool :=
  !x.isNaN && !y.isNaN && (x.bits == y.bits || (x.isZero && y.isZero))

/-- The bits with both zeros made one and all NaNs made one. -/
def canonical (x : Binary64) : UInt64 :=
  if x.isZero then 0 else if x.isNaN then nan.bits else x.bits

/-! ## Arithmetic -/

def toFloat (x : Binary64) : Float := Float.ofBits x.bits

def ofFloat (f : Float) : Binary64 := ⟨f.toBits⟩

def ofNat (n : Nat) : Binary64 := ofFloat (Float.ofNat n)

/-- Decimal literals stand for the nearest double. -/
instance : OfScientific Binary64 := ⟨fun m s e => ofFloat (OfScientific.ofScientific m s e)⟩

instance : Add Binary64 := ⟨fun x y => ofFloat (x.toFloat + y.toFloat)⟩

instance : Sub Binary64 := ⟨fun x y => ofFloat (x.toFloat - y.toFloat)⟩

instance : Mul Binary64 := ⟨fun x y => ofFloat (x.toFloat * y.toFloat)⟩

instance : Div Binary64 := ⟨fun x y => ofFloat (x.toFloat / y.toFloat)⟩

/-- Negation flips the sign bit, of a zero and of a NaN too. -/
instance : Neg Binary64 := ⟨fun x => ⟨x.bits ^^^ 0x8000000000000000⟩⟩

def abs (x : Binary64) : Binary64 := ⟨x.unsigned⟩

/-- The nearer end for what lies outside of minus one to one, a NaN among it. -/
def clampUnit (x : Binary64) : Binary64 :=
  if one.bits < x.unsigned then ⟨one.bits ||| (x.bits &&& 0x8000000000000000)⟩ else x

/-- The sine of a finite angle lies between minus one and one; no other angle has one. -/
def sin (x : Binary64) : Binary64 :=
  if x.isFinite then (ofFloat x.toFloat.sin).clampUnit else nan

/-- The cosine, with the same bounds. -/
def cos (x : Binary64) : Binary64 :=
  if x.isFinite then (ofFloat x.toFloat.cos).clampUnit else nan

def sqrt (x : Binary64) : Binary64 := ofFloat x.toFloat.sqrt

/-- `x < y` as numbers; false as soon as one is a NaN. -/
def lt (x y : Binary64) : Bool := x.toFloat < y.toFloat

/-- `x ≤ y` as numbers; false as soon as one is a NaN. -/
def le (x y : Binary64) : Bool := x.toFloat ≤ y.toFloat

/-! ## Exact values

A finite double is a whole number of units of 2⁻¹⁰⁷⁴. -/

def exponentField (x : Binary64) : Nat := (x.unsigned >>> 52).toNat

def fractionField (x : Binary64) : Nat := (x.bits &&& 0xfffffffffffff).toNat

/-- The integer `m` of `|x| = m * 2 ^ scale x` units. -/
def significand (x : Binary64) : Nat :=
  if x.exponentField = 0 then x.fractionField else 0x10000000000000 + x.fractionField

/-- Subnormal numbers share the scale of the smallest normal ones. -/
def scale (x : Binary64) : Nat := x.exponentField - 1

/-- The absolute value in units of 2⁻¹⁰⁷⁴. Infinity counts as the number after the largest
finite one, which is where rounding switches over to it. -/
def units (x : Binary64) : Nat := x.significand <<< x.scale

/-! ## Lengths of vectors

The square of a length is an exact integer. Its root is rounded once, by a search among the
patterns, whose order is that of the numbers. -/

/-- The absolute value in units of 2⁻¹⁰⁷⁴ times `2 ^ shift`, for numbers of at least that
scale. -/
def unitsAbove (shift : Nat) (x : Binary64) : Nat := x.significand <<< (x.scale - shift)

/-- The largest pattern `b + j` with `j < 2 ^ k` whose square stays within `s`. -/
def floorSqrt (shift s : Nat) : Nat → UInt64 → UInt64
  | 0, b => b
  | k + 1, b =>
    let next := b + (1 <<< UInt64.ofNat k)
    let u := unitsAbove shift ⟨next⟩
    if next < infinity.bits && u * u ≤ s then floorSqrt shift s k next
    else floorSqrt shift s k b

/-- The double nearest to the root of `s`, which is at least `least`; a tie goes to the even
pattern. The root of twice a square lies less than one exponent above it. -/
def nearestSqrt (shift s : Nat) (least : UInt64) : Binary64 :=
  let below := floorSqrt shift s 53 least
  let above := below + 1
  -- Twice the point halfway between the two neighbours.
  let middle := unitsAbove shift ⟨below⟩ + unitsAbove shift ⟨above⟩
  if 4 * s < middle * middle then ⟨below⟩
  else if middle * middle < 4 * s then ⟨above⟩
  else if below % 2 == 0 then ⟨below⟩ else ⟨above⟩

/-- The length of the vector `(x, y)`, rounded once. An infinite side makes it infinite even
beside a NaN. -/
def hypot (x y : Binary64) : Binary64 :=
  if x.isInfinite || y.isInfinite then infinity
  else if x.isNaN || y.isNaN then nan
  else if x.isZero then y.abs
  else if y.isZero then x.abs
  else
    let shift := min x.scale y.scale
    let u := x.unitsAbove shift
    let v := y.unitsAbove shift
    nearestSqrt shift (u * u + v * v) (max x.unsigned y.unsigned)

end Binary64

end PulseSequencer
