/-!
# Binary64 numbers

A finite binary64 number is a whole number of units `2 ^ -1074`, the least positive one, together
with a sign that tells `-0.0` from `0.0`. Order and equality are those of the integer
`Double.signed`; every operation rounds once, to the nearest double and to the even one of two
(`Double.round`). A `Float64` may be something else, too: one of the infinities, or not a number.
-/

namespace RecordStore

-- The powers of numbers stay the built-in ones where those of a monoid are also declared.
attribute [default_instance (high + 1), instance (high + 1)] instPowNat

/-- A finite binary64 number, `± units * 2 ^ -1074`. -/
structure Double where
  /-- Whether the sign bit is set, which for zero is its only trace. -/
  negative : Bool
  /-- The magnitude, in units of the least positive double. -/
  units : Nat
deriving DecidableEq, Inhabited

namespace Double

@[irreducible]
def one : Nat := 2 ^ 1074

/-- The least magnitude, in units, that is too large for a finite double. -/
@[irreducible]
def limit : Nat := 2 ^ 2098

/-- The value in units: the order and the equality of doubles are those of this integer. -/
def signed (d : Double) : Int := if d.negative then -(d.units : Int) else d.units

/-- The double `0.0`. -/
def zero : Double := ⟨false, 0⟩

/-! ## Rounding -/

/-- The distance between neighbouring doubles at a magnitude: 53 significant bits are kept. -/
def spacing (units : Nat) : Nat := 2 ^ (units.log2 - 52)

/-- The quotient rounded to the nearest integer, a half to the even one. -/
def roundDiv (num den : Nat) : Nat :=
  let quotient := num / den
  let twice := 2 * (num % den)
  if twice < den ∨ twice = den ∧ quotient % 2 = 0 then quotient else quotient + 1

/-- The magnitude of the double nearest to `num / den` units. -/
def round (num den : Nat) : Nat :=
  let step := spacing (num / den)
  roundDiv num (den * step) * step

/-- The double nearest to `± num / den` units, unless that is too large to be finite. -/
def ofUnits? (negative : Bool) (num den : Nat) : Option Double :=
  let units := round num den
  if units < limit then some ⟨negative, units⟩ else none

/-- The double nearest to an integer. Integers of up to 64 bits are far from the finite limit. -/
def ofInt (n : Int) : Double := ⟨decide (n < 0), round (n.natAbs * one) 1⟩

/-- The product, rounded, unless it is too large to be finite. -/
def mul? (a b : Double) : Option Double :=
  ofUnits? (a.negative != b.negative) (a.units * b.units) one

/-- The quotient by a nonzero double, rounded, unless it is too large to be finite. -/
def div? (a b : Double) : Option Double :=
  ofUnits? (a.negative != b.negative) (a.units * one) b.units

def neg (d : Double) : Double := ⟨!d.negative, d.units⟩

/-! ## Order -/

/-- The numerical order, in which `-0.0` and `0.0` are equal. -/
protected def compare (a b : Double) : Ordering := Ord.compare a.signed b.signed

/-- Numerical equality, under which `-0.0` equals `0.0`. -/
def equal (a b : Double) : Bool := a.signed == b.signed

/-- Whether the number is `0.0` or `-0.0`. -/
def isZero (d : Double) : Bool := d.units == 0

end Double

/-- A binary64 number that need not be finite. -/
inductive Float64 where
  | finite (d : Double)
  | infinite (negative : Bool)
  | nan
deriving DecidableEq, Inhabited

end RecordStore
