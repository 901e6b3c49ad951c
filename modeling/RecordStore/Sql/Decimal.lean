import RecordStore.Numeral

/-!
# Decimals as SQLite reads them

SQLite turns a numeral into a double by extended arithmetic: the leading digits that 64 bits hold
are multiplied by powers of ten, and each product is rounded to 64 significant bits
(`Extended.mul`); only the last one is rounded to a double. The result may be a neighbour of the
nearest double.
-/

namespace RecordStore

namespace Sql

/-! ## Extended numbers -/

/-- A nonnegative number `significand * 2 ^ exponent` whose significand has at most 64 significant
bits. -/
structure Extended where
  significand : Nat
  exponent : Int
deriving DecidableEq, Inhabited

namespace Extended

/-- The number of bits of a significand. -/
def precision : Nat := 64

/-- The extended number nearest to `n * 2 ^ exponent`. -/
def round (n : Nat) (exponent : Int) : Extended :=
  let excess := n.log2 + 1 - precision
  ⟨Double.roundDiv n (2 ^ excess), exponent + excess⟩

/-- The extended number nearest to `1 / n`. -/
def reciprocal (n : Nat) : Extended :=
  let shift := n.log2 + precision
  ⟨Double.roundDiv (2 ^ shift) n, -shift⟩

def mul (a b : Extended) : Extended :=
  round (a.significand * b.significand) (a.exponent + b.exponent)

/-- The product with a power, rounded after each factor. -/
def mulPower (a b : Extended) (n : Nat) : Extended := n.repeat (·.mul b) a

/-- The product with `10 ^ n`, by factors `10 ^ 100`, `10 ^ 10` and `10`. -/
def scaleUp (a : Extended) (n : Nat) : Extended :=
  let a := a.mulPower (round (10 ^ 100) 0) (n / 100)
  let a := a.mulPower (round (10 ^ 10) 0) (n % 100 / 10)
  a.mulPower (round 10 0) (n % 10)

/-- The product with `10 ^ -n`, by the reciprocals of these factors. -/
def scaleDown (a : Extended) (n : Nat) : Extended :=
  let a := a.mulPower (reciprocal (10 ^ 100)) (n / 100)
  let a := a.mulPower (reciprocal (10 ^ 10)) (n % 100 / 10)
  a.mulPower (reciprocal 10) (n % 10)

/-- The magnitude of the greatest finite double, in units. -/
def greatest : Nat := (2 ^ 53 - 1) * 2 ^ 2045

/-- The double nearest to a number with a sign, unless the number is above all finite doubles. -/
def toDouble? (negative : Bool) (a : Extended) : Option Double :=
  let power := a.exponent + 1074
  let num := a.significand * 2 ^ power.toNat
  let den := 2 ^ (-power).toNat
  if greatest * den < num then none else Double.ofUnits? negative num den

end Extended

/-! ## Numerals -/

/-- The significand from which on further digits are not read any more. -/
def fullSignificand : Nat := (2 ^ 64 - 1 - 9) / 10

/-- Adds digits to a significand as long as it is not full; the others are left over. -/
def readDigits (significand : Nat) : List Char → Nat × List Char
  | [] => (significand, [])
  | c :: cs =>
    if significand < fullSignificand then readDigits (10 * significand + Numeral.digit c) cs
    else (significand, c :: cs)

/-- Moves factors ten from a power into a significand as long as 64 bits hold it. -/
def absorb (significand : Nat) : (power : Nat) → Nat × Nat
  | 0 => (significand, 0)
  | power + 1 =>
    if significand < (2 ^ 64 - 1) / 10 then absorb (10 * significand) power
    else (significand, power + 1)

/-- Takes factors ten out of a significand against a negative power. -/
def cancel (significand : Nat) : (power : Nat) → Nat × Nat
  | 0 => (significand, 0)
  | power + 1 =>
    if significand % 10 = 0 then cancel (significand / 10) power else (significand, power + 1)

/-- The double of `significand * 10 ^ power`. -/
def scaled? (negative : Bool) (significand : Nat) (power : Int) : Option Double :=
  if power < 0 then
    let (significand, power) := cancel significand power.natAbs
    if power = 0 then some ⟨negative, (Double.ofInt significand).units⟩
    else if 400 < power then some ⟨negative, 0⟩
    else ((Extended.round significand 0).scaleDown power).toDouble? negative
  else
    let (significand, power) := absorb significand power.toNat
    if power = 0 then some ⟨negative, (Double.ofInt significand).units⟩
    else if 400 < power then none
    else ((Extended.round significand 0).scaleUp power).toDouble? negative

/-- The greatest exponent that is told from greater ones. -/
def exponentCap : Nat := 10000

/-- Adds digits to an exponent up to the greatest one. -/
def readExponent (digits : List Char) : Nat :=
  digits.foldl (fun n c => if n < exponentCap then 10 * n + Numeral.digit c else exponentCap) 0

/-- The double as which a numeral is read, unless that is infinite. -/
def readNumeral? (numeral : Numeral) : Option Double :=
  let (significand, beyond) := readDigits 0 numeral.whole
  let (significand, ignored) := readDigits significand numeral.fraction
  let places : Int := numeral.fraction.length - ignored.length
  let start : Int := beyond.length - places
  let power : Int := match numeral.exponent with
    | none => 0
    | some (negative, digits) =>
      if negative then -(readExponent digits : Int) else readExponent digits
  if significand = 0 then some ⟨numeral.negative, 0⟩
  else scaled? numeral.negative significand (power + start)

end Sql

end RecordStore
