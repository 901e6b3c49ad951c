import RecordStore.Double

/-!
# The shortest decimal text of a double

A double is written with the fewest significant digits that read back as the same double; of
several such decimals the nearest is taken, and of two equally near ones the even one
(`Double.shortest`). `Double.text` lays the digits out: positional from `10 ^ -5` up to `10 ^ 16`,
always with a point, and with an explicitly signed exponent outside that range.
-/

namespace RecordStore

/-- The decimal `digits * 10 ^ exponent`. -/
structure Decimal where
  digits : Nat
  /-- The power of ten of the last digit. -/
  exponent : Int
deriving DecidableEq, Inhabited

namespace Decimal

/-- Drops trailing zeros; `fuel` bounds their number. -/
def stripZeros : Nat → Decimal → Decimal
  | 0, d => d
  | fuel + 1, d =>
    if d.digits % 10 = 0 then stripZeros fuel ⟨d.digits / 10, d.exponent + 1⟩ else d

end Decimal

namespace Double

/-- The number of decimal digits of a positive number, and none for zero. -/
def decimalLength (n : Nat) : Nat := if n = 0 then 0 else (Nat.toDigits 10 n).length

/-- The power of ten of the leading digit of a positive double. -/
def leadingPower (units : Nat) : Int :=
  if one ≤ units then (decimalLength (units / one) : Int) - 1
  else -(decimalLength ((one - 1) / units) : Int)

/-- Four times the ends of the interval of reals that round to a positive double, in units. -/
def roundingInterval (units : Nat) : Nat × Nat :=
  let step := spacing units
  let below := if units = 2 ^ 52 * step ∧ 1 < step then step else 2 * step
  (4 * units - below, 4 * units + 2 * step)

/-- Whether `candidate / scale` units round to the double. The ends of its interval do exactly
when its significand is even. -/
def roundsTo (units candidate scale : Nat) : Bool :=
  let (low, high) := roundingInterval units
  let c := 4 * candidate
  if units / spacing units % 2 = 0 then low * scale ≤ c && c ≤ high * scale
  else low * scale < c && c < high * scale

/-- The decimal with the given last place that is nearest to a positive double and rounds to it,
if there is one. -/
def nearestAt? (units : Nat) (place : Int) : Option Decimal :=
  let scale := 10 ^ (-place).toNat
  let grid := one * 10 ^ place.toNat
  let num := units * scale
  let low := num / grid
  let lowHits := roundsTo units (low * grid) scale
  let highHits := roundsTo units ((low + 1) * grid) scale
  match lowHits, highHits with
  | true, true => some ⟨roundDiv num grid, place⟩
  | true, false => some ⟨low, place⟩
  | false, true => some ⟨low + 1, place⟩
  | false, false => none

/-- The shortest decimal of a positive double; seventeen digits always suffice. -/
def shortest (units : Nat) : Decimal :=
  let leading := leadingPower units
  let found := (List.range 17).findSome? fun (n : Nat) => nearestAt? units (leading - n)
  Decimal.stripZeros 17 (found.getD ⟨0, 0⟩)

/-! ## Layout -/

/-- Digits around a decimal point that stands after `point` of them. -/
def positional (digits : List Char) (point : Int) : List Char :=
  if point ≤ 0 then '0' :: '.' :: (List.replicate (-point).toNat '0' ++ digits)
  else
    let whole := digits.take point.toNat
    let padding := List.replicate (point.toNat - digits.length) '0'
    let fraction := digits.drop point.toNat
    whole ++ padding ++ '.' :: (if fraction.isEmpty then ['0'] else fraction)

/-- One digit, the others after a point, and the exponent with its sign. -/
def scientific (digits : List Char) (exponent : Int) : List Char :=
  let sign := if exponent < 0 then '-' else '+'
  let fraction := digits.drop 1
  digits.take 1 ++ (if fraction.isEmpty then [] else '.' :: fraction) ++
    'e' :: sign :: Nat.toDigits 10 exponent.natAbs

/-- The shortest text of a magnitude: positional from `10 ^ -5` up to `10 ^ 16`, and for zero. -/
def magnitudeText (units : Nat) : List Char :=
  if units = 0 then ['0', '.', '0']
  else
    let decimal := shortest units
    let digits := Nat.toDigits 10 decimal.digits
    let point := digits.length + decimal.exponent
    if -5 < point ∧ point ≤ 16 then positional digits point else scientific digits (point - 1)

/-- The shortest text of a double, which always shows that it is no integer. -/
def text (d : Double) : List Char :=
  if d.negative then '-' :: magnitudeText d.units else magnitudeText d.units

end Double

end RecordStore
