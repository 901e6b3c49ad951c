import RecordStore.Double.Shortest
import RecordStore.Number

/-!
# Numerals

`Numeral.scan?` recognises the number grammar of JSON: an optional minus sign, an integer part
without superfluous zeros, and optional fraction and exponent with at least one digit each.

A numeral is turned into a number in two ways. `Numeral.number?` is the reader of documents: it
keeps the leading digits that fit 64 bits and scales them by one power of ten, so that the last bit
of a long numeral may differ from the nearest double.
-/

namespace RecordStore

/-- A number as it is written. -/
structure Numeral where
  /-- Whether a minus sign stands in front. -/
  negative : Bool
  whole : List Char
  /-- The digits after the point, none if there is no point. -/
  fraction : List Char
  exponent : Option (Bool × List Char)
deriving DecidableEq

namespace Numeral

/-! ## Grammar -/

def isDigit (c : Char) : Bool := '0' ≤ c && c ≤ '9'

def digit (c : Char) : Nat := c.toNat - '0'.toNat

def ofDigits (digits : List Char) : Nat := digits.foldl (fun n c => 10 * n + digit c) 0

/-- Splits off the leading digits. -/
def digits (cs : List Char) : List Char × List Char := (cs.takeWhile isDigit, cs.dropWhile isDigit)

/-- The integer part: a lone zero, or digits that do not start with one. -/
def scanWhole? (cs : List Char) : Option (List Char × List Char) :=
  match digits cs with
  | ([], _) => none
  | ('0' :: _ :: _, _) => none
  | found => some found

/-- The fraction, empty if no point follows. -/
def scanFraction? : List Char → Option (List Char × List Char)
  | '.' :: cs => match digits cs with
    | ([], _) => none
    | found => some found
  | cs => some ([], cs)

/-- The sign of an exponent and what follows it. -/
def scanSign : List Char → Bool × List Char
  | '+' :: cs => (false, cs)
  | '-' :: cs => (true, cs)
  | cs => (false, cs)

/-- The digits of an exponent after its letter. -/
def scanPower? (cs : List Char) : Option ((Bool × List Char) × List Char) :=
  let (negative, rest) := scanSign cs
  match digits rest with
  | ([], _) => none
  | (found, rest) => some ((negative, found), rest)

/-- The exponent, absent if no letter follows. -/
def scanExponent? : List Char → Option (Option (Bool × List Char) × List Char)
  | 'e' :: cs => (scanPower? cs).map fun (power, rest) => (some power, rest)
  | 'E' :: cs => (scanPower? cs).map fun (power, rest) => (some power, rest)
  | cs => some (none, cs)

/-- The longest numeral at the head of a text, and the rest of the text. -/
def scan? (cs : List Char) : Option (Numeral × List Char) := do
  let (negative, cs) := match cs with
    | '-' :: cs => (true, cs)
    | cs => (false, cs)
  let (whole, cs) ← scanWhole? cs
  let (fraction, cs) ← scanFraction? cs
  let (exponent, cs) ← scanExponent? cs
  some (⟨negative, whole, fraction, exponent⟩, cs)

/-- White space around a JSON text. -/
def isSpace (c : Char) : Bool := c == ' ' || c == '\t' || c == '\n' || c == '\r'

/-- The numeral that is the whole text, white space around it apart. -/
def ofText? (cs : List Char) : Option Numeral := do
  let (numeral, rest) ← scan? (cs.dropWhile isSpace)
  if rest.all isSpace then some numeral else none

/-! ## Reading as documents do -/

/-- Adds digits to a significand as long as 64 bits hold it; the others are left over. -/
def accumulate (significand : Nat) : List Char → Nat × List Char
  | [] => (significand, [])
  | c :: cs =>
    let next := 10 * significand + digit c
    if next < 2 ^ 64 then accumulate next cs else (significand, c :: cs)

def powerOfTen (n : Nat) : Double := Double.ofInt (10 ^ n : Nat)

/-- A significand below `2 ^ 64` times a power of ten: one rounded multiplication or division by a
double, or two divisions below `10 ^ -308`. Overflow fails. -/
def scale? (significand : Nat) (power : Int) : Option Double :=
  let d := Double.ofInt significand
  if 308 < power then (if d.isZero then some d else none)
  else if 0 ≤ power then d.mul? (powerOfTen power.toNat)
  else if -308 ≤ power then d.div? (powerOfTen power.natAbs)
  else if -616 ≤ power then do
    (← d.div? (powerOfTen 308)).div? (powerOfTen (power.natAbs - 308))
  else some Double.zero

def signed (numeral : Numeral) (d : Double) : Double := if numeral.negative then d.neg else d

/-- The value of the digits before the point if they are all that the numeral has: an integer,
unless it is below `-2 ^ 63` or `-0`. -/
def integer (numeral : Numeral) (significand : Nat) : Number :=
  if !numeral.negative then .int significand
  else if significand = 0 ∨ 2 ^ 63 < significand then .double (Double.ofInt significand).neg
  else .int (-significand)

/-- The value as a document has it, unless it is too large to be finite. Digits that no longer fit
64 bits count by their place before the point and not at all after it. -/
def number? (numeral : Numeral) : Option Number :=
  let (whole, beyond) := accumulate 0 numeral.whole
  if beyond.isEmpty ∧ numeral.fraction.isEmpty ∧ numeral.exponent.isNone then
    some (numeral.integer whole)
  else
    let (significand, ignored) := accumulate whole numeral.fraction
    let places : Int := numeral.fraction.length - ignored.length
    let start : Int := beyond.length - places
    let value := match numeral.exponent with
      | none => scale? significand start
      | some (negative, digits) =>
        let power := ofDigits digits
        if power < 2 ^ 31 then
          scale? significand (if negative then start - power else start + power)
        else if significand ≠ 0 ∧ !negative then none
        else some Double.zero
    value.map fun d => .double (numeral.signed d)

/-- The double that a text denotes, if the text is a numeral of finite value. -/
def double? (text : String) : Option Double :=
  ((ofText? text.toList).bind number?).map Number.toDouble

end Numeral

end RecordStore
