import RecordStore.Error
import RecordStore.Numeral

/-!
# Field paths

A path addresses places in a value: `items.0.name` one element, `items.[*].name` every element of
`items`. `Path.parse` reads a dotted path and `Path.text` writes it. A segment of digits is an index
if 64 bits hold it, and a key otherwise.

`Path.get?` follows a path without wildcards. `Value.lookup?` follows a dotted text directly, which
is how documents are sorted.
-/

namespace RecordStore

/-! ## Dotted texts -/

/-- The parts of a text between its points; a text without points is one part. -/
def splitDots : List Char → List (List Char)
  | [] => [[]]
  | c :: cs =>
    if c = '.' then [] :: splitDots cs
    else match splitDots cs with
      | [] => [[c]]
      | part :: parts => (c :: part) :: parts

def dottedParts (s : String) : List String := (splitDots s.toList).map String.ofList

/-- The number that a text of one or more digits denotes, if 64 bits hold it. -/
def word? (digits : List Char) : Option Nat :=
  if digits ≠ [] ∧ digits.all Numeral.isDigit ∧ Numeral.ofDigits digits < 2 ^ 64 then
    some (Numeral.ofDigits digits)
  else none

/-- A position in an array as it may be written in a dotted text, with or without a plus sign. -/
def position? (s : String) : Option Nat :=
  match s.toList with
  | '+' :: digits => word? digits
  | digits => word? digits

/-! ## Paths -/

inductive Segment where
  | key (name : String)
  /-- The element of an array, or the field of an object with that number as its key. -/
  | index (i : Nat)
  | wildcard
deriving DecidableEq, Inhabited

structure Path where
  segments : List Segment
deriving DecidableEq, Inhabited

namespace Segment

def wildcardText : String := "[*]"

def indexText (i : Nat) : String := String.ofList (Nat.toDigits 10 i)

def text : Segment → String
  | key name => name
  | index i => indexText i
  | wildcard => wildcardText

/-- The segment that a part of a dotted text denotes. -/
def ofPart (part : List Char) : Segment :=
  if part = wildcardText.toList then wildcard
  else match word? part with
    | some i => index i
    | none => key (String.ofList part)

/-- The segment of a part of the path `raw`, which must hold something and no double quote. -/
def parse (raw : String) (part : List Char) : Except StoreError Segment :=
  if part.isEmpty then refuse (.emptySegment raw)
  else if part.contains '"' then refuse (.quoteInPath raw)
  else .ok (ofPart part)

end Segment

namespace Path

def parse (raw : String) : Except StoreError Path :=
  if raw.isEmpty then refuse .emptyPath
  else return ⟨← (splitDots raw.toList).mapM (Segment.parse raw)⟩

def joined (segments : List Segment) : String := ".".intercalate (segments.map Segment.text)

def text (path : Path) : String := joined path.segments

/-- Whether the path addresses every element of some array. -/
def hasWildcard (path : Path) : Bool := path.segments.contains .wildcard

def splitAtWildcard? : List Segment → Option (List Segment × List Segment)
  | [] => none
  | .wildcard :: rest => some ([], rest)
  | segment :: rest => (splitAtWildcard? rest).map fun (before, after) => (segment :: before, after)

def textWithoutWildcards (path : Path) : String :=
  joined (path.segments.filter (· ≠ .wildcard))

/-- One step into a value: a key into an object, an index into an array or to the field of an object
that the number names. -/
def step? (v : Value) : Segment → Option Value
  | .key name => v.field? name
  | .index i => match v with
    | .array items => items[i]?
    | v => v.field? (Segment.indexText i)
  | .wildcard => none

def follow? : List Segment → Value → Option Value
  | [], v => some v
  | segment :: rest, v => (step? v segment).bind (follow? rest)

/-- The value at a path. Nothing is found under a wildcard. -/
def get? (path : Path) (v : Value) : Option Value := follow? path.segments v

end Path

namespace Value

/-- One step of a dotted text into a value. -/
def lookupStep? (part : String) : Value → Option Value
  | .array items => (position? part).bind fun i => items[i]?
  | v => v.field? part

/-- Follows the parts of a dotted text. -/
def lookupParts? : List String → Value → Option Value
  | [], v => some v
  | part :: rest, v => (lookupStep? part v).bind (lookupParts? rest)

/-- The value at a dotted text: keys into objects, positions into arrays. -/
def lookup? (path : String) (v : Value) : Option Value := lookupParts? (dottedParts path) v

end Value

end RecordStore
