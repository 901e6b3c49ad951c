import RecordStore.Record
import RecordStore.Sql.Condition
import RecordStore.Sql.Decimal
import RecordStore.Sql.Label

/-!
# SQL data

`Datum` is a value as SQLite computes with it: null, an integer, a real or a text. Data are ordered
null, numbers, texts; numbers of both kinds are compared exactly and texts by code point. The
attributes of a record and the places of its payload are read as data, where an array or an object
is its text.
-/

namespace RecordStore

namespace Sql

inductive Datum where
  | null
  | integer (n : Int)
  | real (d : Double)
  /-- A real too large to be finite. -/
  | infinite (negative : Bool)
  | text (s : String)
deriving DecidableEq, Inhabited

namespace Datum

/-- The place of a datum's class in the order of classes. Infinite numbers stand at the two ends of
the numbers. -/
def rank : Datum → Nat
  | null => 0
  | infinite true => 1
  | integer _ => 2
  | real _ => 2
  | infinite false => 3
  | text _ => 4

/-- The value of a finite number, in units of the least positive double. -/
def units : Datum → Int
  | integer n => n * Double.one
  | real d => d.signed
  | _ => 0

def characters : Datum → String
  | text s => s
  | _ => ""

protected def compare (a b : Datum) : Ordering :=
  (Ord.compare a.rank b.rank).then
    ((Ord.compare a.units b.units).then (Ord.compare a.characters b.characters))

def ofBool (b : Bool) : Datum := integer (if b then 1 else 0)

def ofText? : Option String → Datum
  | some s => text s
  | none => null

/-- What is bound for a binary64 number: nothing if it is not a number. -/
def ofFloat : Float64 → Datum
  | .finite d => real d
  | .infinite negative => infinite negative
  | .nan => null

def ofParameter : Parameter → Datum
  | .null => null
  | .integer n => integer n
  | .real x => ofFloat x
  | .text s => text s
  | .bool b => ofBool b

def ofNumeral (numeral : Numeral) : Datum :=
  match readNumeral? numeral with
  | some d => real d
  | none => infinite numeral.negative

/-- A number of a payload, which is read from its text: an integer if signed 64 bits hold it. -/
def ofNumber (n : Number) : Datum :=
  match n.int64? with
  | some i => integer i.toInt
  | none => match Numeral.ofText? n.text with
    | some numeral => ofNumeral numeral
    | none => real n.toDouble

def ofValue : Value → Datum
  | .null => null
  | .bool b => ofBool b
  | .number n => ofNumber n
  | .string s => text s
  | v => text v.render

def className : Datum → String
  | null => "null"
  | integer _ => "integer"
  | real _ => "real"
  | infinite _ => "real"
  | text _ => "text"

def isNumber : Datum → Bool
  | integer _ => true
  | real _ => true
  | infinite _ => true
  | _ => false

/-- The number that a text denotes up to its first NUL, or null. -/
def numberOfText (s : String) : Datum :=
  match Numeral.ofText? (s.toList.takeWhile (· != '\x00')) with
  | some numeral => ofNumeral numeral
  | none => null

end Datum

/-! ## Attributes -/

def columnDatum (r : Record) : Column → Datum
  | .id => .text r.id
  | .appId => .text r.appId
  | .groupId => .text r.groupId
  | .tag => .text r.tag
  | .createdAt => .integer r.createdAt.toInt
  | .updatedAt => .integer r.updatedAt.toInt
  | .createdBy => .text r.createdBy.id
  | .createdByType => .text r.createdBy.kind
  | .updatedBy => .text r.updatedBy.id
  | .updatedByType => .text r.updatedBy.kind
  | .deletedAt => match r.deletedAt with
    | some t => .integer t.toInt
    | none => .null
  | .deletedBy => .ofText? r.deletedBy
  | .deletedByType => .ofText? r.deletedByType
  | .shouldIndex => .ofBool r.shouldIndex
  | .fieldsToIndex => .ofText? (r.fieldsToIndex.map fun fields => (Value.strings fields).render)

/-! ## Payloads -/

def typeName : Value → String
  | .null => "null"
  | .bool true => "true"
  | .bool false => "false"
  | .number (.int _) => "integer"
  | .number (.double _) => "real"
  | .string _ => "text"
  | .array _ => "array"
  | .object _ => "object"

/-- A segment as it is read from the text of a path: an index modulo `2 ^ 32`. -/
def readSegment : Segment → Segment
  | .index i => .index (i % 2 ^ 32)
  | segment => segment

/-- One step of a path into a payload: a key into an object and nothing else, an index into an array
and nothing else. Of the keys that a label names the first one counts. -/
def step? (v : Value) : Segment → Option Value
  | .key label => match v with
    | .object fields => (fields.find? fun field => Label.names label field.1).map (·.2)
    | _ => none
  | .index i => match v with
    | .array items => items[i]?
    | _ => none
  | .wildcard => some v

/-- The payload value at the end of a path. -/
def follow? : List Segment → Value → Option Value
  | [], v => some v
  | segment :: rest, v => (step? v segment).bind (follow? rest)

def holdsNul : Segment → Bool
  | .key label => label.toList.contains '\x00'
  | _ => false

/-- Whether following a path comes to a label that holds a NUL. The text of the path ends there,
without the quote that closes the label, and following it fails. -/
def comesToNul : List Segment → Value → Bool
  | [], _ => false
  | segment :: rest, v => holdsNul segment || (step? v segment).any (comesToNul rest)

end Sql

end RecordStore
