import RecordStore.Query.Clause
import RecordStore.Query.Order
import RecordStore.Sql.Condition

/-!
# Filters as SQL conditions

`Clause.condition` turns a clause into a condition on the records table. Every atom is wrapped so
that it is true or false and never null, which makes negation safe; each wildcard opens a range over
the elements of an array, and negation stands outside all of them. Orders and pages become the
`ORDER BY` and `LIMIT` parts of a query.
-/

namespace RecordStore

namespace Sql

/-! ## Atoms -/

/-- Something to test: the terms of its type, its value and its number. -/
structure Operand where
  type : Term
  value : Term
  number : Term
  isPayload : Bool

namespace Operand

def ofPlace (place : Place) : Operand :=
  ⟨.payloadType place, .payload place, .payloadNumber place, true⟩

def ofColumn (column : Column) : Operand :=
  ⟨.columnType column, .column column, .columnNumber column, false⟩

def ofNumberType (operand : Operand) (condition : Condition) : Condition :=
  .flag (.and (.hasNumberType operand.type) condition)

/-- A value of the given type that satisfies a condition. -/
def ofType (operand : Operand) (name : String) (condition : Condition) : Condition :=
  .flag (.and (.hasType operand.type name) condition)

/-- Equality with a value. Attributes hold lists as their text. -/
def eq (operand : Operand) (v : Value) : Condition :=
  match v with
  | .null =>
    if operand.isPayload then .flag (.hasNullType operand.type) else .isNull operand.value
  | .bool b =>
    if operand.isPayload then .flag (.hasType operand.type (if b then "true" else "false"))
    else operand.ofType "integer" (.equals operand.value (.bool b))
  | .number n => operand.ofNumberType (.equals operand.value (.ofNumber n))
  | .string s => operand.ofType "text" (.equals operand.value (.text s))
  | .array _ =>
    if operand.isPayload then operand.ofType "array" (.equalsJson operand.value v)
    else operand.ofType "text" (.equals operand.value (.text v.render))
  | .object _ =>
    if operand.isPayload then operand.ofType "object" (.equalsJson operand.value v)
    else operand.ofType "text" (.equals operand.value (.text v.render))

def stringParameters (values : List Value) : List Parameter :=
  values.filterMap fun v => v.string?.map .text

def numberParameters (values : List Value) : List Parameter :=
  values.filterMap fun v => v.number?.map .ofNumber

/-- Whether a value is neither a string nor a number. -/
def isOther (v : Value) : Bool := v.string?.isNone && v.number?.isNone

/-- Equality with one of some values: the strings as one list, the numbers as another, and each
other value on its own. -/
def isIn (operand : Operand) (values : List Value) : Condition :=
  let texts := stringParameters values
  let numbers := numberParameters values
  let alternatives :=
    (if texts.isEmpty then [] else [operand.ofType "text" (.isIn operand.value texts)]) ++
    (if numbers.isEmpty then [] else [operand.ofNumberType (.isIn operand.value numbers)]) ++
    (values.filter isOther).map operand.eq
  match alternatives with
  | [] => .never
  | [alternative] => alternative
  | alternatives => .flag (.any alternatives)

def positive (operand : Operand) : Predicate → Condition
  | .eq v => operand.eq v
  | .neq v => operand.eq v
  | .isIn values => operand.isIn values
  | .notIn values => operand.isIn values
  | .compare op bound => .flag (.compares operand.number op (.real bound))
  | .between low high => .flag (.between operand.number (.real low) (.real high))
  | .like needle caseSensitive =>
    operand.ofType "text" (.contains operand.value needle caseSensitive)
  | .exists _ => .isNotNull (if operand.isPayload then operand.type else operand.value)

end Operand

/-! ## Filters -/

/-- Whether a predicate is the negation of its positive form. -/
def isNegated : Predicate → Bool
  | .neq _ => true
  | .notIn _ => true
  | .exists false => true
  | _ => false

def ofPositive (predicate : Predicate) (positive : Condition) : Condition :=
  if isNegated predicate then .not positive else positive

/-- The positive form of a predicate at the end of a path from a place. -/
def pathCondition (predicate : Predicate) : Place → (depth : Nat) → List Segment → Condition
  | place, _, [] => (Operand.ofPlace place).positive predicate
  | place, depth, .wildcard :: rest =>
    .flag (.someElement place depth (pathCondition predicate ⟨some depth, []⟩ (depth + 1) rest))
  | place, depth, segment :: rest =>
    pathCondition predicate ⟨place.element, place.segments ++ [segment]⟩ depth rest

def payload (path : Path) (predicate : Predicate) : Condition :=
  ofPositive predicate (pathCondition predicate ⟨none, []⟩ 0 path.segments)

def column (target : Column) (predicate : Predicate) : Condition :=
  ofPositive predicate ((Operand.ofColumn target).positive predicate)

def idAfter (cursor : String) : Condition := .compares (.column .id) .gt (.text cursor)

/-- Whether a condition is the one that every row satisfies. -/
def Condition.isAlways : Condition → Bool
  | always => true
  | _ => false

/-- All of some conditions; those that are always satisfied are left out. -/
def all (conditions : List Condition) : Condition :=
  match conditions.filter (!·.isAlways) with
  | [] => .always
  | [condition] => condition
  | kept => .all kept

end Sql

mutual

/-- A clause as a condition on the records table. -/
def Clause.condition : Clause → Sql.Condition
  | .payload path predicate => Sql.payload path predicate
  | .column target predicate => Sql.column target predicate
  | .idAfter cursor => Sql.idAfter cursor
  | .all clauses => Sql.all (Clause.conditions clauses)

def Clause.conditions : List Clause → List Sql.Condition
  | [] => []
  | clause :: rest => clause.condition :: Clause.conditions rest

end

/-! ## Orders and pages -/

def SortTarget.term : SortTarget → Sql.Term
  | column target => .column target
  | payload path => .payload ⟨none, path.segments⟩

def SortDirection.keyword : SortDirection → String
  | asc => " ASC"
  | desc => " DESC"

def SortKey.fragment (keys : List SortKey) : Sql.Fragment :=
  Sql.Fragment.joined ", " (keys.map fun key =>
    key.target.term.fragment ++ Sql.Fragment.ofText key.direction.keyword)

namespace Slice

/-- A count as SQLite reads it: a signed 64-bit integer. -/
def parameter (n : Nat) : Int := (Int64.ofNat n).toInt

/-- The end of a query that selects a slice. -/
def fragment (slice : Slice) : Sql.Fragment :=
  ⟨"LIMIT ? OFFSET ?", [.integer (parameter slice.limit), .integer (parameter slice.skip)]⟩

end Slice

end RecordStore
