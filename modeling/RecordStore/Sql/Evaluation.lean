import RecordStore.Sql.Datum
import RecordStore.Sql.Filter
import RecordStore.Text.Occurrence

/-!
# Evaluation of SQL conditions

`Sql.Condition.eval` gives the truth value of a condition for a row, where `none` is null: a test of
null is null, conjunction, disjunction and negation are those of three-valued logic, and a flag or a
range over elements is always true or false.
-/

namespace RecordStore

namespace Sql

/-! ## Terms -/

/-- What a condition is evaluated for: a row, and the elements over which enclosing conditions
range, by their paths from the root of the payload. -/
structure Env where
  row : Record
  elements : List (Nat × List Segment)

namespace Env

/-- The path of a place from the root of the payload. Only its own segments are read from a text: an
element is where the range over the elements has come to. -/
def path (env : Env) (place : Place) : List Segment :=
  match place.element with
  | none => place.segments.map readSegment
  | some depth => (Keyed.get? depth env.elements).getD [] ++ place.segments.map readSegment

def value? (env : Env) (place : Place) : Option Value :=
  follow? (env.path place) env.row.payload

/-- What a condition on the elements of an array is evaluated for when it comes to one of them. -/
def ofElement (env : Env) (array : Place) (depth i : Nat) : Env :=
  { env with elements := (depth, env.path array ++ [.index i]) :: env.elements }

end Env

def Term.eval (env : Env) : Term → Datum
  | column target => columnDatum env.row target
  | columnType target => .text (columnDatum env.row target).className
  | columnNumber target =>
    let datum := columnDatum env.row target
    if datum.isNumber then datum else .null
  | payload place => match env.value? place with
    | some v => .ofValue v
    | none => .null
  | payloadType place => match env.value? place with
    | some v => .text (typeName v)
    | none => .null
  | payloadNumber place => match env.value? place with
    | some (.number n) => .ofNumber n
    | some (.string s) => .numberOfText s
    | _ => .null

/-! ## Three-valued logic -/

def and3 : Option Bool → Option Bool → Option Bool
  | some false, _ => some false
  | _, some false => some false
  | some true, b => b
  | none, _ => none

def or3 : Option Bool → Option Bool → Option Bool
  | some true, _ => some true
  | _, some true => some true
  | some false, b => b
  | none, _ => none

/-- A test of two data, null if one of them is. -/
def test (holds : Ordering → Bool) (a b : Datum) : Option Bool :=
  if a = .null ∨ b = .null then none else some (holds (a.compare b))

def equals3 (a b : Datum) : Option Bool := test (· == .eq) a b

/-! ## Texts -/

/-- A text with its upper-case ASCII letters in lower case. -/
def lowerAscii (cs : List Char) : List Char := cs.map Char.toLower

/-- Whether a datum holds a text; null if the datum is. -/
def contains3 (needle : String) (caseSensitive : Bool) : Datum → Option Bool
  | .text s =>
    if caseSensitive then some (Text.occursIn needle.toList s.toList)
    else some (Text.occursIn (lowerAscii needle.toList) (lowerAscii s.toList))
  | .null => none
  | _ => some false

/-! ## Conditions -/

namespace Condition

mutual

def eval : Condition → Env → Option Bool
  | always, _ => some true
  | never, _ => some false
  | hasType term name, env => equals3 (term.eval env) (.text name)
  | hasNumberType term, env =>
    or3 (equals3 (term.eval env) (.text "integer")) (equals3 (term.eval env) (.text "real"))
  | hasNullType term, env =>
    some (term.eval env == .null || term.eval env == .text "null")
  | equals term p, env => equals3 (term.eval env) (.ofParameter p)
  | equalsJson term v, env => equals3 (term.eval env) (.text v.render)
  | isIn term ps, env =>
    ps.foldr (fun p rest => or3 (equals3 (term.eval env) (.ofParameter p)) rest) (some false)
  | compares term op p, env => test op.holds (term.eval env) (.ofParameter p)
  | between term low high, env =>
    and3 (test Comparison.gte.holds (term.eval env) (.ofParameter low))
      (test Comparison.lte.holds (term.eval env) (.ofParameter high))
  | contains term needle caseSensitive, env => contains3 needle caseSensitive (term.eval env)
  | isNull term, env => some (term.eval env == .null)
  | isNotNull term, env => some (term.eval env != .null)
  | and a b, env => and3 (a.eval env) (b.eval env)
  | not a, env => (a.eval env).map (!·)
  | all conditions, env => evalAll conditions env
  | any conditions, env => evalAny conditions env
  | flag a, env => some (a.eval env == some true)
  | someElement array depth condition, env =>
    match env.value? array with
    | some (.array items) =>
      some ((List.range items.length).any fun i =>
        condition.eval (env.ofElement array depth i) == some true)
    | _ => some false
termination_by structural condition => condition

/-- The truth value of a conjunction. -/
def evalAll : List Condition → Env → Option Bool
  | [], _ => some true
  | a :: rest, env => and3 (a.eval env) (evalAll rest env)
termination_by structural conditions => conditions

/-- The truth value of a disjunction. -/
def evalAny : List Condition → Env → Option Bool
  | [], _ => some false
  | a :: rest, env => or3 (a.eval env) (evalAny rest env)
termination_by structural conditions => conditions

end

def selects (condition : Condition) (row : Record) : Bool :=
  condition.eval ⟨row, []⟩ == some true

end Condition

end Sql

/-! ## Orders and pages -/

def SortKey.compareRows (keys : List SortKey) (a b : Record) : Ordering :=
  match keys with
  | [] => .eq
  | key :: rest =>
    let first := (key.target.term.eval ⟨a, []⟩).compare (key.target.term.eval ⟨b, []⟩)
    let first := match key.direction with
      | .asc => first
      | .desc => first.swap
    first.then (compareRows rest a b)

/-- The rows that limit and offset select: a negative limit is none, a negative offset is zero. -/
def Sql.limited {α : Type} (limit offset : Int) (rows : List α) : List α :=
  let rows := rows.drop offset.toNat
  if limit < 0 then rows else rows.take limit.toNat

/-- The rows of a slice whose counts are read as parameters. -/
def Slice.rows {α : Type} (slice : Slice) (rows : List α) : List α :=
  Sql.limited (parameter slice.limit) (parameter slice.skip) rows

end RecordStore
