import RecordStore.Path
import RecordStore.Query.Predicate
import RecordStore.Value.Text

/-!
# SQL conditions

The fragment of SQLite's expression language that filters on the records table use. Paths and
literals are bound parameters (`Sql.Parameter`); what a condition says besides is fixed text.
`Sql.Condition.fragment` writes a condition, with its parameters in the order of their placeholders.
-/

namespace RecordStore

namespace Sql

/-! ## Parameters and fragments -/

/-- A value bound to a placeholder. -/
inductive Parameter where
  | null
  | integer (n : Int)
  | real (x : Float64)
  | text (s : String)
  | bool (b : Bool)
deriving DecidableEq, Inhabited

/-- A number as a parameter; integers beyond signed 64 bits become doubles. -/
def Parameter.ofNumber (n : Number) : Parameter :=
  match n.int64? with
  | some i => integer i.toInt
  | none => real (.finite n.toDouble)

/-- A text with the parameters of its placeholders, in textual order. -/
structure Fragment where
  sql : String
  params : List Parameter
deriving DecidableEq, Inhabited

namespace Fragment

def ofText (sql : String) : Fragment := ⟨sql, []⟩

def ofParameter (p : Parameter) : Fragment := ⟨"?", [p]⟩

def append (a b : Fragment) : Fragment := ⟨a.sql ++ b.sql, a.params ++ b.params⟩

instance : Append Fragment := ⟨append⟩

def joined (separator : String) : List Fragment → Fragment
  | [] => ofText ""
  | [a] => a
  | a :: rest => a ++ ofText separator ++ joined separator rest

def parenthesized (a : Fragment) : Fragment := ofText "(" ++ a ++ ofText ")"

def always : Fragment := ofText "1 = 1"

/-- All of some conditions; those that are always satisfied are left out. -/
def all (conditions : List Fragment) : Fragment :=
  match conditions.filter (· ≠ always) with
  | [] => always
  | [condition] => condition
  | kept => joined " AND " (kept.map parenthesized)

end Fragment

/-! ## Places in the payload -/

def payloadColumn : String := "obj_record"

/-- The text of a path below some place: `."key"` for a key and `[0]` for an index. -/
def pathText : List Segment → String
  | [] => ""
  | .key name :: rest => ".\"" ++ name ++ "\"" ++ pathText rest
  | .index i :: rest => "[" ++ Segment.indexText i ++ "]" ++ pathText rest
  | .wildcard :: rest => pathText rest

def rootPathText (segments : List Segment) : String := "$" ++ pathText segments

/-- A place in the payload: segments from the root, or from the element of an array over which an
enclosing condition ranges. -/
structure Place where
  element : Option Nat
  segments : List Segment
deriving DecidableEq, Inhabited

def elementName (depth : Nat) : String := "j" ++ Segment.indexText depth

def Place.fragment (place : Place) : Fragment :=
  match place.element with
  | none => .ofParameter (.text (rootPathText place.segments))
  | some depth =>
    let key := Fragment.ofText (elementName depth ++ ".fullkey")
    match place.segments with
    | [] => key
    | segments => key ++ Fragment.ofText " || " ++ Fragment.ofParameter (.text (pathText segments))

def payloadCall (function : String) (place : Place) : Fragment :=
  Fragment.ofText (function ++ "(" ++ payloadColumn ++ ", ") ++ place.fragment ++
    Fragment.ofText ")"

/-! ## Terms -/

inductive Term where
  | column (column : Column)
  /-- The name of an attribute's storage class. -/
  | columnType (column : Column)
  /-- An attribute if it is a number. -/
  | columnNumber (column : Column)
  | payload (place : Place)
  | payloadType (place : Place)
  /-- The payload at a place if it is a number or a text that denotes one. -/
  | payloadNumber (place : Place)
deriving DecidableEq, Inhabited

def Term.fragment : Term → Fragment
  | column target => .ofText target.sqlName
  | columnType target => .ofText ("typeof(" ++ target.sqlName ++ ")")
  | columnNumber target =>
    .ofText ("CASE WHEN typeof(" ++ target.sqlName ++ ") IN ('integer', 'real') THEN " ++
      target.sqlName ++ " END")
  | payload place => payloadCall "json_extract" place
  | payloadType place => payloadCall "json_type" place
  | payloadNumber place =>
    let value := payloadCall "json_extract" place
    Fragment.ofText "CASE " ++ payloadCall "json_type" place ++
      Fragment.ofText " WHEN 'integer' THEN " ++ value ++
      Fragment.ofText " WHEN 'real' THEN " ++ value ++
      Fragment.ofText " WHEN 'text' THEN CASE WHEN json_valid(" ++ value ++
      Fragment.ofText ") THEN CASE WHEN json_type(" ++ value ++
      Fragment.ofText ") IN ('integer', 'real') THEN CAST(" ++ value ++
      Fragment.ofText " AS REAL) END END END"

/-! ## Conditions -/

/-- A condition, which may be true, false or null. -/
inductive Condition where
  | always
  | never
  | hasType (term : Term) (name : String)
  | hasNumberType (term : Term)
  | hasNullType (term : Term)
  | equals (term : Term) (p : Parameter)
  | equalsJson (term : Term) (v : Value)
  | isIn (term : Term) (ps : List Parameter)
  | compares (term : Term) (op : Comparison) (p : Parameter)
  | between (term : Term) (low high : Parameter)
  /-- Holds a text, upper and lower case ASCII letters apart or not. -/
  | contains (term : Term) (needle : String) (caseSensitive : Bool)
  | isNull (term : Term)
  | isNotNull (term : Term)
  | and (a b : Condition)
  | not (a : Condition)
  | all (conditions : List Condition)
  | any (conditions : List Condition)
  /-- True if the condition is, and false otherwise. -/
  | flag (a : Condition)
  | someElement (array : Place) (depth : Nat) (condition : Condition)
deriving Inhabited

def comparisonSign : Comparison → String
  | .gt => ">"
  | .gte => ">="
  | .lt => "<"
  | .lte => "<="

def Term.followedBy (term : Term) (rest : Fragment) : Fragment := term.fragment ++ rest

namespace Condition

/-- A condition that is either true or false. -/
def flagged (a : Fragment) : Fragment :=
  Fragment.ofText "CASE WHEN " ++ a ++ Fragment.ofText " THEN 1 ELSE 0 END"

mutual

def fragment : Condition → Fragment
  | always => Fragment.always
  | never => .ofText "0"
  | hasType term name => term.followedBy (.ofText (" = '" ++ name ++ "'"))
  | hasNumberType term => term.followedBy (.ofText " IN ('integer', 'real')")
  | hasNullType term =>
    Fragment.ofText "IFNULL(" ++ term.followedBy (.ofText ", 'null') = 'null'")
  | equals term p => term.followedBy (Fragment.ofText " = " ++ Fragment.ofParameter p)
  | equalsJson term v =>
    term.followedBy
      (Fragment.ofText " = json(" ++ Fragment.ofParameter (.text v.render) ++ Fragment.ofText ")")
  | isIn term ps =>
    term.followedBy (Fragment.ofText " IN (" ++
      Fragment.joined ", " (ps.map Fragment.ofParameter) ++ Fragment.ofText ")")
  | compares term op p =>
    term.followedBy (Fragment.ofText (" " ++ comparisonSign op ++ " ") ++ Fragment.ofParameter p)
  | between term low high =>
    term.followedBy (Fragment.ofText " BETWEEN " ++ Fragment.ofParameter low ++
      Fragment.ofText " AND " ++ Fragment.ofParameter high)
  | contains term needle true =>
    Fragment.ofText "instr(" ++
      term.followedBy (Fragment.ofText ", " ++ Fragment.ofParameter (.text needle) ++
        Fragment.ofText ") > 0")
  | contains term needle false =>
    Fragment.ofText "instr(lower(" ++
      term.followedBy (Fragment.ofText "), lower(" ++ Fragment.ofParameter (.text needle) ++
        Fragment.ofText ")) > 0")
  | isNull term => term.followedBy (.ofText " IS NULL")
  | isNotNull term => term.followedBy (.ofText " IS NOT NULL")
  | and a b => a.fragment ++ Fragment.ofText " AND " ++ b.fragment
  | not a => Fragment.ofText "NOT " ++ a.fragment.parenthesized
  | all conditions => Fragment.joined " AND " (fragments conditions)
  | any conditions => Fragment.joined " OR " (fragments conditions)
  | flag a => flagged a.fragment
  | someElement array depth condition =>
    payloadCall "json_type" array ++ Fragment.ofText " = 'array' AND EXISTS (SELECT 1 FROM " ++
      payloadCall "json_each" array ++ Fragment.ofText (" AS " ++ elementName depth ++ " WHERE ") ++
      condition.fragment ++ Fragment.ofText ")"

def fragments : List Condition → List Fragment
  | [] => []
  | a :: rest => a.fragment.parenthesized :: fragments rest

end

end Condition

end Sql

end RecordStore
