import RecordStore.Query.Clause
import RecordStore.Query.Order

/-!
# Filters as query documents

`Clause.document` writes a clause as a query document of the MongoDB dialect. A predicate on a
payload path becomes an `$expr` that reads exactly the value at the path, so that arrays are not
traversed on the way; each wildcard maps over the elements of an array. Negation stands outside all
of that: no element satisfies the positive condition. Existence and predicates on attributes are
field conditions on a dotted key.
-/

namespace RecordStore

namespace Document

/-! ## Building blocks -/

def single (key : String) (v : Value) : Value := .object [(key, v)]

def patternMeta : List Char :=
  ['\\', '.', '+', '*', '?', '(', ')', '|', '[', ']', '\x7b', '\x7d', '^', '$', '#', '&', '-', '~']

def escapePatternChars (cs : List Char) : List Char :=
  cs.flatMap fun c => if patternMeta.contains c then ['\\', c] else [c]

/-- The pattern that a text alone matches. -/
def escapePattern (s : String) : String := String.ofList (escapePatternChars s.toList)

def comparisonKey : Comparison → String
  | .gt => "$gt"
  | .gte => "$gte"
  | .lt => "$lt"
  | .lte => "$lte"

/-- The dotted key of a payload path, in which wildcards do not show. -/
def payloadKey (path : Path) : String :=
  match path.segments.filter (· ≠ .wildcard) with
  | [] => Record.payloadKey
  | segments => Record.payloadKey ++ "." ++ Path.joined segments

/-! ## Expressions -/

def fieldExpr (name : String) (input : Value) : Value :=
  single "$getField" (.object [("field", .string name), ("input", input)])

def elementExpr (i : Nat) (input : Value) : Value :=
  single "$arrayElemAt" (.array [input, .int i])

def isStringExpr (input : Value) : Value :=
  single "$eq" (.array [single "$type" input, .string "string"])

/-- A number, the number that a string denotes, or null. -/
def numericExpr (input : Value) : Value :=
  single "$cond" (.array [
    single "$or" (.array [single "$isNumber" input, isStringExpr input]),
    single "$convert" (.object [
      ("input", input), ("onError", .null), ("onNull", .null), ("to", .string "double")]),
    .null])

/-- All of some comparisons of the number that an input denotes. -/
def numericCondition (input : Value) (comparisons : List (Comparison × Float64)) : Value :=
  let n := numericExpr input
  single "$and" (.array (single "$ne" (.array [n, .null]) ::
    comparisons.map fun (op, bound) => single (comparisonKey op) (.array [n, .float bound])))

def equalsExpr (input v : Value) : Value := single "$eq" (.array [input, single "$literal" v])

def oneOfExpr (input : Value) (values : List Value) : Value :=
  single "$or" (.array (values.map (equalsExpr input)))

/-- Whether an input is a string that holds a text. -/
def likeExpr (input : Value) (needle : String) (caseSensitive : Bool) : Value :=
  let options := if caseSensitive then [] else [("options", Value.string "i")]
  single "$and" (.array [isStringExpr input,
    single "$regexMatch" (.object ([("input", input)] ++ options ++
      [("regex", .string (escapePattern needle))]))])

/-- The positive form of a predicate on one value. A value that is read exists. -/
def valueCondition (input : Value) : Predicate → Value
  | .eq v => equalsExpr input v
  | .neq v => equalsExpr input v
  | .isIn values => oneOfExpr input values
  | .notIn values => oneOfExpr input values
  | .compare op bound => numericCondition input [(op, bound)]
  | .between low high => numericCondition input [(.gte, low), (.lte, high)]
  | .like needle caseSensitive => likeExpr input needle caseSensitive
  | .exists flag => .bool flag

/-- The variable that stands for the elements below a number of wildcards. -/
def elementVariable (depth : Nat) : String := "el" ++ Segment.indexText depth

/-- Whether a condition holds of some element of an array; what is no array has no elements. -/
def someElement (input : Value) (depth : Nat) (condition : Value) : Value :=
  let array := single "$cond"
    (.array [single "$isArray" (.array [input]), input, .array []])
  single "$anyElementTrue" (.array [single "$map" (.object [
    ("as", .string (elementVariable depth)), ("in", condition), ("input", array)])])

/-- The positive form of a predicate at the end of a path from an input. -/
def pathCondition (predicate : Predicate) : (input : Value) → (depth : Nat) → List Segment → Value
  | input, _, [] => valueCondition input predicate
  | input, depth, .key name :: rest => pathCondition predicate (fieldExpr name input) depth rest
  | input, depth, .index i :: rest => pathCondition predicate (elementExpr i input) depth rest
  | input, depth, .wildcard :: rest =>
    let element := Value.string ("$$" ++ elementVariable depth)
    someElement input depth (pathCondition predicate element (depth + 1) rest)

/-! ## Field conditions -/

def fieldOperators : Predicate → Fields
  | .eq v => [("$eq", v)]
  | .neq v => [("$ne", v)]
  | .isIn values => [("$in", .array values)]
  | .notIn values => [("$nin", .array values)]
  | .compare op bound => [(comparisonKey op, .float bound)]
  | .between low high => [("$gte", .float low), ("$lte", .float high)]
  | .like needle caseSensitive =>
    (if caseSensitive then [] else [("$options", Value.string "i")]) ++
      [("$regex", .string (escapePattern needle))]
  | .exists flag => [("$exists", .bool flag)]

def fieldCondition (key : String) (predicate : Predicate) : Value :=
  single key (.object (fieldOperators predicate))

/-! ## Filters -/

def always : Value := .object []

/-- All of some filters; those that are always satisfied are left out. -/
def all (filters : List Value) : Value :=
  match filters.filter (· ≠ always) with
  | [] => always
  | [filter] => filter
  | kept => single "$and" (.array kept)

def payload (path : Path) (predicate : Predicate) : Value :=
  match predicate with
  | .exists _ => fieldCondition (payloadKey path) predicate
  | predicate =>
    let root := Value.string ("$" ++ Record.payloadKey)
    let condition := pathCondition predicate root 0 path.segments
    single "$expr" (if predicate.isNegative then single "$not" (.array [condition]) else condition)

def column (target : Column) (predicate : Predicate) : Value :=
  fieldCondition target.key predicate

def idAfter (cursor : String) : Value := single Column.id.key (single "$gt" (.string cursor))

end Document

mutual

def Clause.document : Clause → Value
  | .payload path predicate => Document.payload path predicate
  | .column target predicate => Document.column target predicate
  | .idAfter cursor => Document.idAfter cursor
  | .all clauses => Document.all (Clause.documents clauses)

def Clause.documents : List Clause → List Value
  | [] => []
  | clause :: rest => clause.document :: Clause.documents rest

end

def SortKey.documentKey (key : SortKey) : String :=
  match key.target with
  | .column target => target.key
  | .payload path => Document.payloadKey path

def SortKey.documentOrder (keys : List SortKey) : List (String × SortDirection) :=
  keys.map fun key => (key.documentKey, key.direction)

end RecordStore
