import RecordStore.Path
import RecordStore.Pattern
import RecordStore.Query.Predicate
import RecordStore.Value.Order

/-!
# Conditions on the fields of a document

A field condition holds if some value that a dotted path reaches satisfies it. The path goes through
arrays of documents on its way (`Document.reached`), and an array at its end stands for itself and
for its elements (`Document.candidates`).
-/

namespace RecordStore

/-- Whether a value counts as true: false, null and zero do not. -/
def Value.isTrue : Value → Bool
  | .null => false
  | .bool b => b
  | .number n => !n.toDouble.isZero
  | _ => true

namespace Document

def isOperator (key : String) : Bool := key.toList.head? == some '$'

/-! ## Reaching values -/

/-- The values that a dotted path reaches; nothing marks a branch on which the path ends early. An
array is entered at a position and through each of its objects. -/
def reached : List String → Value → List (Option Value)
  | [], v => [some v]
  | part :: rest, v =>
    let enter := fun (child : Option Value) => match child with
      | some child => reached rest child
      | none => [none]
    match v with
    | .object fields => enter (Keyed.get? part fields)
    | .array items =>
      let atPosition := match (position? part).bind fun i => items[i]? with
        | some child => reached rest child
        | none => []
      atPosition ++ (items.filter Value.isObject).flatMap fun item => enter (item.field? part)
    | _ => [none]

/-- The values that a dotted path reaches, at least one. -/
def reachedAt (path : String) (document : Value) : List (Option Value) :=
  match reached (dottedParts path) document with
  | [] => [none]
  | found => found

/-- The values to test: what is reached, and the elements of each array that is reached. -/
def candidates (found : List (Option Value)) : List Value :=
  found.flatMap fun v => match v with
    | none => []
    | some (.array items) => .array items :: items
    | some v => [v]

/-! ## Tests -/

/-- Whether some value equals the operand. Null equals what is missing. -/
def equalsSome (found : List (Option Value)) (operand : Value) : Bool :=
  (operand.isNull && found.any Option.isNone) || (candidates found).any fun v => v.equal operand

/-- Whether some value equals a member of a list. -/
def isInList (found : List (Option Value)) (operand : Value) : Except StoreError Bool :=
  match operand with
  | .array items => .ok (items.any (equalsSome found))
  | _ => refuse .membershipShape

/-- Whether two values are both numbers or both strings. -/
def areComparable : Value → Value → Bool
  | .number _, .number _ => true
  | .string _, .string _ => true
  | _, _ => false

/-- Whether some comparable value stands in a relation to the operand. -/
def comparesSome (found : List (Option Value)) (op : Comparison) (operand : Value) : Bool :=
  (candidates found).any fun v => areComparable v operand && op.holds (v.compare operand)

/-- How to search a text for a pattern, case apart if an option says so. -/
def search (pattern : Value) (options : Option Value) : Except StoreError (String → Bool) :=
  match pattern with
  | .string text =>
    let ignoreCase := (options.bind Value.string?).any fun s => s.toList.contains 'i'
    match Pattern.parse? text with
    | some pattern => .ok (pattern.isFoundIn ignoreCase)
    | none => refuse .malformedPattern
  | _ => refuse .patternShape

def matchesSome (found : List (Option Value)) (pattern : Value) (options : Option Value) :
    Except StoreError Bool := do
  let isFound ← search pattern options
  return (candidates found).any fun v => v.string?.any isFound

/-! ## Conditions -/

def operatorHolds (found : List (Option Value)) (operators : Fields) (op : String)
    (operand : Value) : Except StoreError Bool :=
  match op with
  | "$eq" => .ok (equalsSome found operand)
  | "$ne" => .ok (!equalsSome found operand)
  | "$in" => isInList found operand
  | "$nin" => return !(← isInList found operand)
  | "$exists" => .ok (found.any Option.isSome == operand.isTrue)
  | "$gt" => .ok (comparesSome found .gt operand)
  | "$gte" => .ok (comparesSome found .gte operand)
  | "$lt" => .ok (comparesSome found .lt operand)
  | "$lte" => .ok (comparesSome found .lte operand)
  | "$regex" => matchesSome found operand (Keyed.get? "$options" operators)
  | "$options" => .ok true
  | op => refuse (.fieldOperator op)

/-- Whether the remaining operators of a field condition hold, up to the first that does not. -/
def operatorsHold (found : List (Option Value)) (operators : Fields) :
    (remaining : Fields) → Except StoreError Bool
  | [] => .ok true
  | (op, operand) :: rest => do
    if ← operatorHolds found operators op operand then operatorsHold found operators rest
    else return false

def hasOperators (fields : Fields) : Bool :=
  !fields.isEmpty && fields.all fun field => isOperator field.1

/-- Whether a document satisfies a condition on a dotted path: its operators, or equality with what
is no operator document. -/
def fieldHolds (document : Value) (path : String) (condition : Value) : Except StoreError Bool :=
  let found := reachedAt path document
  match condition with
  | .object fields =>
    if hasOperators fields then operatorsHold found fields fields
    else .ok (equalsSome found condition)
  | condition => .ok (equalsSome found condition)

end Document

end RecordStore
