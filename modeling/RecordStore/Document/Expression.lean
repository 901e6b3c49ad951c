import RecordStore.Document.Condition

/-!
# Expressions over documents

`Expression.eval` evaluates the aggregation expressions of the query dialect: field paths and
variables, literals, and operators. An operator gets its operands unevaluated (`Operands`), because
logical operators and conditions evaluate only what they need, and because some operands are read as
they stand. Missing fields are null.
-/

namespace RecordStore

namespace Expression

/-! ## Bindings and paths -/

structure Bindings where
  root : Value
  bound : Fields

abbrev Meaning := Bindings → Except StoreError Value

mutual

/-- One step of a field path. It maps over the objects in an array and does not index it. -/
def stepInto (part : String) : Value → Value
  | .object fields => (Keyed.get? part fields).getD .null
  | .array items => .array (stepIntoItems part items)
  | _ => .null

/-- One step into the elements of an array; those without the field are left out. -/
def stepIntoItems (part : String) : List Value → List Value
  | [] => []
  | v :: rest =>
    match v with
    | .object fields => (Keyed.get? part fields).toList ++ stepIntoItems part rest
    | .array items => .array (stepIntoItems part items) :: stepIntoItems part rest
    | _ => stepIntoItems part rest

end

def atPath (path : String) (v : Value) : Value :=
  (dottedParts path).foldl (fun v part => stepInto part v) v

/-- The text before the first point, and the text after it. -/
def splitName : List Char → List Char × Option (List Char)
  | [] => ([], none)
  | c :: cs =>
    if c = '.' then ([], some cs)
    else ((c :: (splitName cs).1), (splitName cs).2)

/-- A variable, or a field path that starts from one. -/
def readVariable (σ : Bindings) (text : List Char) : Except StoreError Value :=
  let (name, path) := splitName text
  match Keyed.get? (String.ofList name) σ.bound with
  | none => refuse (.unboundVariable (String.ofList name))
  | some v => match path with
    | some path => .ok (atPath (String.ofList path) v)
    | none => .ok v

/-- What a string means: a variable, a field path, or itself. -/
def readString (s : String) (σ : Bindings) : Except StoreError Value :=
  match s.toList with
  | '$' :: '$' :: text => readVariable σ text
  | '$' :: path => .ok (atPath (String.ofList path) σ.root)
  | _ => .ok (.string s)

/-! ## Operands -/

structure Operands where
  raw : Value
  /-- The operands by position; a single one need not be in an array. -/
  positional : List Meaning
  named : List (String × Meaning)

namespace Operands

def values (operands : Operands) (σ : Bindings) : Except StoreError (List Value) :=
  operands.positional.mapM fun meaning => meaning σ

/-- The first operand by position, if there is any. All are evaluated. -/
def first? (operands : Operands) (σ : Bindings) : Except StoreError (Option Value) :=
  return (← operands.values σ).head?

/-- Exactly two operands by position. -/
def pair (operands : Operands) (op : String) (σ : Bindings) :
    Except StoreError (Value × Value) := do
  match ← operands.values σ with
  | [a, b] => return (a, b)
  | _ => refuse (.twoArguments op)

def meaning? (operands : Operands) (name : String) : Option Meaning :=
  Keyed.get? name operands.named

/-- An operand by name as it stands, if it is a string. -/
def text? (operands : Operands) (name : String) : Option String :=
  (operands.raw.field? name).bind Value.string?

/-- An operand by name, if it is given. -/
def value? (operands : Operands) (name : String) (σ : Bindings) :
    Except StoreError (Option Value) :=
  match operands.meaning? name with
  | some meaning => return some (← meaning σ)
  | none => .ok none

end Operands

/-! ## Operators -/

def allTrue (σ : Bindings) : List Meaning → Except StoreError Bool
  | [] => .ok true
  | meaning :: rest => do
    if (← meaning σ).isTrue then allTrue σ rest else return false

def someTrue (σ : Bindings) : List Meaning → Except StoreError Bool
  | [] => .ok false
  | meaning :: rest => do
    if (← meaning σ).isTrue then return true else someTrue σ rest

/-- The parts of a condition, by position or by name. -/
def conditionParts (operands : Operands) : Except StoreError (Meaning × Meaning × Meaning) :=
  match operands.raw, operands.positional with
  | .array _, [condition, yes, no] => .ok (condition, yes, no)
  | .object _, _ =>
    match operands.meaning? "if", operands.meaning? "then", operands.meaning? "else" with
    | some condition, some yes, some no => .ok (condition, yes, no)
    | _, _, _ => refuse .conditionParts
  | _, _ => refuse .conditionArity

def typeName : Value → String
  | .null => "null"
  | .bool _ => "bool"
  | .number (.double _) => "double"
  | .number (.int n) => if -2 ^ 31 ≤ n ∧ n < 2 ^ 31 then "int" else "long"
  | .string _ => "string"
  | .array _ => "array"
  | .object _ => "object"

/-- A value as a double: numbers, truth values, and strings that denote numbers. -/
def double? : Value → Option Double
  | .number n => some n.toDouble
  | .bool b => some (Double.ofInt (if b then 1 else 0))
  | .string s => Numeral.double? s
  | _ => none

/-- An operand by name, or null if it is not given. -/
def orNull (operands : Operands) (name : String) (σ : Bindings) : Except StoreError Value :=
  return (← operands.value? name σ).getD .null

/-- Conversion to a double, with replacements for null and for what cannot be converted. -/
def convert (operands : Operands) (σ : Bindings) : Except StoreError Value := do
  let some input ← operands.value? "input" σ | refuse .convertInput
  let target := (operands.text? "to").getD "double"
  if target ≠ "double" then refuse (.convertTarget target)
  else if input.isNull then orNull operands "onNull" σ
  else match double? input with
    | some d => return .double d
    | none => orNull operands "onError" σ

/-- The values of a body for the elements of an array, one after another. -/
def mapOver (σ : Bindings) (name : String) (body : Meaning) (items : List Value) :
    Except StoreError (List Value) :=
  items.mapM fun item => body { σ with bound := Keyed.insert name item σ.bound }

/-- The values of a body for every element of the input; null if that is no array. -/
def map (operands : Operands) (σ : Bindings) : Except StoreError Value :=
  match operands.meaning? "input", operands.meaning? "in" with
  | some input, some body => do
    match ← input σ with
    | .array items => return .array (← mapOver σ ((operands.text? "as").getD "this") body items)
    | _ => return .null
  | _, _ => refuse .mapParts

/-- The element at a position, counted from the end if it is negative. -/
def elementAt (v index : Value) : Value :=
  match v, index.number?.bind Number.int64? with
  | .array items, some i =>
    let i := if i.toInt < 0 then items.length + i.toInt else i.toInt
    if i < 0 then .null else (items[i.toNat]?).getD .null
  | _, _ => .null

/-- The field of the input, which is the document if none is given. -/
def getField (operands : Operands) (σ : Bindings) : Except StoreError Value :=
  match operands.raw with
  | .string name => .ok ((σ.root.field? name).getD .null)
  | _ => match operands.text? "field" with
    | none => refuse .fieldName
    | some name => do
      let input := (← operands.value? "input" σ).getD σ.root
      return (input.field? name).getD .null

/-- Whether a pattern matches in a string; null matches nothing. -/
def regexMatch (operands : Operands) (σ : Bindings) : Except StoreError Value := do
  let some input ← operands.value? "input" σ | refuse .matchInput
  let pattern ← orNull operands "regex" σ
  let options ← operands.value? "options" σ
  let search ← Document.search pattern options
  match input with
  | .string s => return .bool (search s)
  | .null => return .bool false
  | _ => refuse .matchOperand

def apply (op : String) (operands : Operands) (σ : Bindings) : Except StoreError Value :=
  match op with
  | "$and" => return .bool (← allTrue σ operands.positional)
  | "$or" => return .bool (← someTrue σ operands.positional)
  | "$not" => do
    return .bool (!((← operands.first? σ).any Value.isTrue))
  | "$eq" => do
    let (a, b) ← operands.pair op σ
    return .bool (a.compare b == .eq)
  | "$ne" => do
    let (a, b) ← operands.pair op σ
    return .bool (a.compare b != .eq)
  | "$gt" => do
    let (a, b) ← operands.pair op σ
    return .bool (Comparison.gt.holds (a.compare b))
  | "$gte" => do
    let (a, b) ← operands.pair op σ
    return .bool (Comparison.gte.holds (a.compare b))
  | "$lt" => do
    let (a, b) ← operands.pair op σ
    return .bool (Comparison.lt.holds (a.compare b))
  | "$lte" => do
    let (a, b) ← operands.pair op σ
    return .bool (Comparison.lte.holds (a.compare b))
  | "$cond" => do
    let (condition, yes, no) ← conditionParts operands
    if (← condition σ).isTrue then yes σ else no σ
  | "$ifNull" => return ((← operands.values σ).find? (!·.isNull)).getD .null
  | "$isArray" => return .bool ((← operands.first? σ).any Value.isArray)
  | "$isNumber" => return .bool ((← operands.first? σ).any fun v => v.number?.isSome)
  | "$type" => return .string (typeName ((← operands.first? σ).getD .null))
  | "$convert" => convert operands σ
  | "$map" => map operands σ
  | "$anyElementTrue" => do
    match ← operands.first? σ with
    | some (.array items) => return .bool (items.any Value.isTrue)
    | _ => refuse .elementsShape
  | "$arrayElemAt" => do
    let (v, index) ← operands.pair op σ
    return elementAt v index
  | "$getField" => getField operands σ
  | "$regexMatch" => regexMatch operands σ
  | "$literal" => .ok operands.raw
  | op => refuse (.expressionOperator op)

/-! ## Evaluation -/

mutual

def eval : Value → Meaning
  | .string s => readString s
  | .array items => fun σ => return .array (← (meanings items).mapM fun meaning => meaning σ)
  | .object [(op, args)] =>
    if Document.isOperator op then
      apply op {
        raw := args
        positional := match args with
          | .array items => meanings items
          | args => [fun σ => eval args σ]
        named := match args with
          | .object fields => namedMeanings fields
          | _ => [] }
    else fun σ => return .object [(op, ← eval args σ)]
  | .object fields => fun σ =>
    return .object (← (namedMeanings fields).mapM fun (name, meaning) => return (name, ← meaning σ))
  | v => fun _ => .ok v
termination_by structural v => v

def meanings : List Value → List Meaning
  | [] => []
  | v :: rest => (fun σ => eval v σ) :: meanings rest
termination_by structural items => items

def namedMeanings : List (String × Value) → List (String × Meaning)
  | [] => []
  | (name, v) :: rest => (name, fun σ => eval v σ) :: namedMeanings rest
termination_by structural fields => fields

end

def evaluate (expression document : Value) : Except StoreError Value :=
  eval expression ⟨document, []⟩

end Expression

end RecordStore
