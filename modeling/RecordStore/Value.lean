import RecordStore.Keyed
import RecordStore.Number

/-!
# Values

The free-form values that records carry, queries mention and requests are made of. The fields of an
object stand in increasing order of their keys (`Value.Canonical`); `Value.ofFields` puts them so.
-/

namespace RecordStore

inductive Value where
  | null
  | bool (b : Bool)
  | number (n : Number)
  | string (s : String)
  | array (items : List Value)
  | object (fields : List (String × Value))
deriving Inhabited

/-- The fields of an object, in key order. -/
abbrev Fields := List (String × Value)

namespace Value

/-! ## Construction and inspection -/

def int (n : Int) : Value := .number (.int n)

def double (d : Double) : Value := .number (.double d)

/-- A binary64 number as a value, which is null unless the number is finite. -/
def float : Float64 → Value
  | .finite d => double d
  | _ => null

/-- An object of fields in any order, of which the last with a key counts. -/
def ofFields (fields : Fields) : Value := .object (Keyed.ofList fields)

def strings (items : List String) : Value := .array (items.map .string)

/-- The value of an object's field; nothing for any other value. -/
def field? (key : String) : Value → Option Value
  | .object fields => Keyed.get? key fields
  | _ => none

/-- The truth value, if it is one. -/
def bool? : Value → Option Bool
  | .bool b => some b
  | _ => none

def number? : Value → Option Number
  | .number n => some n
  | _ => none

def string? : Value → Option String
  | .string s => some s
  | _ => none

/-- The elements, if it is an array. -/
def items? : Value → Option (List Value)
  | .array items => some items
  | _ => none

def isNull : Value → Bool
  | .null => true
  | _ => false

def isArray : Value → Bool
  | .array _ => true
  | _ => false

def isObject : Value → Bool
  | .object _ => true
  | _ => false

/-! ## Levels -/

mutual

/-- The number of levels of arrays and objects. -/
def depth : Value → Nat
  | .array items => depthOfItems items + 1
  | .object fields => depthOfFields fields + 1
  | _ => 0
termination_by structural v => v

def depthOfItems : List Value → Nat
  | [] => 0
  | v :: rest => max v.depth (depthOfItems rest)
termination_by structural items => items

def depthOfFields : List (String × Value) → Nat
  | [] => 0
  | (_, v) :: rest => max v.depth (depthOfFields rest)
termination_by structural fields => fields

end

/-! ## Well-formed values -/

mutual

/-- Every object in the value has its fields in strictly increasing key order. -/
def Canonical : Value → Prop
  | .array items => CanonicalItems items
  | .object fields => Keyed.Sorted fields ∧ CanonicalFields fields
  | _ => True
termination_by structural v => v

def CanonicalItems : List Value → Prop
  | [] => True
  | v :: rest => v.Canonical ∧ CanonicalItems rest
termination_by structural items => items

def CanonicalFields : List (String × Value) → Prop
  | [] => True
  | (_, v) :: rest => v.Canonical ∧ CanonicalFields rest
termination_by structural fields => fields

end

theorem canonicalItems_iff (items : List Value) :
    CanonicalItems items ↔ ∀ v ∈ items, v.Canonical := by
  induction items with
  | nil => simp [CanonicalItems]
  | cons v rest ih => simp [CanonicalItems, ih]

theorem canonicalFields_iff (fields : Fields) :
    CanonicalFields fields ↔ ∀ entry ∈ fields, entry.2.Canonical := by
  induction fields with
  | nil => simp [CanonicalFields]
  | cons entry rest ih => simp [CanonicalFields, ih]

/-! ## Equality of form -/

mutual

/-- Whether two values are the same, number forms included. -/
def decEq : (a b : Value) → Decidable (a = b)
  | .null, .null => isTrue rfl
  | .bool a, .bool b => decidable_of_iff (a = b) (by simp)
  | .number a, .number b => decidable_of_iff (a = b) (by simp)
  | .string a, .string b => decidable_of_iff (a = b) (by simp)
  | .array a, .array b => match decEqItems a b with
    | isTrue h => isTrue (by rw [h])
    | isFalse h => isFalse (by simpa using h)
  | .object a, .object b => match decEqFields a b with
    | isTrue h => isTrue (by rw [h])
    | isFalse h => isFalse (by simpa using h)
  | .null, .bool _ | .null, .number _ | .null, .string _ | .null, .array _ | .null, .object _
  | .bool _, .null | .bool _, .number _ | .bool _, .string _ | .bool _, .array _
  | .bool _, .object _ | .number _, .null | .number _, .bool _ | .number _, .string _
  | .number _, .array _ | .number _, .object _ | .string _, .null | .string _, .bool _
  | .string _, .number _ | .string _, .array _ | .string _, .object _ | .array _, .null
  | .array _, .bool _ | .array _, .number _ | .array _, .string _ | .array _, .object _
  | .object _, .null | .object _, .bool _ | .object _, .number _ | .object _, .string _
  | .object _, .array _ => isFalse (by simp)
termination_by structural a => a

def decEqItems : (a b : List Value) → Decidable (a = b)
  | [], [] => isTrue rfl
  | [], _ :: _ => isFalse (by simp)
  | _ :: _, [] => isFalse (by simp)
  | a :: as, b :: bs => match decEq a b, decEqItems as bs with
    | isTrue h, isTrue h' => isTrue (by rw [h, h'])
    | isFalse h, _ => isFalse (by simp [h])
    | _, isFalse h => isFalse (by simp [h])
termination_by structural a => a

def decEqFields : (a b : List (String × Value)) → Decidable (a = b)
  | [], [] => isTrue rfl
  | [], _ :: _ => isFalse (by simp)
  | _ :: _, [] => isFalse (by simp)
  | (j, a) :: as, (k, b) :: bs => match String.decEq j k, decEq a b, decEqFields as bs with
    | isTrue h, isTrue h', isTrue h'' => isTrue (by rw [h, h', h''])
    | isFalse h, _, _ => isFalse (by simp [h])
    | _, isFalse h, _ => isFalse (by simp [h])
    | _, _, isFalse h => isFalse (by simp [h])
termination_by structural a => a

end

instance : DecidableEq Value := decEq

end Value

end RecordStore
