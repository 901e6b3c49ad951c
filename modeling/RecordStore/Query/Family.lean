import RecordStore.Error
import RecordStore.Query

/-!
# Families of attribute predicates

The predicates on an attribute either take strings or take numbers. `AttributeQuery.classify` finds
the family from the operands and the operators that are present: a range operator asks for numbers.
Operands of other kinds and mixtures are refused. Without any operand the predicates are those of an
empty string query.
-/

namespace RecordStore

/-- A family of attribute predicates. -/
inductive Family where
  | string | number
deriving DecidableEq, Inhabited

/-- Attribute predicates of one family. -/
inductive TypedQuery where
  | string (query : StringQuery)
  | number (query : NumberQuery)
deriving DecidableEq, Inhabited

def Family.ofOperand : Value → Except StoreError Family
  | .string _ => .ok .string
  | .number _ => .ok .number
  | v => refuse (.attributeOperand v)

/-- The family that all operands share with the one known so far. -/
def Family.join : Option Family → List Value → Except StoreError (Option Family)
  | known, [] => .ok known
  | known, v :: rest => do
    let family ← Family.ofOperand v
    if known.isSome ∧ known ≠ some family then refuse .mixedFamilies
    else Family.join (some family) rest

namespace AttributeQuery

/-- Whether an operator is present that only numbers have. -/
def hasRange (query : AttributeQuery) : Bool :=
  query.gt.isSome || query.gte.isSome || query.lt.isSome || query.lte.isSome ||
    query.between.isSome

def operands (query : AttributeQuery) : List Value :=
  query.eq.toList ++ query.neq.toList ++ query.isIn.getD [] ++ query.notIn.getD []

/-- The two bounds of `between`, if it is present. -/
def betweenBounds? (query : AttributeQuery) : Except StoreError (Option (Bound × Bound)) :=
  match query.between with
  | none => .ok none
  | some [low, high] => .ok (some (low, high))
  | some _ => refuse .attributeBetween

def strings (query : AttributeQuery) : StringQuery where
  eq := query.eq.bind Value.string?
  neq := query.neq.bind Value.string?
  isIn := query.isIn.map (List.filterMap Value.string?)
  notIn := query.notIn.map (List.filterMap Value.string?)

def numbers (query : AttributeQuery) (between : Option (Bound × Bound)) : NumberQuery where
  eq := query.eq.bind Wire.float?
  neq := query.neq.bind Wire.float?
  isIn := query.isIn.map (List.filterMap Wire.float?)
  notIn := query.notIn.map (List.filterMap Wire.float?)
  gt := query.gt
  gte := query.gte
  lt := query.lt
  lte := query.lte
  between := between

/-- The predicates of the one family that they belong to. -/
def classify (query : AttributeQuery) : Except StoreError TypedQuery := do
  match ← Family.join (if query.hasRange then some .number else none) query.operands with
  | some .number => return .number (query.numbers (← query.betweenBounds?))
  | _ => return .string query.strings

end AttributeQuery

end RecordStore
