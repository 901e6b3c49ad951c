import RecordStore.Error
import RecordStore.Query.Wire

/-!
# Predicates

A `Predicate` is a condition on one value whose operand has been checked and whose durations have
been resolved. `PartItem.predicate` makes one from a payload predicate as it is received.
-/

namespace RecordStore

inductive Comparison where
  | gt | gte | lt | lte
deriving DecidableEq, Inhabited

/-- Whether a comparison holds of two things in a given order. -/
def Comparison.holds : Comparison → Ordering → Bool
  | gt, order => order == .gt
  | gte, order => order != .lt
  | lt, order => order == .lt
  | lte, order => order != .gt

/-- A condition on a value. -/
inductive Predicate where
  | eq (v : Value)
  | neq (v : Value)
  | isIn (values : List Value)
  | notIn (values : List Value)
  | compare (op : Comparison) (bound : Float64)
  /-- Between two bounds, ends included. -/
  | between (low high : Float64)
  | like (needle : String) (caseSensitive : Bool)
  | exists (flag : Bool)
deriving DecidableEq, Inhabited

/-- Whether a predicate says that no value has a property. -/
def Predicate.isNegative : Predicate → Bool
  | neq _ => true
  | notIn _ => true
  | _ => false

namespace PartItem

def comparisonOperand (item : PartItem) (reference : Instant) : Except StoreError Float64 :=
  match Bound.ofValue? item.value with
  | some bound => .ok (bound.resolve reference)
  | none => refuse (.comparisonOperand item.op.name item.field)

/-- The two ends of a range. -/
def betweenOperands (item : PartItem) (reference : Instant) :
    Except StoreError (Float64 × Float64) :=
  match item.value with
  | .array [low, high] => match Bound.ofValue? low, Bound.ofValue? high with
    | some low, some high => .ok (low.resolve reference, high.resolve reference)
    | _, _ => refuse (.betweenBound item.field)
  | _ => refuse (.betweenArity item.field)

def listOperand (item : PartItem) : Except StoreError (List Value) :=
  match item.value with
  | .array items => .ok items
  | _ => refuse (.listOperand item.op.name item.field)

def likeOperand (item : PartItem) : Except StoreError String :=
  match item.value with
  | .string s => .ok s
  | _ => refuse (.likeOperand item.field)

def existsOperand (item : PartItem) : Except StoreError Bool :=
  match item.value with
  | .bool b => .ok b
  | _ => refuse (.existsOperand item.field)

def predicate (item : PartItem) (reference : Instant) : Except StoreError Predicate :=
  match item.op with
  | .eq => .ok (.eq item.value)
  | .neq => .ok (.neq item.value)
  | .isIn => return .isIn (← item.listOperand)
  | .notIn => return .notIn (← item.listOperand)
  | .gt => return .compare .gt (← item.comparisonOperand reference)
  | .gte => return .compare .gte (← item.comparisonOperand reference)
  | .lt => return .compare .lt (← item.comparisonOperand reference)
  | .lte => return .compare .lte (← item.comparisonOperand reference)
  | .between => do
    let (low, high) ← item.betweenOperands reference
    return .between low high
  | .like => return .like (← item.likeOperand) item.isCaseSensitive
  | .exists => return .exists (← item.existsOperand)

end PartItem

end RecordStore
