import RecordStore.Value

/-!
# Order and equality of values

Values of different kinds are ordered by kind: null, numbers, strings, objects, arrays, booleans.
Within a kind numbers compare as doubles, strings by code point, arrays element by element and
objects field by field, where the value of a field counts before its key; a proper initial part is
smaller. `Value.equal` is the equality that goes with this order: `1` equals `1.0`.
-/

namespace RecordStore

namespace Value

/-- The place of a value's kind in the order of kinds. -/
def kindRank : Value → Nat
  | .null => 0
  | .number _ => 1
  | .string _ => 2
  | .object _ => 3
  | .array _ => 4
  | .bool _ => 5

mutual

protected def compare : Value → Value → Ordering
  | .number a, .number b => a.compare b
  | .string a, .string b => Ord.compare a b
  | .bool a, .bool b => Ord.compare a b
  | .array a, .array b => compareItems a b
  | .object a, .object b => compareFields a b
  | a, b => Ord.compare a.kindRank b.kindRank
termination_by structural a => a

def compareItems : List Value → List Value → Ordering
  | [], [] => .eq
  | [], _ :: _ => .lt
  | _ :: _, [] => .gt
  | a :: as, b :: bs => (a.compare b).then (compareItems as bs)
termination_by structural a => a

def compareFields : List (String × Value) → List (String × Value) → Ordering
  | [], [] => .eq
  | [], _ :: _ => .lt
  | _ :: _, [] => .gt
  | (j, a) :: as, (k, b) :: bs =>
    ((a.compare b).then (Ord.compare j k)).then (compareFields as bs)
termination_by structural a => a

end

mutual

def equal : Value → Value → Bool
  | .null, .null => true
  | .bool a, .bool b => a == b
  | .number a, .number b => a.equal b
  | .string a, .string b => a == b
  | .array a, .array b => equalItems a b
  | .object a, .object b => equalFields a b
  | _, _ => false
termination_by structural a => a

def equalItems : List Value → List Value → Bool
  | [], [] => true
  | a :: as, b :: bs => a.equal b && equalItems as bs
  | _, _ => false
termination_by structural a => a

def equalFields : List (String × Value) → List (String × Value) → Bool
  | [], [] => true
  | (j, a) :: as, (k, b) :: bs => j == k && a.equal b && equalFields as bs
  | _, _ => false
termination_by structural a => a

end

end Value

end RecordStore
