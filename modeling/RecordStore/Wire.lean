import RecordStore.Value

/-!
# The wire format

Domain types are exchanged as values: each has a `toValue` and a reader `ofValue?`, built from the
readers here. A structure may be given as an object or as the array of its members in order; a
closed structure refuses keys that it does not know. Optional members may be absent or null, members
with a default may be absent. An enumeration is given by the name of one of its variants.
-/

namespace RecordStore

namespace Wire

/-! ## Scalars and lists -/

/-- A signed 64-bit integer; no double is one. -/
def int64? (v : Value) : Option Int64 := v.number?.bind Number.int64?

/-- An unsigned 64-bit integer; no double is one. -/
def uint64? (v : Value) : Option UInt64 := v.number?.bind Number.uint64?

/-- A natural number below a limit; no double is one. -/
def nat? (limit : Nat) (v : Value) : Option Nat :=
  match v.number? with
  | some (.int n) => if 0 ≤ n ∧ n < limit then some n.toNat else none
  | _ => none

/-- A size of up to 64 bits. -/
def size? (v : Value) : Option Nat := nat? (2 ^ 64) v

/-- A binary64 number, which is finite where it is read. -/
def float? (v : Value) : Option Float64 := v.number?.map fun n => .finite n.toDouble

/-- A list of things that `item` reads. -/
def list? {α : Type} (item : Value → Option α) (v : Value) : Option (List α) :=
  v.items?.bind (List.mapM item)

def strings? (v : Value) : Option (List String) := list? Value.string? v

/-- Null, or something that `item` reads. -/
def option? {α : Type} (item : Value → Option α) : Value → Option (Option α)
  | .null => some none
  | v => (item v).map some

/-- An optional thing, null if absent. -/
def optionValue {α : Type} (toValue : α → Value) : Option α → Value
  | some a => toValue a
  | none => .null

/-! ## Enumerations -/

/-- A variant by its name, which may also be the one key of an object with the value null. -/
def variant? {α : Type} (variants : List (String × α)) : Value → Option α
  | .string name => Keyed.get? name variants
  | .object [(name, .null)] => Keyed.get? name variants
  | _ => none

/-! ## Structures -/

def members? (names : List String) (closed : Bool) : Value → Option (String → Option Value)
  | .object fields =>
    if closed && !(fields.all fun field => names.contains field.1) then none
    else some fun name => Keyed.get? name fields
  | .array items =>
    if items.length ≤ names.length then some fun name => items[names.idxOf name]? else none
  | _ => none

def required {α : Type} (read : Value → Option α) : Option Value → Option α
  | some v => read v
  | none => none

/-- A member that may be absent or null. -/
def optional {α : Type} (read : Value → Option α) : Option Value → Option (Option α)
  | some v => option? read v
  | none => some none

/-- A member that may be absent but not null. -/
def defaulted {α β : Type} (default : α) (read : β → Option α) : Option β → Option α
  | some v => read v
  | none => some default

/-- The field of a member that is left out when it is absent. -/
def present {α : Type} (key : String) (toValue : α → Value) : Option α → Fields
  | some a => [(key, toValue a)]
  | none => []

end Wire

end RecordStore
