import RecordStore.Proofs.Keyed
import RecordStore.Value

/-!
# Properties of all values inside a value

`Value.Every p v` says that `v` and all values inside it have a property. Nothing is said about the
keys of objects but what `p` says of the objects.
-/

namespace RecordStore

namespace Value

/-- What holds of a value that is neither an array nor an object, of an array if it holds of the
elements and of an object if it holds of the field values, holds of all values. -/
@[elab_as_elim]
theorem induction {motive : Value → Prop}
    (leaf : ∀ v, v.isArray = false → v.isObject = false → motive v)
    (array : ∀ items, (∀ v ∈ items, motive v) → motive (.array items))
    (object : ∀ fields, (∀ entry ∈ fields, motive entry.2) → motive (.object fields)) (v : Value) :
    motive v :=
  @Value.rec motive (fun items => ∀ v ∈ items, motive v) (fun fields => ∀ entry ∈ fields, motive entry.2)
    (fun entry => motive entry.2) (leaf .null rfl rfl) (fun b => leaf (.bool b) rfl rfl)
    (fun n => leaf (.number n) rfl rfl) (fun s => leaf (.string s) rfl rfl) array object nofun
    (fun _ _ head tail => List.forall_mem_cons.2 ⟨head, tail⟩) nofun
    (fun _ _ head tail => List.forall_mem_cons.2 ⟨head, tail⟩) (fun _ _ h => h) v

mutual

/-- A value and all values inside it have a property. -/
def Every (p : Value → Prop) : Value → Prop
  | .array items => p (.array items) ∧ EveryItem p items
  | .object fields => p (.object fields) ∧ EveryField p fields
  | v => p v
termination_by structural v => v

/-- All elements, and all values inside them, have a property. -/
def EveryItem (p : Value → Prop) : List Value → Prop
  | [] => True
  | v :: rest => v.Every p ∧ EveryItem p rest
termination_by structural items => items

/-- All field values, and all values inside them, have a property. -/
def EveryField (p : Value → Prop) : List (String × Value) → Prop
  | [] => True
  | (_, v) :: rest => v.Every p ∧ EveryField p rest
termination_by structural fields => fields

end

variable {p : Value → Prop}

theorem everyItem_iff (items : List Value) : EveryItem p items ↔ ∀ v ∈ items, v.Every p := by
  induction items with
  | nil => simp [EveryItem]
  | cons v rest ih => simp [EveryItem, ih]

theorem everyField_iff (fields : Fields) :
    EveryField p fields ↔ ∀ entry ∈ fields, entry.2.Every p := by
  induction fields with
  | nil => simp [EveryField]
  | cons entry rest ih => simp [EveryField, ih]

theorem Every.self {v : Value} (h : v.Every p) : p v := by
  cases v with
  | array items => exact h.1
  | object fields => exact h.1
  | _ => exact h

theorem Every.item {items : List Value} (h : (Value.array items).Every p) {v : Value}
    (hv : v ∈ items) : v.Every p :=
  (everyItem_iff items).1 h.2 v hv

theorem Every.field {fields : Fields} (h : (Value.object fields).Every p) {entry : String × Value}
    (hentry : entry ∈ fields) : entry.2.Every p :=
  (everyField_iff fields).1 h.2 entry hentry

theorem Canonical.item {items : List Value} (h : (Value.array items).Canonical) {v : Value}
    (hv : v ∈ items) : v.Canonical :=
  (canonicalItems_iff items).1 h v hv

theorem Canonical.field {fields : Fields} (h : (Value.object fields).Canonical)
    {entry : String × Value} (hentry : entry ∈ fields) : entry.2.Canonical :=
  (canonicalFields_iff fields).1 h.2 entry hentry

/-- Every key of an object inside a value has a property. -/
def EveryKey (p : String → Prop) : Value → Prop :=
  Every fun v => ∀ fields, v = .object fields → ∀ entry ∈ fields, p entry.1

section

variable {q : String → Prop}

theorem EveryKey.key {fields : Fields} (h : (Value.object fields).EveryKey q)
    {entry : String × Value} (hentry : entry ∈ fields) : q entry.1 :=
  Every.self h fields rfl entry hentry

theorem EveryKey.item {items : List Value} (h : (Value.array items).EveryKey q) {v : Value}
    (hv : v ∈ items) : v.EveryKey q :=
  Every.item h hv

theorem EveryKey.field {fields : Fields} (h : (Value.object fields).EveryKey q)
    {entry : String × Value} (hentry : entry ∈ fields) : entry.2.EveryKey q :=
  Every.field h hentry

end

/-- Every array inside a value has at most so many elements. -/
def ArraysWithin (limit : Nat) : Value → Prop :=
  Every fun v => ∀ items, v = .array items → items.length ≤ limit

/-! ## Levels -/

/-- An array in an array, some levels down. -/
def nested : Nat → Value
  | 0 => .null
  | n + 1 => .array [nested n]

theorem depth_nested (n : Nat) : (nested n).depth = n := by
  induction n with
  | zero => rfl
  | succ n ih => rw [nested, depth, depthOfItems, depthOfItems, ih, Nat.max_zero]

theorem canonical_nested (n : Nat) : (nested n).Canonical := by
  induction n with
  | zero => trivial
  | succ n ih => exact ⟨ih, trivial⟩

end Value

end RecordStore
