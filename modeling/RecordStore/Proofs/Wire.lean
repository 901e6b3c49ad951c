import RecordStore.Proofs.Keyed
import RecordStore.Proofs.Number
import RecordStore.Wire

/-!
# Reading what has been written

One law for each kind of member of a structure: a word, a list and an optional member are read back
as they were written. A structure that is written as an object has the fields that it is read from
(`Wire.members?_object`), and a member that is left out when it is absent is looked up as it was
(`Wire.get?_present`).
-/

namespace RecordStore

namespace Wire

variable {α : Type} {read : Value → Option α} {toValue : α → Value}

/-! ## Scalars and lists -/

theorem int64?_int (word : Int64) : int64? (.int word.toInt) = some word :=
  Number.int64?_toInt word

/-- A list is read back if its items are. -/
theorem list?_array {items : List α} (h : ∀ a ∈ items, read (toValue a) = some a) :
    list? read (.array (items.map toValue)) = some items := by
  have each : (items.map toValue).mapM read = some items := by
    induction items with
    | nil => rfl
    | cons first rest ih =>
      obtain ⟨hfirst, hrest⟩ := List.forall_mem_cons.1 h
      rw [List.map_cons, List.mapM_cons, hfirst, ih hrest]
      rfl
  exact each

theorem strings?_strings (items : List String) : strings? (.strings items) = some items :=
  list?_array fun item _ => (rfl : Value.string? (.string item) = some item)

/-- What holds of whatever is read as an item holds of the items of a list. -/
theorem forall_of_list? {p : α → Prop} (h : ∀ v a, read v = some a → p a) {v : Value}
    {items : List α} (hread : list? read v = some items) : ∀ a ∈ items, p a := by
  obtain ⟨vs, -, hitems⟩ := Option.bind_eq_some_iff.1 hread
  clear hread
  induction vs generalizing items with
  | nil =>
    cases hitems
    exact List.forall_mem_nil _
  | cons v rest ih =>
    rw [List.mapM_cons] at hitems
    obtain ⟨a, ha, hitems⟩ := Option.bind_eq_some_iff.1 hitems
    obtain ⟨others, hothers, hitems⟩ := Option.bind_eq_some_iff.1 hitems
    cases hitems
    exact List.forall_mem_cons.2 ⟨h v a ha, ih hothers⟩

/-! ## Optional members -/

theorem option?_of_ne {v : Value} (h : v ≠ .null) : option? read v = (read v).map some := by
  cases v with
  | null => exact absurd rfl h
  | _ => rfl

/-- An optional member is read back if what it holds is, and does not look like a missing one. -/
theorem optional_optionValue (h : ∀ a, read (toValue a) = some a) (hnull : ∀ a, toValue a ≠ .null)
    (found : Option α) : optional read (some (optionValue toValue found)) = some found := by
  cases found with
  | none => rfl
  | some a => rw [optional, optionValue, option?_of_ne (hnull a), h, Option.map_some]

/-- A member that is left out when it is absent is read back if what it holds is, and does not look
like a missing one. -/
theorem optional_map {found : Option α}
    (h : ∀ a ∈ found, toValue a ≠ .null ∧ read (toValue a) = some a) :
    optional read (found.map toValue) = some found := by
  cases found with
  | none => rfl
  | some a =>
    obtain ⟨hnull, hread⟩ := h a rfl
    rw [Option.map_some, optional, option?_of_ne hnull, hread, Option.map_some]

/-- What is read as present is not null. -/
theorem exists_of_optional {member : Option Value} {a : α}
    (h : optional read member = some (some a)) : ∃ v, v ≠ .null ∧ read v = some a := by
  cases member with
  | none => cases h
  | some v =>
    by_cases hv : v = .null
    · subst hv
      cases h
    · rw [optional, option?_of_ne hv] at h
      obtain ⟨b, hb, hab⟩ := Option.map_eq_some_iff.1 h
      cases hab
      exact ⟨v, hv, hb⟩

/-- What holds of whatever is read as a member holds of a member that may be missing. -/
theorem forall_of_optional {p : α → Prop} (h : ∀ v a, read v = some a → p a)
    {member : Option Value} {found : Option α} (hread : optional read member = some found) :
    ∀ a ∈ found, p a := by
  rintro a rfl
  obtain ⟨v, -, hv⟩ := exists_of_optional hread
  exact h v a hv

/-- What holds of whatever is read as an item holds of the items of a list that may be missing. -/
theorem forall_of_optional_list? {p : α → Prop} (h : ∀ v a, read v = some a → p a)
    {member : Option Value} {found : Option (List α)}
    (hread : optional (list? read) member = some found) : ∀ a ∈ found.getD [], p a := by
  cases found with
  | none => exact List.forall_mem_nil _
  | some items =>
    obtain ⟨v, -, hitems⟩ := exists_of_optional hread
    exact forall_of_list? h hitems

/-! ## Structures -/

theorem get?_present (k key : String) (toValue : α → Value) (found : Option α) :
    Keyed.get? k (present key toValue found) = if key = k then found.map toValue else none := by
  cases found with
  | none => rw [present, Keyed.get?_nil, Option.map_none, ite_self]
  | some a => rw [present, Keyed.get?_cons, Keyed.get?_nil, Option.map_some]

/-- Every field has one of some names. -/
def Knows (names : List String) (fields : Fields) : Prop := ∀ field ∈ fields, field.1 ∈ names

theorem knows_append {names : List String} {fields others : Fields} :
    Knows names (fields ++ others) ↔ Knows names fields ∧ Knows names others :=
  List.forall_mem_append

theorem knows_present {names : List String} {key : String} (h : key ∈ names)
    (toValue : α → Value) (found : Option α) : Knows names (present key toValue found) := by
  cases found with
  | none => exact List.forall_mem_nil _
  | some a => exact List.forall_mem_singleton.2 h

/-- Fields that are all known make a structure, closed or not. -/
theorem members?_object {names : List String} {fields : Fields} (h : Knows names fields)
    (closed : Bool) :
    members? names closed (.object fields) = some fun name => Keyed.get? name fields := by
  have all : fields.all (fun field => names.contains field.1) = true :=
    List.all_eq_true.2 fun field hfield => List.contains_iff_mem.2 (h field hfield)
  rw [members?, all, Bool.not_true, Bool.and_false, if_neg Bool.false_ne_true]

/-- A required member that no field has cannot be read. -/
theorem required_get?_none {key : String} {fields : Fields} (h : ∀ field ∈ fields, field.1 ≠ key) :
    required read (Keyed.get? key fields) = none := by
  rw [Keyed.get?_eq_none_iff.2 h, required]

end Wire

end RecordStore
