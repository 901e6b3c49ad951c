import Mathlib.Data.List.Perm.Subperm
import RecordStore.Proofs.Keyed
import RecordStore.Proofs.Value.Every
import RecordStore.Proofs.Value.Order

/-!
# Equality of values by key

Equality goes through the fields of two objects side by side. As their keys stand in order, that is
the same as to look every field of the one object up in the other (`Value.equalByKey_eq`).
-/

namespace RecordStore

/-- Of two sorted lists of one length, the one has all keys of the other only if it has no others. -/
theorem Keyed.keys_eq_of_subset {α β : Type} {entries : List (String × α)}
    {others : List (String × β)} (h : Sorted entries) (hothers : Sorted others)
    (hlength : entries.length = others.length) (hkeys : keys entries ⊆ keys others) :
    keys entries = keys others := by
  have nodup : (keys entries).Nodup := h.imp ne_of_lt
  have fits : (keys others).length ≤ (keys entries).length := by
    simp only [keys, List.length_map, hlength, Nat.le_refl]
  have perm := (List.subperm_of_subset nodup hkeys).perm_of_length_le fits
  exact perm.eq_of_pairwise (fun j k _ _ hjk hkj => absurd hkj (String.lt_asymm hjk)) h hothers

namespace Value

instance : Std.TransCmp Value.compare where
  eq_swap := compare_swap _ _
  isLE_trans := (chained_compare _ _ _).isLE

theorem equal_self (v : Value) : v.equal v = true :=
  (compare_eq_iff v v).1 Std.ReflCmp.compare_self

/-! ## Fields by key -/

mutual

/-- Equality for which the fields of an object are looked up in the other one. -/
def equalByKey : Value → Value → Bool
  | .null, .null => true
  | .bool a, .bool b => a == b
  | .number a, .number b => a.equal b
  | .string a, .string b => a == b
  | .array a, .array b => equalItemsByKey a b
  | .object a, .object b => a.length == b.length && areFieldsOf a b
  | _, _ => false
termination_by structural a => a

def equalItemsByKey : List Value → List Value → Bool
  | [], [] => true
  | a :: as, b :: bs => a.equalByKey b && equalItemsByKey as bs
  | _, _ => false
termination_by structural a => a

/-- Whether each of some fields has an equal value among others. -/
def areFieldsOf : List (String × Value) → Fields → Bool
  | [], _ => true
  | (k, v) :: rest, others =>
    (Keyed.get? k others).any (fun w => v.equalByKey w) && areFieldsOf rest others
termination_by structural fields => fields

end

theorem areFieldsOf_iff (fields others : Fields) :
    areFieldsOf fields others = true ↔
      ∀ entry ∈ fields, ∃ w, Keyed.get? entry.1 others = some w ∧ entry.2.equalByKey w = true := by
  induction fields with
  | nil => simp [areFieldsOf]
  | cons entry rest ih => simp [areFieldsOf, ih, Option.any_eq_true]

theorem keys_subset_of_areFieldsOf {fields others : Fields} (h : areFieldsOf fields others = true) :
    Keyed.keys fields ⊆ Keyed.keys others := by
  intro k hk
  obtain ⟨entry, hentry, rfl⟩ := List.mem_map.1 hk
  obtain ⟨w, hw, -⟩ := (areFieldsOf_iff fields others).1 h entry hentry
  exact Keyed.contains_iff_mem_keys.1 (Option.isSome_iff_exists.2 ⟨w, hw⟩)

/-- Another field does not matter to fields with other keys. -/
theorem areFieldsOf_cons_of_ne {fields : Fields} {k : String}
    (h : ∀ entry ∈ fields, entry.1 ≠ k) (w : Value) (others : Fields) :
    areFieldsOf fields ((k, w) :: others) = areFieldsOf fields others := by
  rw [Bool.eq_iff_iff, areFieldsOf_iff, areFieldsOf_iff]
  refine forall₂_congr fun entry hentry => ?_
  rw [Keyed.get?_cons, if_neg (h entry hentry).symm]

mutual

/-- Values whose fields stand in order are equal by key exactly if they are equal. -/
theorem equalByKey_eq : ∀ {a b : Value}, a.Canonical → b.Canonical → a.equalByKey b = a.equal b
  | .null, b, _, _ => by cases b <;> rfl
  | .bool a, b, _, _ => by cases b <;> rfl
  | .number a, b, _, _ => by cases b <;> rfl
  | .string a, b, _, _ => by cases b <;> rfl
  | .array a, b, ha, hb => by
    cases b with
    | array b => exact equalItemsByKey_eq ha hb
    | _ => rfl
  | .object a, b, ha, hb => by
    cases b with
    | object b => exact length_and_areFieldsOf_eq ha.1 ha.2 hb.1 hb.2
    | _ => rfl

theorem equalItemsByKey_eq : ∀ {a b : List Value}, CanonicalItems a → CanonicalItems b →
    equalItemsByKey a b = equalItems a b
  | [], b, _, _ => by cases b <;> rfl
  | v :: a, b, ha, hb => by
    cases b with
    | nil => rfl
    | cons w b =>
      rw [equalItemsByKey, equalItems, equalByKey_eq ha.1 hb.1, equalItemsByKey_eq ha.2 hb.2]

theorem length_and_areFieldsOf_eq : ∀ {a b : List (String × Value)}, Keyed.Sorted a →
    CanonicalFields a → Keyed.Sorted b → CanonicalFields b →
      (a.length == b.length && areFieldsOf a b) = equalFields a b
  | [], b, _, _, _, _ => by cases b <;> rfl
  | (j, v) :: a, b, hsorted, ha, hsorted', hb => by
    cases b with
    | nil => rfl
    | cons entry b =>
      obtain ⟨k, w⟩ := entry
      have rest := length_and_areFieldsOf_eq hsorted.tail ha.2 hsorted'.tail hb.2
      by_cases hjk : j = k
      · subst hjk
        have others : ∀ entry ∈ a, entry.1 ≠ j := fun entry hentry =>
          (Keyed.ne_of_lt ((Keyed.sorted_cons.1 hsorted).1 entry hentry)).symm
        rw [equalFields, ← rest, areFieldsOf, areFieldsOf_cons_of_ne others, Keyed.get?_cons,
          if_pos rfl, Option.any_some, equalByKey_eq ha.1 hb.1, List.length_cons, List.length_cons,
          beq_self_eq_true, Bool.true_and, Bool.and_left_comm]
        simp
      · -- With as many fields, each to be found in the other object, the first keys would agree.
        have differ : (j == k) = false := beq_false_of_ne hjk
        rw [equalFields, differ, Bool.false_and, Bool.false_and, Bool.eq_false_iff]
        intro h
        rw [Bool.and_eq_true, beq_iff_eq] at h
        have keys := Keyed.keys_eq_of_subset hsorted hsorted' h.1 (keys_subset_of_areFieldsOf h.2)
        exact hjk (List.cons.inj keys).1

end

end Value

end RecordStore
