import Mathlib.Order.Defs.Unbundled
import RecordStore.Proofs.Backend.Collection
import RecordStore.Proofs.Value.Order

/-!
# Order of documents

The order by some keys is total and transitive whatever values the documents have there
(`Document.compareBy_swap`, `Document.chained_compareBy`). If the id is among the keys, it tells any
two records of a collection apart (`Collection.isStrictTotalOrder_isBefore`), so that a sorted list
of stored records stands in a strict order (`Collection.pairwise_isBefore`).
-/

namespace RecordStore

namespace Document

theorem compareBy_swap (order : List (String × SortDirection)) (a b : Value) :
    compareBy order a b = (compareBy order b a).swap := by
  induction order with
  | nil => rfl
  | cons entry rest ih =>
    obtain ⟨key, direction⟩ := entry
    have first := Value.compare_swap ((a.lookup? key).getD .null) ((b.lookup? key).getD .null)
    cases direction with
    | asc => rw [compareBy, compareBy, Ordering.swap_then, ← ih, first]
    | desc => rw [compareBy, compareBy, Ordering.swap_then, ← ih, first]

theorem chained_compareBy (order : List (String × SortDirection)) (a b c : Value) :
    Chained (compareBy order a b) (compareBy order b c) (compareBy order a c) := by
  induction order with
  | nil => exact ⟨fun _ => rfl, fun _ => rfl, fun _ => rfl⟩
  | cons entry rest ih =>
    obtain ⟨key, direction⟩ := entry
    have first := Value.chained_compare ((a.lookup? key).getD .null) ((b.lookup? key).getD .null)
      ((c.lookup? key).getD .null)
    cases direction with
    | asc => exact first.andThen ih
    | desc => exact first.swap.andThen ih

/-- Documents that compare as equal have equal values under each key. -/
theorem equal_of_compareBy {order : List (String × SortDirection)} {a b : Value}
    (h : compareBy order a b = .eq) {key : String} {direction : SortDirection}
    (hkey : (key, direction) ∈ order) :
    ((a.lookup? key).getD .null).equal ((b.lookup? key).getD .null) = true := by
  induction order with
  | nil => exact absurd hkey List.not_mem_nil
  | cons entry rest ih =>
    obtain ⟨first, way⟩ := entry
    obtain ⟨hfirst, hrest⟩ := Ordering.then_eq_eq.1 h
    rcases List.mem_cons.1 hkey with heq | hkey
    · obtain ⟨rfl, rfl⟩ := Prod.mk.inj heq
      refine (Value.compare_eq_iff _ _).1 ?_
      cases direction with
      | asc => exact hfirst
      | desc => exact Ordering.swap_eq_eq.1 hfirst
    · exact ih hrest hkey

end Document

/-! ## Orders that end with the id -/

/-- Whether the id is among some sort keys. -/
def SortKey.HaveId (keys : List SortKey) : Prop := ∃ key ∈ keys, key.target = .column .id

theorem SortKey.haveId_complete (keys : List SortKey) : HaveId (complete keys) := by
  unfold complete
  generalize (if keys.isEmpty then [⟨.column .createdAt, .desc⟩] else keys) = keys
  by_cases h : (keys.any fun key => key.target = .column .id) = true
  · obtain ⟨key, hkey, htarget⟩ := List.any_eq_true.1 h
    rw [if_pos h]
    exact ⟨key, hkey, of_decide_eq_true htarget⟩
  · rw [if_neg h]
    exact ⟨byId, List.mem_append_right _ (List.mem_singleton.2 rfl), rfl⟩

theorem SortKey.haveId_ofItems {items : List SortItem} {keys : List SortKey}
    (h : ofItems items = .ok keys) : HaveId keys := by
  obtain ⟨resolved, -, h⟩ := bind_eq_ok.1 h
  cases h
  exact haveId_complete resolved

namespace Collection

/-- Whether a record stands before another one in the order by some keys. -/
def IsBefore (keys : List SortKey) (a b : Record) : Prop :=
  Document.compareBy (SortKey.documentOrder keys) a.toValue b.toValue = .lt

variable {records : Collection} {keys : List SortKey} {a b c : Record}

theorem IsBefore.trans (hab : IsBefore keys a b) (hbc : IsBefore keys b c) : IsBefore keys a c :=
  ((Document.chained_compareBy _ _ _ _).same (Eq.trans hab hbc.symm)).trans hab

theorem IsBefore.asymm (h : IsBefore keys a b) : ¬ IsBefore keys b a := by
  intro h'
  rw [IsBefore, Document.compareBy_swap, h'] at h
  cases h

theorem id_eq_of_compareBy (hid : SortKey.HaveId keys)
    (h : Document.compareBy (SortKey.documentOrder keys) a.toValue b.toValue = .eq) :
    a.id = b.id := by
  obtain ⟨⟨target, direction⟩, hkey, rfl⟩ := hid
  have equal := Document.equal_of_compareBy h (List.mem_map_of_mem hkey)
  have value : ∀ r : Record, r.toValue.lookup? Column.id.key = some (.string r.id) := fun r => rfl
  rwa [SortKey.documentKey, value, value, Option.getD_some, Option.getD_some, Value.equal,
    beq_iff_eq] at equal

/-- In an order that ends with the id, of two records with different ids one stands before the
other. -/
theorem isBefore_or (hid : SortKey.HaveId keys) (h : a.id ≠ b.id) :
    IsBefore keys a b ∨ IsBefore keys b a := by
  unfold IsBefore
  rw [Document.compareBy_swap _ b.toValue, Ordering.swap_eq_lt]
  cases hab : Document.compareBy (SortKey.documentOrder keys) a.toValue b.toValue with
  | lt => exact .inl rfl
  | eq => exact absurd (id_eq_of_compareBy hid hab) h
  | gt => exact .inr rfl

theorem precedes_eq_isLE (order : List (String × SortDirection)) (a b : Record) :
    precedes order a b = (Document.compareBy order a.toValue b.toValue).isLE := by
  rw [precedes]
  cases Document.compareBy order a.toValue b.toValue <;> rfl

theorem pairwise_precedes (order : List (String × SortDirection)) (found : List Record) :
    (found.mergeSort (precedes order)).Pairwise fun a b => precedes order a b = true := by
  refine List.pairwise_mergeSort (fun a b c hab hbc => ?_) (fun a b => ?_) found
  · rw [precedes_eq_isLE] at hab hbc ⊢
    exact (Document.chained_compareBy order _ _ _).isLE hab hbc
  · rw [precedes_eq_isLE, precedes_eq_isLE, Document.compareBy_swap _ b.toValue]
    cases Document.compareBy order a.toValue b.toValue <;> rfl

/-- Records with different ids are sorted into a strict order. -/
theorem pairwise_isBefore (hid : SortKey.HaveId keys) {found : List Record}
    (h : found.Pairwise fun a b => a.id ≠ b.id) :
    (found.mergeSort (precedes (SortKey.documentOrder keys))).Pairwise (IsBefore keys) := by
  have distinct := (List.mergeSort_perm found
    (precedes (SortKey.documentOrder keys))).symm.pairwise h Ne.symm
  have sorted := pairwise_precedes (SortKey.documentOrder keys) found
  refine (distinct.and sorted).imp fun {a b} hab => ?_
  refine (isBefore_or hid hab.1).resolve_right fun hba => ?_
  have le := hab.2
  rw [precedes_eq_isLE, Document.compareBy_swap, hba] at le
  cases le

end Collection

end RecordStore
