import Mathlib.Data.List.Basic

/-!
# Stable sorting

A list is sorted stably if the items that compare as equal stay in the sequence in which they stood.
By a total preorder there is one way to do so, and merge sort finds it (`isStableSort_iff`).
-/

namespace RecordStore

variable {α : Type} {cmp : α → α → Ordering} {items sorted other : List α}

/-- The items in order, in which those that compare as equal to an item stand as they stood. -/
structure IsStableSort (cmp : α → α → Ordering) (items sorted : List α) : Prop where
  perm : sorted.Perm items
  ordered : sorted.Pairwise fun a b => (cmp a b).isLE = true
  stable : ∀ a, sorted.filter (fun b => cmp a b == .eq) = items.filter fun b => cmp a b == .eq

variable [Std.TransCmp cmp]

theorem isLE_total (a b : α) : ((cmp a b).isLE || (cmp b a).isLE) = true := by
  have swap : cmp b a = (cmp a b).swap := Std.OrientedCmp.eq_swap
  rw [swap]
  cases cmp a b <;> rfl

theorem isStableSort_mergeSort (items : List α) :
    IsStableSort cmp items (items.mergeSort fun a b => (cmp a b).isLE) := by
  have trans : ∀ a b c, (cmp a b).isLE = true → (cmp b c).isLE = true → (cmp a c).isLE = true :=
    fun a b c => Std.TransCmp.isLE_trans
  have total : ∀ a b, ((cmp a b).isLE || (cmp b a).isLE) = true := isLE_total
  have perm := List.mergeSort_perm items fun a b => (cmp a b).isLE
  refine ⟨perm, List.pairwise_mergeSort trans total items, fun a => ?_⟩
  -- The items that are equal to one of them are in order already, so merging keeps them.
  have ordered : (items.filter fun b => cmp a b == .eq).Pairwise fun b c => (cmp b c).isLE = true := by
    refine List.pairwise_of_forall_mem_list fun b hb c hc => ?_
    have hab : cmp a b = .eq := beq_iff_eq.1 (List.mem_filter.1 hb).2
    have hac : cmp a c = .eq := beq_iff_eq.1 (List.mem_filter.1 hc).2
    rw [Std.TransCmp.eq_trans (Std.OrientedCmp.eq_symm hab) hac]
    rfl
  have kept := (List.sublist_mergeSort trans total ordered List.filter_sublist).filter
    fun b => cmp a b == .eq
  simp only [List.filter_filter, Bool.and_self] at kept
  exact (kept.eq_of_length (perm.filter _).length_eq.symm).symm

/-- The first item of a sorted list is at most as large as any item of it. -/
theorem isLE_of_mem_cons {a b : α} {rest : List α}
    (h : (a :: rest).Pairwise fun a b => (cmp a b).isLE = true) (hb : b ∈ a :: rest) :
    (cmp a b).isLE = true := by
  rcases List.mem_cons.1 hb with rfl | hb
  · have self : cmp b b = .eq := Std.ReflCmp.compare_self
    rw [self]
    rfl
  · exact (List.pairwise_cons.1 h).1 b hb

/-- Lists that agree on the items that are equal to any one have the same items. -/
theorem mem_iff_of_filter_eq
    (h : ∀ a, sorted.filter (fun b => cmp a b == .eq) = other.filter fun b => cmp a b == .eq)
    (a : α) : a ∈ sorted ↔ a ∈ other := by
  have equal : (cmp a a == .eq) = true := beq_iff_eq.2 Std.ReflCmp.compare_self
  have mem := congrArg (a ∈ ·) (h a)
  simpa only [List.mem_filter, equal, and_true, eq_iff_iff] using mem

/-- Such lists are the same if both are in order. -/
theorem eq_of_filter_eq (hsorted : sorted.Pairwise fun a b => (cmp a b).isLE = true)
    (hother : other.Pairwise fun a b => (cmp a b).isLE = true)
    (h : ∀ a, sorted.filter (fun b => cmp a b == .eq) = other.filter fun b => cmp a b == .eq) :
    sorted = other := by
  induction sorted generalizing other with
  | nil => exact (List.eq_nil_iff_forall_not_mem.2 fun a ha =>
      List.not_mem_nil ((mem_iff_of_filter_eq h a).2 ha)).symm
  | cons a rest ih =>
    cases other with
    | nil => exact absurd ((mem_iff_of_filter_eq h a).1 List.mem_cons_self) List.not_mem_nil
    | cons b others =>
      have hab := isLE_of_mem_cons hsorted ((mem_iff_of_filter_eq h b).2 List.mem_cons_self)
      have hba := isLE_of_mem_cons hother ((mem_iff_of_filter_eq h a).1 List.mem_cons_self)
      have equal : cmp a b = .eq := Std.OrientedCmp.isLE_antisymm hab hba
      have self : cmp a a = .eq := Std.ReflCmp.compare_self
      have heads := h a
      rw [List.filter_cons_of_pos (by simp [self]), List.filter_cons_of_pos (by simp [equal])]
        at heads
      obtain rfl := (List.cons.inj heads).1
      refine congrArg (a :: ·) (ih (List.pairwise_cons.1 hsorted).2 (List.pairwise_cons.1 hother).2
        fun c => ?_)
      have both := h c
      rw [List.filter_cons, List.filter_cons] at both
      split at both
      · exact (List.cons.inj both).2
      · exact both

/-- Merge sort sorts stably, and nothing else does. -/
theorem isStableSort_iff :
    IsStableSort cmp items sorted ↔ sorted = items.mergeSort fun a b => (cmp a b).isLE := by
  constructor
  · intro h
    have merged : IsStableSort cmp items _ := isStableSort_mergeSort items
    exact eq_of_filter_eq h.ordered merged.ordered fun a => (h.stable a).trans (merged.stable a).symm
  · rintro rfl
    exact isStableSort_mergeSort items

end RecordStore
