/-!
# Lists in pieces

`pieces` cuts a list into pieces of one length, of which the last may be shorter, for what is done
with a few items at a time.
-/

namespace RecordStore

def pieces {α : Type} (size : Nat) : (items : List α) → List (List α)
  | [] => []
  | item :: rest => (item :: rest.take (size - 1)) :: pieces size (rest.drop (size - 1))
termination_by items => items.length
decreasing_by simp only [List.length_drop, List.length_cons]; omega

/-- Cutting a list into pieces loses nothing. -/
theorem flatten_pieces {α : Type} (size : Nat) (items : List α) :
    (pieces size items).flatten = items := by
  fun_induction pieces size items with
  | case1 => rfl
  | case2 item rest ih =>
    rw [List.flatten_cons, ih, List.cons_append, List.take_append_drop]

/-- The items of a list are those of its pieces. -/
theorem exists_mem_pieces {α : Type} (size : Nat) (items : List α) {a : α} :
    (∃ piece ∈ pieces size items, a ∈ piece) ↔ a ∈ items := by
  rw [← List.mem_flatten, flatten_pieces]

/-- The first pieces of a list are the pieces of its first items. -/
theorem take_pieces {α : Type} {size : Nat} (hsize : size ≠ 0) (items : List α) (n : Nat) :
    (pieces size items).take n = pieces size (items.take (n * size)) := by
  induction n generalizing items with
  | zero => rw [Nat.zero_mul, List.take_zero, List.take_zero, pieces]
  | succ n ih =>
    cases items with
    | nil => rw [List.take_nil, pieces, List.take_nil]
    | cons item rest =>
      obtain ⟨m, hm⟩ : ∃ m, (n + 1) * size = m + 1 ∧ m = n * size + (size - 1) :=
        ⟨n * size + (size - 1), by rw [Nat.succ_mul]; omega, rfl⟩
      have first : (rest.take m).take (size - 1) = rest.take (size - 1) := by
        rw [List.take_take, Nat.min_eq_left (by omega)]
      have others : (rest.take m).drop (size - 1) = (rest.drop (size - 1)).take (n * size) := by
        rw [List.drop_take, hm.2, Nat.add_sub_cancel]
      rw [pieces, List.take_succ_cons, ih, hm.1, List.take_succ_cons, pieces, first, others]

end RecordStore
