import RecordStore.Proofs.Document.Payload
import RecordStore.Proofs.Keyed
import RecordStore.Proofs.Payload.Merge
import RecordStore.Proofs.Value.Equality

/-!
# Merging what is there already

A value that is merged into one that it equals leaves it equal, and so does what stands at a path
(`Path.equal_read_mergeWith`). A path that is followed in a payload is read there by a query document in
the same way if none of its indices stands for a field of an object (`Path.equal_read_iff`).
-/

namespace RecordStore

namespace Value

/-! ## Equality -/

theorem null_equal_of_ne {v : Value} (h : v ≠ .null) : Value.null.equal v = false := by
  cases v with
  | null => exact absurd rfl h
  | _ => rfl

theorem keys_eq_of_equalFields : ∀ {a b : Fields}, equalFields a b = true →
    Keyed.keys a = Keyed.keys b
  | [], [], _ => rfl
  | (j, v) :: a, (k, w) :: b, h => by
    simp only [equalFields, Bool.and_eq_true, beq_iff_eq] at h
    have rest := keys_eq_of_equalFields h.2
    rw [Keyed.keys, Keyed.keys] at rest ⊢
    rw [List.map_cons, List.map_cons, rest, h.1.1]

/-! ## Merging -/

/-- Only arrays and objects are combined. -/
theorem mergeWith_eq_of_equal {way : UpdateWay} {old new : Value} (h : old.equal new = true)
    (harray : ∀ items, new ≠ .array items) (hobject : ∀ fields, new ≠ .object fields) :
    mergeWith way old new = new := by
  cases new with
  | array items => exact absurd rfl (harray items)
  | object fields => exact absurd rfl (hobject fields)
  | _ => cases old <;> first | rfl | cases h

mutual

/-- To merge a value into one that equals it leaves it equal. -/
theorem equal_mergeWith : ∀ {old new : Value}, new.Canonical → old.equal new = true →
    (mergeWith .merge old new).equal new = true
  | old, .array new, hnew, h => by
    cases old with
    | array old => exact equalItems_mergeItems hnew h
    | _ => cases h
  | old, .object new, hnew, h => by
    cases old with
    | object old =>
      have sorted : Keyed.Sorted ([] ++ old) := by
        rw [List.nil_append, Keyed.Sorted, keys_eq_of_equalFields h]
        exact hnew.1
      obtain ⟨merged, hmerged, -, hequal⟩ := equalFields_mergeFields [] sorted hnew.2 h
      rw [mergeWith, equal, ← List.nil_append old, hmerged]
      exact hequal
    | _ => cases h
  | old, .null, _, h => by
    rw [mergeWith_eq_of_equal h (by simp) (by simp)]
    rfl
  | old, .bool b, _, h => by
    rw [mergeWith_eq_of_equal h (by simp) (by simp)]
    exact equal_self _
  | old, .number n, _, h => by
    rw [mergeWith_eq_of_equal h (by simp) (by simp)]
    exact equal_self _
  | old, .string s, _, h => by
    rw [mergeWith_eq_of_equal h (by simp) (by simp)]
    exact equal_self _
termination_by structural _ new => new

theorem equalItems_mergeItems : ∀ {old new : List Value}, CanonicalItems new →
    equalItems old new = true → equalItems (mergeItems .merge old new) new = true
  | [], [], _, _ => rfl
  | a :: old, b :: new, hnew, h => by
    rw [equalItems, Bool.and_eq_true] at h
    rw [mergeItems, equalItems, equal_mergeWith hnew.1 h.1, equalItems_mergeItems hnew.2 h.2]
    rfl
termination_by structural _ new => new

/-- The fields that have not been merged yet stand behind some others. -/
theorem equalFields_mergeFields : ∀ {old new : Fields} (before : Fields),
    Keyed.Sorted (before ++ old) → CanonicalFields new → equalFields old new = true →
      ∃ merged, mergeFields .merge (before ++ old) new = before ++ merged ∧
        Keyed.keys merged = Keyed.keys old ∧ equalFields merged new = true
  | [], [], before, _, _, _ => ⟨[], rfl, rfl, rfl⟩
  | (j, a) :: old, (k, b) :: new, before, hsorted, hnew, h => by
    simp only [equalFields, Bool.and_eq_true, beq_iff_eq] at h
    obtain ⟨⟨rfl, hab⟩, hrest⟩ := h
    have split : before ++ (j, a) :: old = (before ++ [(j, a)]) ++ old := by simp
    obtain ⟨merged, hmerged, hkeys, hequal⟩ :=
      equalFields_mergeFields (before ++ [(j, a)]) (split ▸ hsorted) hnew.2 hrest
    have found : Keyed.get? j (before ++ (j, a) :: old) = some a :=
      (Keyed.mem_iff_get? hsorted).1 (List.mem_append_right _ List.mem_cons_self)
    have sorted : Keyed.Sorted (before ++ (j, a) :: merged) := by
      rw [Keyed.Sorted, Keyed.keys_append] at hsorted ⊢
      rw [Keyed.keys, Keyed.keys] at hkeys
      simpa only [Keyed.keys, List.map_cons, hkeys] using hsorted
    refine ⟨(j, mergeWith .merge a b) :: merged, ?_, ?_, ?_⟩
    · rw [mergeFields, found, split, hmerged, List.append_assoc, List.singleton_append]
      exact Keyed.insert_append_cons sorted _
    · rw [Keyed.keys, Keyed.keys] at hkeys ⊢
      rw [List.map_cons, List.map_cons, hkeys]
    · rw [equalFields, beq_self_eq_true, equal_mergeWith hnew.1 hab, hequal]
      rfl
termination_by structural _ new => new

end

end Value

/-! ## Reading at a path -/

namespace Document

theorem enter_key (name : String) (fields : Fields) :
    enter (.key name) (.object fields) = (Keyed.get? name fields).getD .null := rfl

theorem enter_index {i : Nat} (hi : i < 2 ^ 63) (items : List Value) :
    enter (.index i) (.array items) = (items[i]?).getD .null := by
  rw [enter, elementAt_natCast (Or.inl hi)]

end Document

namespace Path

/-- An index that stands for a field of an object. -/
def isFieldIndex : Segment → Value → Bool
  | .index _, .object _ => true
  | _, _ => false

/-- No index of some segments stands for a field of an object on the way into a value. -/
def indexesArrays : List Segment → Value → Bool
  | [], _ => true
  | segment :: rest, v => !isFieldIndex segment v && (step? v segment).all (indexesArrays rest)

variable {segment : Segment} {segments : List Segment} {v w old new : Value}

theorem every_of_step? {p : Value → Prop} (hv : v.Every p) (h : step? v segment = some w) :
    w.Every p := by
  cases segment with
  | wildcard => cases h
  | key name =>
    cases v with
    | object fields => exact hv.field (Keyed.mem_of_get? h)
    | _ => cases h
  | index i =>
    cases v with
    | array items => exact hv.item (List.mem_of_getElem? h)
    | object fields => exact hv.field (Keyed.mem_of_get? h)
    | _ => cases h

theorem canonical_of_step? (hv : v.Canonical) (h : step? v segment = some w) : w.Canonical := by
  cases segment with
  | wildcard => cases h
  | key name =>
    cases v with
    | object fields =>
      exact hv.field (Keyed.mem_of_get? h)
    | _ => cases h
  | index i =>
    cases v with
    | array items => exact hv.item (List.mem_of_getElem? h)
    | object fields =>
      exact hv.field (Keyed.mem_of_get? h)
    | _ => cases h

theorem enter_of_step? (harrays : v.ArraysWithin (2 ^ 63)) (hindex : isFieldIndex segment v = false)
    (h : step? v segment = some w) : Document.enter segment v = w := by
  cases segment with
  | wildcard => cases h
  | key name =>
    rw [Document.enter]
    exact congrArg (Option.getD · .null) h
  | index i =>
    cases v with
    | array items =>
      rw [Document.enter, Document.elementAt_natCast (.inr (harrays.self items rfl))]
      exact congrArg (Option.getD · .null) h
    | object fields => cases hindex
    | _ => cases h

theorem enter_of_isFieldIndex (h : isFieldIndex segment v = true) :
    Document.enter segment v = .null := by
  cases segment with
  | index i =>
    cases v with
    | object fields => rfl
    | _ => cases h
  | _ => cases h

/-- The value at a path is read there by a query document exactly if no index of the path stands for a
field of an object. -/
theorem equal_read_iff (hw : w ≠ .null) (harrays : v.ArraysWithin (2 ^ 63))
    (h : follow? segments v = some w) :
    (read Document.enter segments v).equal w = true ↔ indexesArrays segments v = true := by
  induction segments generalizing v with
  | nil =>
    cases h
    exact iff_of_true (Value.equal_self w) rfl
  | cons segment rest ih =>
    obtain ⟨x, hx, hrest⟩ := Option.bind_eq_some_iff.1 h
    have unfolded : read Document.enter (segment :: rest) v =
        read Document.enter rest (Document.enter segment v) := rfl
    rw [unfolded, indexesArrays, hx, Option.all_some]
    cases hindex : isFieldIndex segment v with
    | true =>
      rw [enter_of_isFieldIndex hindex, Document.read_null, Value.null_equal_of_ne hw,
        Bool.not_true, Bool.false_and]
    | false =>
      rw [enter_of_step? harrays hindex hx, Bool.not_false, Bool.true_and]
      exact ih (every_of_step? harrays hx) hrest

/-! ## Merging at a path -/

/-- Where a value is merged into one that has something at a step, both are merged there. -/
theorem enter_mergeWith (harrays : new.ArraysWithin (2 ^ 63))
    (hindex : isFieldIndex segment new = false) (h : step? new segment = some w)
    (hold : Document.enter segment old ≠ .null) :
    Document.enter segment (Value.mergeWith .merge old new) =
      Value.mergeWith .merge (Document.enter segment old) w := by
  cases segment with
  | wildcard => cases h
  | key name =>
    cases old with
    | object fields =>
      cases new with
      | object newFields =>
        have merged := Value.get?_mergeFields .merge name fields newFields
        rw [show Keyed.get? name newFields = some w from h] at merged
        rw [Document.enter_key] at hold ⊢
        cases hfound : Keyed.get? name fields with
        | none => exact absurd (by rw [hfound]; rfl) hold
        | some a => rw [Value.mergeWith, Document.enter_key, merged, hfound]; rfl
      | _ => cases h
    | _ => exact absurd rfl hold
  | index i =>
    cases new with
    | array items =>
      have inside : i < 2 ^ 63 :=
        Nat.lt_of_lt_of_le (List.getElem?_eq_some_iff.1 h).1 (harrays.self items rfl)
      cases old with
      | array olds =>
        rw [Document.enter_index inside] at hold ⊢
        cases hfound : olds[i]? with
        | none => exact absurd (by rw [hfound]; rfl) hold
        | some a =>
          rw [Value.mergeWith, Document.enter_index inside, Value.getElem?_mergeItems, hfound,
            show items[i]? = some w from h]
          rfl
      | _ => exact absurd rfl hold
    | object fields => cases hindex
    | _ => cases h

/-- What stands at a path both before and in what is merged stands there afterwards. -/
theorem equal_read_mergeWith (hw : w ≠ .null) (harrays : new.ArraysWithin (2 ^ 63))
    (hcanonical : new.Canonical) (hindexes : indexesArrays segments new = true)
    (hnew : follow? segments new = some w)
    (hold : (read Document.enter segments old).equal w = true) :
    (read Document.enter segments (Value.mergeWith .merge old new)).equal w = true := by
  induction segments generalizing old new with
  | nil =>
    cases hnew
    exact Value.equal_mergeWith hcanonical hold
  | cons segment rest ih =>
    obtain ⟨x, hx, hrest⟩ := Option.bind_eq_some_iff.1 hnew
    have unfolded (v : Value) : read Document.enter (segment :: rest) v =
        read Document.enter rest (Document.enter segment v) := rfl
    rw [indexesArrays, hx, Option.all_some, Bool.and_eq_true, Bool.not_eq_true'] at hindexes
    rw [unfolded] at hold
    have present : Document.enter segment old ≠ .null := by
      intro hnull
      rw [hnull, Document.read_null, Value.null_equal_of_ne hw] at hold
      cases hold
    rw [unfolded, enter_mergeWith harrays hindexes.1 hx present]
    exact ih (every_of_step? harrays hx) (canonical_of_step? hcanonical hx) hindexes.2 hrest hold

end Path

end RecordStore
