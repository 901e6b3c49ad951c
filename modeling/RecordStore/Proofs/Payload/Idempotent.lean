import RecordStore.Proofs.Payload.Pathwise

/-!
# Merging the same payload again

To merge a payload once more changes nothing (`Value.merge_again`), unless arrays are appended to what
is there. The payloads are canonical: a merged payload is so too, and two canonical objects are the
same if they have the same under every key.
-/

namespace RecordStore

namespace Value

variable {way : UpdateWay} {old new : Value}

/-! ## Canonical payloads -/

theorem sorted_mergeFields {olds : Fields} (h : Keyed.Sorted olds) (news : Fields) :
    Keyed.Sorted (mergeFields way olds news) := by
  induction news with
  | nil => rwa [mergeFields]
  | cons entry news ih =>
    obtain ⟨k, v⟩ := entry
    rw [mergeFields]
    exact ih.insert k _

/-- What is merged from two values that may be missing has a property that both have and that merging
keeps. -/
theorem mergeSome_eq_some {p : Value → Prop} {a b : Option Value} {v : Value}
    (h : mergeSome way a b = some v) (ha : ∀ x, a = some x → p x) (hb : ∀ y, b = some y → p y)
    (hab : ∀ x y, a = some x → b = some y → p (mergeWith way x y)) : p v := by
  cases b with
  | none => exact ha v (by rwa [mergeSome_none] at h)
  | some y =>
    cases a with
    | none => exact hb v (by rwa [none_mergeSome] at h)
    | some x =>
      cases h
      exact hab x y rfl rfl

theorem canonical_mergeWith (hold : old.Canonical) (hnew : new.Canonical) :
    (mergeWith way old new).Canonical := by
  have apart {a b : Value} (ha : a.Canonical) (hb : b.Canonical)
      (hobject : ¬ (a.isObject ∧ b.isObject)) (harray : ¬ (a.isArray ∧ b.isArray)) :
      (mergeWith way a b).Canonical := by
    by_cases hkeep : way = .mergeButKeepArrays ∧ a.isArray
    · obtain ⟨rfl, hkept⟩ := hkeep
      rwa [mergeWith_keepArrays hkept]
    · rwa [mergeWith_eq_incoming hobject harray hkeep]
  induction new using Value.induction generalizing old with
  | leaf new harray hobject => exact apart hold hnew (by simp [hobject]) (by simp [harray])
  | array news ih =>
    cases old with
    | array olds =>
      cases way with
      | merge =>
        refine (canonicalItems_iff _).2 fun v hv => ?_
        obtain ⟨i, hi⟩ := List.mem_iff_getElem?.1 hv
        rw [getElem?_mergeItems] at hi
        refine mergeSome_eq_some hi (fun x hx => hold.item (List.mem_of_getElem? hx))
          (fun y hy => hnew.item (List.mem_of_getElem? hy)) fun x y hx hy => ?_
        exact ih y (List.mem_of_getElem? hy) (hold.item (List.mem_of_getElem? hx))
          (hnew.item (List.mem_of_getElem? hy))
      | mergeButConcatArrays =>
        refine (canonicalItems_iff _).2 fun v hv => ?_
        exact (List.mem_append.1 hv).elim hold.item hnew.item
      | mergeButKeepArrays => exact hold
      | _ => exact hnew
    | _ => exact hnew
  | object news ih =>
    cases old with
    | object olds =>
      have sorted : Keyed.Sorted (mergeFields way olds news) := sorted_mergeFields hold.1 news
      refine ⟨sorted, (canonicalFields_iff _).2 fun entry hentry => ?_⟩
      have found := (Keyed.mem_iff_get? sorted).1 hentry
      rw [get?_mergeFields] at found
      refine mergeSome_eq_some found (fun x hx => hold.field (Keyed.mem_of_get? hx))
        (fun y hy => hnew.field (Keyed.mem_of_get? hy)) fun x y hx hy => ?_
      exact ih _ (Keyed.mem_of_get? hy) (hold.field (Keyed.mem_of_get? hx))
        (hnew.field (Keyed.mem_of_get? hy))
    | _ => exact apart hold hnew (by simp [isObject]) (by simp [isArray])

theorem canonical_merge (hold : old.Canonical) (hnew : new.Canonical) :
    (old.merge way new).Canonical := by
  cases way with
  | replace => exact hnew
  | _ => exact canonical_mergeWith hold hnew

/-! ## Once more -/

theorem mergeSome_self {a : Option Value} (h : ∀ x, a = some x → mergeWith way x x = x) :
    mergeSome way a a = a := by
  cases a with
  | none => rfl
  | some x => exact congrArg some (h x rfl)

theorem mergeSome_again {a b : Option Value} (hself : ∀ y, b = some y → mergeWith way y y = y)
    (hagain : ∀ x y, a = some x → b = some y →
      mergeWith way (mergeWith way x y) y = mergeWith way x y) :
    mergeSome way (mergeSome way a b) b = mergeSome way a b := by
  cases b with
  | none => exact mergeSome_none way _
  | some y =>
    cases a with
    | none => exact congrArg some (hself y rfl)
    | some x => exact congrArg some (hagain x y rfl rfl)

theorem mergeWith_self (hway : way ≠ .mergeButConcatArrays) (h : new.Canonical) :
    mergeWith way new new = new := by
  induction new using Value.induction with
  | leaf new harray hobject =>
    exact mergeWith_eq_incoming (by simp [hobject]) (by simp [harray]) (by simp [harray])
  | array items ih =>
    cases way with
    | merge =>
      refine congrArg array (List.ext_getElem? fun i => ?_)
      rw [getElem?_mergeItems]
      exact mergeSome_self fun v hv =>
        ih v (List.mem_of_getElem? hv) (h.item (List.mem_of_getElem? hv))
    | mergeButConcatArrays => exact absurd rfl hway
    | _ => rfl
  | object fields ih =>
    rw [mergeWith]
    refine congrArg object ((sorted_mergeFields h.1 fields).ext h.1 fun k => ?_)
    rw [get?_mergeFields]
    exact mergeSome_self fun v hv =>
      ih (k, v) (Keyed.mem_of_get? hv) (h.field (Keyed.mem_of_get? hv))

theorem mergeWith_again (hway : way ≠ .mergeButConcatArrays) (hold : old.Canonical)
    (hnew : new.Canonical) :
    mergeWith way (mergeWith way old new) new = mergeWith way old new := by
  have taken {a b : Value} (hb : b.Canonical) (h : mergeWith way a b = b) :
      mergeWith way (mergeWith way a b) b = mergeWith way a b := by
    rw [h, mergeWith_self hway hb]
  by_cases hkeep : way = .mergeButKeepArrays ∧ old.isArray
  · obtain ⟨rfl, hkept⟩ := hkeep
    rw [mergeWith_keepArrays hkept, mergeWith_keepArrays hkept]
  induction new using Value.induction generalizing old with
  | leaf new harray hobject =>
    exact taken hnew (mergeWith_eq_incoming (by simp [hobject]) (by simp [harray]) hkeep)
  | array news ih =>
    cases old with
    | array olds =>
      cases way with
      | merge =>
        refine congrArg array (List.ext_getElem? fun i => ?_)
        rw [getElem?_mergeItems, getElem?_mergeItems]
        refine mergeSome_again
          (fun y hy => mergeWith_self hway (hnew.item (List.mem_of_getElem? hy))) fun x y hx hy => ?_
        exact ih y (List.mem_of_getElem? hy) (hold.item (List.mem_of_getElem? hx))
          (hnew.item (List.mem_of_getElem? hy)) (by simp)
      | mergeButConcatArrays => exact absurd rfl hway
      | mergeButKeepArrays => exact absurd ⟨rfl, rfl⟩ hkeep
      | _ => rfl
    | _ => exact taken hnew rfl
  | object news ih =>
    cases old with
    | object olds =>
      rw [mergeWith, mergeWith]
      refine congrArg object ((sorted_mergeFields (sorted_mergeFields hold.1 news) news).ext
        (sorted_mergeFields hold.1 news) fun k => ?_)
      rw [get?_mergeFields, get?_mergeFields]
      refine mergeSome_again
        (fun y hy => mergeWith_self hway (hnew.field (Keyed.mem_of_get? hy))) fun x y hx hy => ?_
      by_cases hkept : way = .mergeButKeepArrays ∧ x.isArray
      · obtain ⟨rfl, hx⟩ := hkept
        rw [mergeWith_keepArrays hx, mergeWith_keepArrays hx]
      · exact ih (k, y) (Keyed.mem_of_get? hy) (hold.field (Keyed.mem_of_get? hx))
          (hnew.field (Keyed.mem_of_get? hy)) hkept
    | _ => exact taken hnew (mergeWith_eq_incoming (by simp [isObject]) (by simp [isArray]) hkeep)

theorem merge_self (hway : way ≠ .mergeButConcatArrays) (h : new.Canonical) :
    new.merge way new = new := by
  cases way with
  | replace => rfl
  | _ => exact mergeWith_self hway h

theorem merge_again (hway : way ≠ .mergeButConcatArrays) (hold : old.Canonical)
    (hnew : new.Canonical) : (old.merge way new).merge way new = old.merge way new := by
  cases way with
  | replace => rfl
  | _ => exact mergeWith_again hway hold hnew

end Value

end RecordStore
