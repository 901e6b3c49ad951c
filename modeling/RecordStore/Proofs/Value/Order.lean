import RecordStore.Value.Order

/-!
# Order and equality of values

The order and the equality of values agree: two values compare as equal exactly if they are equal up
to the form of numbers (`Value.compare_eq_iff`). The order is total whatever the kinds are, and
transitive (`Value.compare_swap`, `Value.chained_compare`).
-/

namespace RecordStore

/-! ## Chains of comparisons -/

/-- How a first and a third thing compare if each is compared with a second one between them. -/
structure Chained (ab bc ac : Ordering) : Prop where
  left : ab = .eq → ac = bc
  right : bc = .eq → ac = ab
  same : ab = bc → ac = ab

namespace Chained

variable {ab bc ac ab' bc' ac' : Ordering}

theorem then_of_ne {o : Ordering} (h : o ≠ .eq) (o' : Ordering) : o.then o' = o := by
  cases o with
  | eq => exact absurd rfl h
  | _ => rfl

/-- Comparisons that only decide where others leave it open can be chained with these. -/
theorem andThen (h : Chained ab bc ac) (h' : Chained ab' bc' ac') :
    Chained (ab.then ab') (bc.then bc') (ac.then ac') := by
  refine ⟨fun heq => ?_, fun heq => ?_, fun heq => ?_⟩
  · obtain ⟨hab, hab'⟩ := Ordering.then_eq_eq.1 heq
    rw [h.left hab, h'.left hab']
  · obtain ⟨hbc, hbc'⟩ := Ordering.then_eq_eq.1 heq
    rw [h.right hbc, h'.right hbc']
  · by_cases hab : ab = .eq
    · by_cases hbc : bc = .eq
      · rw [hab, hbc] at heq
        rw [h.right hbc, hab]
        exact h'.same heq
      · rw [heq, h.left hab, then_of_ne hbc, then_of_ne hbc]
    · by_cases hbc : bc = .eq
      · rw [h.right hbc, then_of_ne hab, then_of_ne hab]
      · rw [then_of_ne hab, then_of_ne hbc] at heq
        rw [h.same heq, then_of_ne hab, then_of_ne hab]

theorem swap (h : Chained ab bc ac) : Chained ab.swap bc.swap ac.swap := by
  refine ⟨fun heq => ?_, fun heq => ?_, fun heq => ?_⟩
  · rw [h.left (Ordering.swap_eq_eq.1 heq)]
  · rw [h.right (Ordering.swap_eq_eq.1 heq)]
  · rw [h.same (Ordering.swap_inj.1 heq)]

theorem of_left_ne (h : ab ≠ .eq) : Chained ab bc ab :=
  ⟨fun heq => absurd heq h, fun _ => rfl, fun _ => rfl⟩

theorem of_right_ne (h : bc ≠ .eq) : Chained ab bc bc :=
  ⟨fun _ => rfl, fun heq => absurd heq h, fun heq => heq.symm⟩

theorem of_transOrd {α : Type} [Ord α] [Std.TransOrd α] (a b c : α) :
    Chained (compare a b) (compare b c) (compare a c) := by
  refine ⟨Std.TransCmp.congr_left, fun h => (Std.TransCmp.congr_right h).symm, fun h => ?_⟩
  cases hab : compare a b with
  | lt => exact Std.TransCmp.lt_trans hab (h ▸ hab)
  | eq => exact Std.TransCmp.eq_trans hab (h ▸ hab)
  | gt => exact Std.TransCmp.gt_trans hab (h ▸ hab)

theorem isLE (h : Chained ab bc ac) (hab : ab.isLE) (hbc : bc.isLE) : ac.isLE := by
  cases ab with
  | gt => cases hab
  | eq => rwa [h.left rfl]
  | lt =>
    cases bc with
    | gt => cases hbc
    | eq => rwa [h.right rfl]
    | lt => rwa [h.same rfl]

end Chained

/-! ## Equality -/

theorem Double.compare_eq_iff (a b : Double) : a.compare b = .eq ↔ a.equal b = true := by
  simp [Double.compare, Double.equal]

theorem Number.compare_eq_iff (a b : Number) : a.compare b = .eq ↔ a.equal b = true :=
  Double.compare_eq_iff _ _

namespace Value

mutual

/-- Values compare as equal if and only if they are equal. -/
theorem compare_eq_iff : ∀ a b : Value, a.compare b = .eq ↔ a.equal b = true
  | .null, b => by cases b <;> simp [Value.compare, equal, kindRank]
  | .bool a, b => by cases b <;> simp [Value.compare, equal, kindRank]
  | .number a, b => by
    cases b <;> simp [Value.compare, equal, kindRank, Number.compare_eq_iff]
  | .string a, b => by cases b <;> simp [Value.compare, equal, kindRank]
  | .array a, b => by
    cases b with
    | array b => simpa [Value.compare, equal] using compareItems_eq_iff a b
    | _ => simp [Value.compare, equal, kindRank]
  | .object a, b => by
    cases b with
    | object b => simpa [Value.compare, equal] using compareFields_eq_iff a b
    | _ => simp [Value.compare, equal, kindRank]

theorem compareItems_eq_iff : ∀ a b : List Value, compareItems a b = .eq ↔ equalItems a b = true
  | [], b => by cases b <;> simp [compareItems, equalItems]
  | a :: as, b => by
    cases b with
    | nil => simp [compareItems, equalItems]
    | cons b bs =>
      simp [compareItems, equalItems, Ordering.then_eq_eq, compare_eq_iff a b,
        compareItems_eq_iff as bs]

theorem compareFields_eq_iff :
    ∀ a b : List (String × Value), compareFields a b = .eq ↔ equalFields a b = true
  | [], b => by cases b <;> simp [compareFields, equalFields]
  | (j, a) :: as, b => by
    cases b with
    | nil => simp [compareFields, equalFields]
    | cons entry bs =>
      obtain ⟨k, b⟩ := entry
      simp [compareFields, equalFields, Ordering.then_eq_eq, compare_eq_iff a b,
        compareFields_eq_iff as bs, and_comm]

end

theorem equal_eq_compare (a b : Value) : a.equal b = (a.compare b == .eq) := by
  rw [Bool.eq_iff_iff, beq_iff_eq, compare_eq_iff]

/-! ## Totality -/

/-- Values of different kinds are ordered by kind. -/
theorem compare_of_kindRank_ne {a b : Value} (h : a.kindRank ≠ b.kindRank) :
    a.compare b = Ord.compare a.kindRank b.kindRank := by
  cases a <;> cases b <;> first | rfl | exact absurd rfl h

mutual

theorem compare_swap : ∀ a b : Value, a.compare b = (b.compare a).swap
  | .null, b => by cases b <;> rfl
  | .bool a, b => by
    cases b with
    | bool b => exact Std.OrientedOrd.eq_swap
    | _ => rfl
  | .number a, b => by
    cases b with
    | number b => exact Std.OrientedOrd.eq_swap
    | _ => rfl
  | .string a, b => by
    cases b with
    | string b => exact Std.OrientedOrd.eq_swap
    | _ => rfl
  | .array a, b => by
    cases b with
    | array b => exact compareItems_swap a b
    | _ => rfl
  | .object a, b => by
    cases b with
    | object b => exact compareFields_swap a b
    | _ => rfl

theorem compareItems_swap : ∀ a b : List Value, compareItems a b = (compareItems b a).swap
  | [], b => by cases b <;> rfl
  | a :: as, b => by
    cases b with
    | nil => rfl
    | cons b bs =>
      rw [compareItems, compareItems, Ordering.swap_then, compare_swap a b, compareItems_swap as bs]

theorem compareFields_swap :
    ∀ a b : List (String × Value), compareFields a b = (compareFields b a).swap
  | [], b => by cases b <;> rfl
  | (j, a) :: as, b => by
    cases b with
    | nil => rfl
    | cons entry bs =>
      obtain ⟨k, b⟩ := entry
      have keys : Ord.compare j k = (Ord.compare k j).swap := Std.OrientedCmp.eq_swap
      rw [compareFields, compareFields, Ordering.swap_then, Ordering.swap_then, compare_swap a b,
        keys, compareFields_swap as bs]

end

/-! ## Transitivity -/

theorem chained_compare_of_kindRank_ne {a b c : Value}
    (h : a.kindRank ≠ b.kindRank ∨ b.kindRank ≠ c.kindRank) :
    Chained (a.compare b) (b.compare c) (a.compare c) := by
  have ne_eq : ∀ {a b : Value}, a.kindRank ≠ b.kindRank → a.compare b ≠ .eq := fun hne heq =>
    hne (Nat.compare_eq_eq.1 ((compare_of_kindRank_ne hne).symm.trans heq))
  by_cases hab : a.kindRank = b.kindRank
  · have hbc : b.kindRank ≠ c.kindRank := h.resolve_left (not_not_intro hab)
    have hac : a.kindRank ≠ c.kindRank := hab ▸ hbc
    have same : a.compare c = b.compare c := by
      rw [compare_of_kindRank_ne hac, compare_of_kindRank_ne hbc, hab]
    rw [same]
    exact Chained.of_right_ne (ne_eq hbc)
  · by_cases hbc : b.kindRank = c.kindRank
    · have hac : a.kindRank ≠ c.kindRank := hbc ▸ hab
      have same : a.compare c = a.compare b := by
        rw [compare_of_kindRank_ne hac, compare_of_kindRank_ne hab, hbc]
      rw [same]
      exact Chained.of_left_ne (ne_eq hab)
    · refine ⟨fun heq => absurd heq (ne_eq hab), fun heq => absurd heq (ne_eq hbc), fun heq => ?_⟩
      rw [compare_of_kindRank_ne hab, compare_of_kindRank_ne hbc] at heq
      have chained := Chained.of_transOrd a.kindRank b.kindRank c.kindRank
      have hac : a.kindRank ≠ c.kindRank := fun hac => by
        have eq : Ord.compare a.kindRank c.kindRank = .eq := Nat.compare_eq_eq.2 hac
        exact hab (Nat.compare_eq_eq.1 ((chained.same heq).symm.trans eq))
      rw [compare_of_kindRank_ne hac, compare_of_kindRank_ne hab]
      exact chained.same heq

mutual

/-- How two values compare follows from those with a value between them. -/
theorem chained_compare :
    ∀ a b c : Value, Chained (a.compare b) (b.compare c) (a.compare c)
  | .null, b, c => by
    cases b with
    | null =>
      cases c with
      | null => exact ⟨fun _ => rfl, fun _ => rfl, fun _ => rfl⟩
      | _ => exact chained_compare_of_kindRank_ne (.inr (by simp [kindRank]))
    | _ => exact chained_compare_of_kindRank_ne (.inl (by simp [kindRank]))
  | .bool a, b, c => by
    cases b with
    | bool b =>
      cases c with
      | bool c => exact Chained.of_transOrd a b c
      | _ => exact chained_compare_of_kindRank_ne (.inr (by simp [kindRank]))
    | _ => exact chained_compare_of_kindRank_ne (.inl (by simp [kindRank]))
  | .number a, b, c => by
    cases b with
    | number b =>
      cases c with
      | number c =>
        exact Chained.of_transOrd a.toDouble.signed b.toDouble.signed
          c.toDouble.signed
      | _ => exact chained_compare_of_kindRank_ne (.inr (by simp [kindRank]))
    | _ => exact chained_compare_of_kindRank_ne (.inl (by simp [kindRank]))
  | .string a, b, c => by
    cases b with
    | string b =>
      cases c with
      | string c => exact Chained.of_transOrd a b c
      | _ => exact chained_compare_of_kindRank_ne (.inr (by simp [kindRank]))
    | _ => exact chained_compare_of_kindRank_ne (.inl (by simp [kindRank]))
  | .array a, b, c => by
    cases b with
    | array b =>
      cases c with
      | array c => exact chained_compareItems a b c
      | _ => exact chained_compare_of_kindRank_ne (.inr (by simp [kindRank]))
    | _ => exact chained_compare_of_kindRank_ne (.inl (by simp [kindRank]))
  | .object a, b, c => by
    cases b with
    | object b =>
      cases c with
      | object c => exact chained_compareFields a b c
      | _ => exact chained_compare_of_kindRank_ne (.inr (by simp [kindRank]))
    | _ => exact chained_compare_of_kindRank_ne (.inl (by simp [kindRank]))

theorem chained_compareItems :
    ∀ a b c : List Value, Chained (compareItems a b) (compareItems b c) (compareItems a c)
  | [], b, c => by
    cases b with
    | nil =>
      cases c with
      | nil => exact ⟨fun _ => rfl, fun _ => rfl, fun _ => rfl⟩
      | cons c cs => exact Chained.of_right_ne nofun
    | cons b bs =>
      cases c with
      | nil => exact ⟨nofun, nofun, nofun⟩
      | cons c cs => exact Chained.of_left_ne nofun
  | a :: as, b, c => by
    cases b with
    | nil =>
      cases c with
      | nil => exact Chained.of_left_ne nofun
      | cons c cs => exact ⟨nofun, nofun, nofun⟩
    | cons b bs =>
      cases c with
      | nil => exact Chained.of_right_ne nofun
      | cons c cs => exact (chained_compare a b c).andThen (chained_compareItems as bs cs)

theorem chained_compareFields : ∀ a b c : List (String × Value),
    Chained (compareFields a b) (compareFields b c) (compareFields a c)
  | [], b, c => by
    cases b with
    | nil =>
      cases c with
      | nil => exact ⟨fun _ => rfl, fun _ => rfl, fun _ => rfl⟩
      | cons c cs => exact Chained.of_right_ne nofun
    | cons b bs =>
      cases c with
      | nil => exact ⟨nofun, nofun, nofun⟩
      | cons c cs => exact Chained.of_left_ne nofun
  | (j, a) :: as, b, c => by
    cases b with
    | nil =>
      cases c with
      | nil => exact Chained.of_left_ne nofun
      | cons c cs => exact ⟨nofun, nofun, nofun⟩
    | cons entry bs =>
      obtain ⟨k, b⟩ := entry
      cases c with
      | nil => exact Chained.of_right_ne nofun
      | cons entry cs =>
        obtain ⟨l, c⟩ := entry
        have keys := Chained.of_transOrd j k l
        exact ((chained_compare a b c).andThen keys).andThen (chained_compareFields as bs cs)

end

end Value

end RecordStore
