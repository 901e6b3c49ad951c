import RecordStore.Proofs.Catalog.Growth

/-!
# Descriptors that are folded again

A row that has learned a descriptor learns nothing when the descriptor is folded in again
(`FieldRow.Absorbs`), however many others have come between. Therefore repeated descriptors may be
left out (`FieldRow.foldAll_eraseDups`), and to fold descriptors in a second time changes the time of
the update only (`FieldRow.foldAll_again`).
-/

namespace RecordStore

/-! ## Lists without repetitions -/

/-- Induction along the first occurrences of the items of a list. -/
@[elab_as_elim]
theorem eraseDups_induction {α : Type} [BEq α] {motive : List α → Prop} (nil : motive [])
    (cons : ∀ item rest, motive (rest.filter fun other => !other == item) →
      motive (item :: rest)) : ∀ items, motive items
  | [] => nil
  | item :: rest =>
    cons item rest (eraseDups_induction nil cons (rest.filter fun other => !other == item))
termination_by items => items.length
decreasing_by exact Nat.lt_succ_of_le (List.length_filter_le _ rest)

theorem filter_eraseDups {α : Type} [BEq α] [LawfulBEq α] (p : α → Bool) (items : List α) :
    items.eraseDups.filter p = (items.filter p).eraseDups := by
  induction items using eraseDups_induction with
  | nil => rfl
  | cons item rest ih =>
    rw [List.eraseDups_cons]
    by_cases hp : p item = true
    · rw [List.filter_cons_of_pos hp, List.filter_cons_of_pos hp, List.eraseDups_cons, ih,
        List.filter_filter, List.filter_filter]
      simp only [Bool.and_comm]
    · rw [List.filter_cons_of_neg hp, List.filter_cons_of_neg hp, ih, List.filter_filter]
      congr 1
      apply List.filter_congr
      intro other _
      by_cases heq : other = item
      · simp [heq, hp]
      · simp [heq]

/-! ## Sets of types -/

namespace TypeSet

theorem union_eq_left {a b : TypeSet} (h : b ⊆ a) : a.union b = a := by
  apply ext
  intro t
  rw [contains_union, Bool.or_eq_left_iff_imp]
  exact h t

end TypeSet

/-! ## What a row has learned -/

namespace FieldRow

/-- A row knows all that a descriptor says, and its type tells so. -/
structure Absorbs (row : FieldRow) (d : Descriptor) : Prop where
  values : d.types ⊆ row.valueTypes
  elements : d.isCompressed = true → row.isCompressed = true ∧ ∃ types,
    row.arrayTypes = some types ∧ d.types ⊆ types ∧ row.type = types.representative

variable {row : FieldRow} {p : Partition} {d : Descriptor} {ds known : List Descriptor}
  {now later : Instant}

theorem absorbs_start (p : Partition) (hd : d.IsBuilt) (now : Instant) :
    (start p d now).Absorbs d := by
  refine ⟨TypeSet.Subset.refl d.types, fun hcompressed => ⟨hcompressed, ?_⟩⟩
  cases hd with
  | leaf path type => cases hcompressed
  | compressed path htypes => exact ⟨_, rfl, TypeSet.Subset.refl _, rfl⟩

theorem absorbs_add (row : FieldRow) (d : Descriptor) (now : Instant) :
    (row.add d now).Absorbs d := by
  unfold add
  split
  · exact ⟨TypeSet.subset_union_right _ _,
      fun _ => ⟨rfl, _, rfl, TypeSet.subset_union_right _ _, rfl⟩⟩
  · next hplain => exact ⟨TypeSet.subset_union_right _ _, fun hd => absurd hd hplain⟩

/-- What a row has learned it does not forget. -/
theorem Absorbs.add (h : row.Absorbs d) (e : Descriptor) (now : Instant) :
    (row.add e now).Absorbs d := by
  unfold FieldRow.add
  split
  · refine ⟨TypeSet.Subset.union h.values e.types, fun hd => ⟨rfl, _, rfl, ?_, rfl⟩⟩
    obtain ⟨-, types, htypes, hknown, -⟩ := h.elements hd
    rw [htypes]
    exact TypeSet.Subset.union hknown e.types
  · exact ⟨TypeSet.Subset.union h.values e.types, h.elements⟩

/-- A row that has learned a descriptor is only updated by it. -/
theorem Absorbs.add_self (h : row.Absorbs d) (now : Instant) :
    row.add d now = { row with updatedAt := now } := by
  unfold FieldRow.add
  rw [TypeSet.union_eq_left h.values]
  split
  · next hd =>
    obtain ⟨hcompressed, types, htypes, hknown, htype⟩ := h.elements hd
    simp only [htypes, Option.getD_some, TypeSet.union_eq_left hknown, ← htype, ← hcompressed]
  · rfl

theorem updatedAt_add (row : FieldRow) (d : Descriptor) (now : Instant) :
    (row.add d now).updatedAt = now := by
  unfold add
  split <;> rfl

/-! ## Folding -/

/-- A row has been updated at an instant, and has learned some descriptors. -/
structure Learned (row : FieldRow) (now : Instant) (known : List Descriptor) : Prop where
  updatedAt : row.updatedAt = now
  absorbs : ∀ d ∈ known, row.Absorbs d

theorem Learned.foldl_add (h : row.Learned now known) (ds : List Descriptor) :
    (ds.foldl (fun row d => row.add d now) row).Learned now (known ++ ds) := by
  induction ds generalizing row known with
  | nil => rwa [List.append_nil]
  | cons d rest ih =>
    have added : (row.add d now).Learned now (known ++ [d]) := by
      refine ⟨row.updatedAt_add d now, fun e he => ?_⟩
      rcases List.mem_append.1 he with he | he
      · exact (h.absorbs e he).add d now
      · rw [List.mem_singleton.1 he]
        exact row.absorbs_add d now
    rw [List.append_cons]
    exact ih added

theorem learned_fold (existing : Option FieldRow) (p : Partition) (hd : d.IsBuilt)
    (now : Instant) : (fold existing p d now).Learned now [d] := by
  cases existing with
  | none => exact ⟨rfl, List.forall_mem_singleton.2 (absorbs_start p hd now)⟩
  | some row =>
    exact ⟨row.updatedAt_add d now, List.forall_mem_singleton.2 (row.absorbs_add d now)⟩

theorem Learned.add_self (h : row.Learned now known) (hd : d ∈ known) : row.add d now = row := by
  rw [(h.absorbs d hd).add_self, ← h.updatedAt]

theorem Learned.foldl_add_self (h : row.Learned now ds) :
    ds.foldl (fun row d => row.add d now) row = row := by
  induction ds with
  | nil => rfl
  | cons d rest ih =>
    rw [List.foldl_cons, h.add_self List.mem_cons_self]
    exact ih ⟨h.updatedAt, fun e he => h.absorbs e (List.mem_cons_of_mem _ he)⟩

/-- The row of a path after some descriptors has learned them all. -/
theorem learned_foldAll (p : Partition) (now : Instant) (existing : Option FieldRow)
    (hbuilt : ∀ d ∈ ds, d.IsBuilt) (hds : ds ≠ []) :
    ∃ row, foldAll p now existing ds = some row ∧ row.Learned now ds := by
  obtain ⟨d, rest, rfl⟩ := List.exists_cons_of_ne_nil hds
  refine ⟨_, foldAll_some _ rest, ?_⟩
  exact (learned_fold existing p (hbuilt d List.mem_cons_self) now).foldl_add rest

theorem foldl_add_filter_ne (h : row.Learned now [d]) (ds : List Descriptor) :
    (ds.filter fun e => !e == d).foldl (fun row d => row.add d now) row =
      ds.foldl (fun row d => row.add d now) row := by
  induction ds generalizing row with
  | nil => rfl
  | cons e rest ih =>
    by_cases he : e = d
    · subst he
      rw [List.filter_cons_of_neg (by simp), List.foldl_cons, h.add_self List.mem_cons_self]
      exact ih h
    · rw [List.filter_cons_of_pos (by simpa using he), List.foldl_cons, List.foldl_cons]
      apply ih
      exact ⟨row.updatedAt_add e now, fun other hother =>
        (h.absorbs other hother).add e now⟩

/-- Repeated descriptors may be left out. -/
theorem foldAll_eraseDups (p : Partition) (now : Instant) (existing : Option FieldRow)
    (hbuilt : ∀ d ∈ ds, d.IsBuilt) :
    foldAll p now existing ds.eraseDups = foldAll p now existing ds := by
  induction ds using eraseDups_induction generalizing existing with
  | nil => rfl
  | cons d rest ih =>
    have first (others : List Descriptor) : foldAll p now existing (d :: others) =
        foldAll p now (some (fold existing p d now)) others := rfl
    rw [List.eraseDups_cons, first, first, ih _ fun e he =>
      hbuilt e (List.mem_cons_of_mem _ (List.mem_filter.1 he).1), foldAll_some, foldAll_some,
      foldl_add_filter_ne (learned_fold existing p (hbuilt d List.mem_cons_self) now)]

/-- To fold descriptors in again changes the time of the update only. -/
theorem foldAll_again (p : Partition) (now later : Instant) (existing : Option FieldRow)
    (hbuilt : ∀ d ∈ ds, d.IsBuilt) (hds : ds ≠ []) :
    ∃ row, foldAll p now existing ds = some row ∧ row.updatedAt = now ∧
      foldAll p later (some row) ds = some { row with updatedAt := later } := by
  obtain ⟨row, hrow, hlearned⟩ := learned_foldAll p now existing hbuilt hds
  refine ⟨row, hrow, hlearned.updatedAt, ?_⟩
  obtain ⟨d, rest, rfl⟩ := List.exists_cons_of_ne_nil hds
  have updated : ({ row with updatedAt := later } : FieldRow).Learned later rest :=
    ⟨rfl, fun e he => ⟨(hlearned.absorbs e (List.mem_cons_of_mem _ he)).values,
      (hlearned.absorbs e (List.mem_cons_of_mem _ he)).elements⟩⟩
  rw [foldAll_some, List.foldl_cons, (hlearned.absorbs d List.mem_cons_self).add_self,
    updated.foldl_add_self]

end FieldRow

end RecordStore
