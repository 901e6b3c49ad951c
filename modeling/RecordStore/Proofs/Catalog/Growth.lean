import RecordStore.Proofs.Catalog.Map
import RecordStore.Proofs.Effect

/-!
# Growth of the catalog

What a row says of its types fits together (`FieldRow.Consistent`), and a row only ever learns
(`FieldRow.Grows`), whatever descriptors of its path are folded in, and in whatever order. Therefore
the rows of a partition are consistent after any number of upserts, none is lost, none forgets what
it knows, and the other partitions stay as they are (`CatalogMap.upsertEach_grows`).
-/

namespace RecordStore

namespace FieldRow

/-! ## Consistent rows -/

/-- A row is compressed if it has the types of elements. These are some of the types of its values,
and its type stands for them; the type of a plain row is among the types of its values. -/
structure Consistent (row : FieldRow) : Prop where
  isCompressed_iff : row.isCompressed = true ↔ row.arrayTypes.isSome = true
  elements : ∀ types, row.arrayTypes = some types →
    types ≠ .empty ∧ types ⊆ row.valueTypes ∧ row.type = types.representative
  plain : row.arrayTypes = none → row.valueTypes.contains row.type = true

variable {row : FieldRow} {p : Partition} {d : Descriptor} {ds : List Descriptor} {now : Instant}

theorem consistent_start (p : Partition) (hd : d.IsBuilt) (now : Instant) :
    (start p d now).Consistent := by
  cases hd with
  | leaf path type =>
    refine ⟨by simp [start, Descriptor.leaf], fun types htypes => ?_, fun _ => ?_⟩
    · cases htypes
    · exact TypeSet.contains_singleton type
  | @compressed path types htypes =>
    refine ⟨by simp [start, Descriptor.compressed], ?_, fun hnone => nomatch hnone⟩
    rintro known ⟨⟩
    exact ⟨htypes, TypeSet.Subset.refl types, rfl⟩

theorem Consistent.add (h : row.Consistent) (hd : d.IsBuilt) (now : Instant) :
    (row.add d now).Consistent := by
  cases hd with
  | leaf path type =>
    have added : row.add (.leaf path type) now =
        { row with valueTypes := row.valueTypes.union (.singleton type), updatedAt := now } := rfl
    rw [added]
    refine ⟨h.isCompressed_iff, fun types htypes => ?_, fun hnone => ?_⟩
    · obtain ⟨hnonempty, hknown, htype⟩ := h.elements types htypes
      exact ⟨hnonempty, TypeSet.Subset.union hknown _, htype⟩
    · rw [TypeSet.contains_union, h.plain hnone, Bool.true_or]
  | @compressed path types htypes =>
    have added : row.add (.compressed path types) now =
        { row with
          valueTypes := row.valueTypes.union types
          updatedAt := now
          type := ((row.arrayTypes.getD .empty).union types).representative
          arrayTypes := some ((row.arrayTypes.getD .empty).union types)
          isCompressed := true } := rfl
    rw [added]
    refine ⟨by simp, ?_, fun hnone => nomatch hnone⟩
    rintro union ⟨⟩
    have known : row.arrayTypes.getD .empty ⊆ row.valueTypes := by
      cases htypes : row.arrayTypes with
      | none => exact TypeSet.empty_subset _
      | some known => exact (h.elements known htypes).2.1
    refine ⟨TypeSet.union_ne_empty _ htypes, ?_, rfl⟩
    exact TypeSet.union_subset (TypeSet.Subset.union known types) (TypeSet.subset_union_right _ types)

/-! ## Rows that grow -/

/-- What a row knows another one knows too, which is as old; it is compressed if the first is, and
as long as it is plain it has the same type. -/
structure Grows (old new : FieldRow) : Prop where
  values : old.valueTypes ⊆ new.valueTypes
  elements : ∀ types, old.arrayTypes = some types →
    ∃ more, new.arrayTypes = some more ∧ types ⊆ more
  createdAt : new.createdAt = old.createdAt
  compressed : old.isCompressed = true → new.isCompressed = true
  plain : new.isCompressed = false → new.type = old.type

theorem Grows.refl (row : FieldRow) : row.Grows row where
  values := TypeSet.Subset.refl row.valueTypes
  elements types htypes := ⟨types, htypes, TypeSet.Subset.refl types⟩
  createdAt := rfl
  compressed h := h
  plain _ := rfl

theorem Grows.trans {first second third : FieldRow} (h : first.Grows second)
    (h' : second.Grows third) : first.Grows third where
  values := TypeSet.Subset.trans h.values h'.values
  elements types htypes := by
    obtain ⟨more, hmore, hknown⟩ := h.elements types htypes
    obtain ⟨most, hmost, hknown'⟩ := h'.elements more hmore
    exact ⟨most, hmost, TypeSet.Subset.trans hknown hknown'⟩
  createdAt := h'.createdAt.trans h.createdAt
  compressed hfirst := h'.compressed (h.compressed hfirst)
  plain hthird := by
    have hsecond : second.isCompressed = false := by
      rw [← Bool.not_eq_true]
      intro hcompressed
      rw [h'.compressed hcompressed] at hthird
      cases hthird
    exact (h'.plain hthird).trans (h.plain hsecond)

theorem grows_add (row : FieldRow) (d : Descriptor) (now : Instant) : row.Grows (row.add d now) := by
  unfold add
  split
  · refine ⟨TypeSet.subset_union_left _ _, fun types htypes => ?_, rfl, fun _ => rfl, ?_⟩
    · refine ⟨_, rfl, ?_⟩
      rw [htypes]
      exact TypeSet.subset_union_left types _
    · exact fun hplain => nomatch hplain
  · refine ⟨TypeSet.subset_union_left _ _, fun types htypes => ?_, rfl, fun h => h, fun _ => rfl⟩
    exact ⟨types, htypes, TypeSet.Subset.refl types⟩

/-! ## Folding -/

theorem Consistent.foldl_add (h : row.Consistent) (hds : ∀ d ∈ ds, d.IsBuilt) (now : Instant) :
    (ds.foldl (fun row d => row.add d now) row).Consistent := by
  induction ds generalizing row with
  | nil => exact h
  | cons d rest ih =>
    apply ih (h.add (hds d List.mem_cons_self) now)
    exact fun e he => hds e (List.mem_cons_of_mem _ he)

theorem grows_foldl_add (row : FieldRow) (ds : List Descriptor) (now : Instant) :
    row.Grows (ds.foldl (fun row d => row.add d now) row) := by
  induction ds generalizing row with
  | nil => exact .refl row
  | cons d rest ih => exact (row.grows_add d now).trans (ih (row.add d now))

theorem consistent_foldAll {existing : Option FieldRow}
    (hexisting : ∀ row, existing = some row → row.Consistent) (hds : ∀ d ∈ ds, d.IsBuilt)
    (hrow : foldAll p now existing ds = some row) : row.Consistent := by
  cases existing with
  | some old =>
    rw [foldAll_some] at hrow
    cases hrow
    exact (hexisting old rfl).foldl_add hds now
  | none =>
    cases ds with
    | nil => cases hrow
    | cons d rest =>
      have first : foldAll p now none (d :: rest) = foldAll p now (some (start p d now)) rest := rfl
      rw [first, foldAll_some] at hrow
      cases hrow
      have started := consistent_start p (hds d List.mem_cons_self) now
      exact started.foldl_add (fun e he => hds e (List.mem_cons_of_mem _ he)) now

end FieldRow

/-! ## Catalogs -/

namespace CatalogMap

variable {map old new : CatalogMap} {p : Partition} {ds : List Descriptor} {now : Instant}

/-- The rows of a partition are consistent. -/
def ConsistentIn (p : Partition) (map : CatalogMap) : Prop :=
  ∀ k row, map.row? p k = some row → row.Consistent

/-- No row of a partition is lost, all of them grow, and other partitions stay as they are. -/
structure GrowsIn (p : Partition) (old new : CatalogMap) : Prop where
  rows : ∀ k row, old.row? p k = some row → ∃ grown, new.row? p k = some grown ∧ row.Grows grown
  others : ∀ q, q ≠ p → new.rowsOf q = old.rowsOf q

theorem GrowsIn.refl (p : Partition) (map : CatalogMap) : map.GrowsIn p map :=
  ⟨fun _ row hrow => ⟨row, hrow, .refl row⟩, fun _ _ => rfl⟩

theorem GrowsIn.trans {first second third : CatalogMap} (h : first.GrowsIn p second)
    (h' : second.GrowsIn p third) : first.GrowsIn p third where
  rows k row hrow := by
    obtain ⟨grown, hgrown, hgrows⟩ := h.rows k row hrow
    obtain ⟨more, hmore, hgrows'⟩ := h'.rows k grown hgrown
    exact ⟨more, hmore, hgrows.trans hgrows'⟩
  others q hq := (h'.others q hq).trans (h.others q hq)

theorem growsIn_upsert (h : map.WellFormed) (p : Partition) (ds : List Descriptor)
    (now : Instant) : map.GrowsIn p (upsert p ds now map).2 where
  rows k row hrow := by
    rw [h.row?_upsert, if_pos rfl, hrow, FieldRow.foldAll_some]
    exact ⟨_, rfl, row.grows_foldl_add _ now⟩
  others q hq := rowsOf_upsert_of_ne hq ds now map

theorem ConsistentIn.upsert (hmap : map.ConsistentIn p) (h : map.WellFormed)
    (hds : ∀ d ∈ ds, d.IsBuilt) (now : Instant) :
    ConsistentIn p (CatalogMap.upsert p ds now map).2 := by
  intro k row hrow
  rw [h.row?_upsert, if_pos rfl] at hrow
  apply FieldRow.consistent_foldAll (hmap k) _ hrow
  exact fun d hd => hds d (List.mem_filter.1 hd).1

end CatalogMap

/-! ## Sequences of upserts -/

/-- Folds some batches of descriptors into the rows of a partition, each at an instant. -/
def Catalog.upsertEach {σ : Type} (catalog : Catalog σ) (p : Partition)
    (batches : List (List Descriptor × Instant)) : Effect σ Unit :=
  batches.forM fun batch => discard (catalog.upsert p batch.1 batch.2)

namespace CatalogMap

variable {map : CatalogMap} {p : Partition} {batches : List (List Descriptor × Instant)}

/-- Upserts succeed. What is consistent stays so, and nothing is lost. -/
theorem result_upsertEach (h : map.WellFormed) (hmap : map.ConsistentIn p)
    (hbuilt : ∀ batch ∈ batches, ∀ d ∈ batch.1, d.IsBuilt) :
    ∃ new, (memoryCatalog.upsertEach p batches).result map = (.ok (), new) ∧
      new.WellFormed ∧ new.ConsistentIn p ∧ map.GrowsIn p new := by
  induction batches generalizing map with
  | nil => exact ⟨map, rfl, h, hmap, .refl p map⟩
  | cons batch rest ih =>
    obtain ⟨new, hnew, hwellFormed, hconsistent, hgrows⟩ :=
      ih (h.upsert p batch.1 batch.2) (hmap.upsert h (hbuilt batch List.mem_cons_self) batch.2)
        fun other hother => hbuilt other (List.mem_cons_of_mem _ hother)
    refine ⟨new, ?_, hwellFormed, hconsistent, (growsIn_upsert h p batch.1 batch.2).trans hgrows⟩
    exact hnew

/-- After any upserts into a partition whose rows have been consistent, its rows are consistent. Over
any further ones no row is lost, every row grows, and the rows of other partitions do not change. -/
theorem upsertEach_grows {start : CatalogMap} (h : start.WellFormed)
    (hstart : start.ConsistentIn p) {earlier later : List (List Descriptor × Instant)}
    (hbuilt : ∀ batch ∈ earlier ++ later, ∀ d ∈ batch.1, d.IsBuilt) :
    ∃ old new, (memoryCatalog.upsertEach p earlier).result start = (.ok (), old) ∧
      (memoryCatalog.upsertEach p later).result old = (.ok (), new) ∧
      old.ConsistentIn p ∧ new.ConsistentIn p ∧ old.GrowsIn p new := by
  obtain ⟨old, hold, hwellFormed, hconsistent, -⟩ := result_upsertEach h hstart
    fun batch hbatch => hbuilt batch (List.mem_append_left _ hbatch)
  obtain ⟨new, hnew, -, hconsistent', hgrows⟩ := result_upsertEach hwellFormed hconsistent
    fun batch hbatch => hbuilt batch (List.mem_append_right _ hbatch)
  exact ⟨old, new, hold, hnew, hconsistent, hconsistent', hgrows⟩

/-- A path that is plain first becomes compressed, within a batch and again later, beside another
partition with a row at the same path. -/
theorem upsertEach_grows_compressed :
    let p : Partition := ⟨"app", "group", "tag"⟩
    let start : CatalogMap := (upsert ⟨"app", "group", "other"⟩ [.leaf "a" .null] 1 []).2
    let earlier : List (List Descriptor × Instant) :=
      [([.leaf "a" .number, .compressed "a" (.singleton .null)], 2)]
    let later : List (List Descriptor × Instant) :=
      [([.leaf "a" .string, .compressed "a" (.singleton .boolean)], 3), ([.leaf "b" .null], 4)]
    start.WellFormed ∧ start.ConsistentIn p ∧
      (∀ batch ∈ earlier ++ later, ∀ d ∈ batch.1, d.IsBuilt) ∧
      ∃ old new, (memoryCatalog.upsertEach p earlier).result start = (.ok (), old) ∧
        (memoryCatalog.upsertEach p later).result old = (.ok (), new) ∧
        old.ConsistentIn p ∧ new.ConsistentIn p ∧ old.GrowsIn p new := by
  intro p start earlier later
  have wellFormed : start.WellFormed := wellFormed_empty.upsert _ _ _
  have consistent : start.ConsistentIn p := by
    intro k row hrow
    rw [wellFormed_empty.row?_upsert, if_neg (by decide)] at hrow
    cases hrow
  have built : ∀ batch ∈ earlier ++ later, ∀ d ∈ batch.1, d.IsBuilt := by decide
  exact ⟨wellFormed, consistent, built, upsertEach_grows wellFormed consistent built⟩

end CatalogMap

end RecordStore
