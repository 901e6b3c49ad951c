import RecordStore.Catalog.Memory
import RecordStore.PayloadIndex
import RecordStore.Proofs.Keyed
import RecordStore.Proofs.Value.Every

/-!
# What the catalog knows

A row covers a descriptor if it knows all of its types (`FieldRow.Covers`), and a catalog covers it in
a partition if the row of its path does (`CatalogMap.Covers`). To fold descriptors into a catalog
covers them (`CatalogMap.covers_upsert`), and nothing that is covered is forgotten
(`CatalogMap.Covers.upsert`), as long as every row stands in its place (`CatalogMap.InPlace`).
-/

namespace RecordStore

/-! ## Sets of types -/

namespace TypeSet

instance : HasSubset TypeSet := ⟨fun a b => ∀ t, a.contains t = true → b.contains t = true⟩

variable {a b : TypeSet}

theorem Subset.refl (a : TypeSet) : a ⊆ a := fun _ => id

theorem contains_union (a b : TypeSet) (t : LeafType) :
    (a.union b).contains t = (a.contains t || b.contains t) := by
  cases t <;> rfl

theorem empty_subset (a : TypeSet) : .empty ⊆ a := by
  intro t ht
  cases t <;> cases ht

theorem subset_union_left (a b : TypeSet) : a ⊆ a.union b := by
  intro t ht
  rw [contains_union, ht, Bool.true_or]

theorem subset_union_right (a b : TypeSet) : b ⊆ a.union b := by
  intro t ht
  rw [contains_union, ht, Bool.or_true]

theorem Subset.trans {c : TypeSet} (h : a ⊆ b) (h' : b ⊆ c) : a ⊆ c := fun t ht => h' t (h t ht)

theorem Subset.union (h : a ⊆ b) (c : TypeSet) : a ⊆ b.union c := by
  intro t ht
  rw [contains_union, h t ht, Bool.true_or]

theorem union_subset {c : TypeSet} (ha : a ⊆ c) (hb : b ⊆ c) : a.union b ⊆ c := by
  intro t ht
  rw [contains_union, Bool.or_eq_true] at ht
  exact ht.elim (ha t) (hb t)

theorem union_ne_empty (a : TypeSet) (h : b ≠ .empty) : a.union b ≠ .empty := by
  intro hempty
  apply h
  cases b
  simp_all [union, empty]

theorem contains_singleton_iff {t u : LeafType} : (singleton t).contains u = true ↔ t = u := by
  cases t <;> cases u <;> decide

theorem contains_singleton (t : LeafType) : (singleton t).contains t = true :=
  contains_singleton_iff.2 rfl

theorem ne_empty_of_contains {t : LeafType} (h : a.contains t = true) : a ≠ .empty := by
  rintro rfl
  cases t <;> cases h

theorem ext (h : ∀ t, a.contains t = b.contains t) : a = b := by
  cases a
  cases b
  simp only [mk.injEq]
  exact ⟨h .string, h .number, h .boolean, h .null, h .undefined⟩

theorem exists_contains_of_ne_empty (h : a ≠ .empty) : ∃ t, a.contains t = true := by
  refine Classical.byContradiction fun hnone => h (ext fun t => ?_)
  have absent : a.contains t = false := Bool.eq_false_iff.2 fun ht => hnone ⟨t, ht⟩
  rw [absent]
  cases t <;> rfl

/-- The types that have a property are a set. -/
theorem exists_contains_iff (p : LeafType → Prop) :
    ∃ types : TypeSet, ∀ t, types.contains t = true ↔ p t := by
  classical
  refine ⟨⟨decide (p .string), decide (p .number), decide (p .boolean), decide (p .null),
    decide (p .undefined)⟩, fun t => ?_⟩
  cases t <;> exact decide_eq_true_iff

end TypeSet

/-! ## Descriptors -/

namespace Descriptor

/-- A plain descriptor of one type, or a compressed one of some types. -/
inductive IsBuilt : Descriptor → Prop
  | leaf (path : String) (type : LeafType) : IsBuilt (.leaf path type)
  | compressed (path : String) {types : TypeSet} :
    types ≠ .empty → IsBuilt (.compressed path types)

theorem isBuilt_iff {d : Descriptor} : d.IsBuilt ↔ match d.arrayTypes with
    | none => d = .leaf d.path d.type
    | some types => types ≠ .empty ∧ d = .compressed d.path types := by
  constructor
  · intro h
    cases h with
    | leaf path type => rfl
    | compressed path htypes => exact ⟨htypes, rfl⟩
  · intro h
    split at h
    · rw [h]
      exact .leaf d.path d.type
    · rw [h.2]
      exact .compressed d.path h.1

instance (d : Descriptor) : Decidable d.IsBuilt :=
  match htypes : d.arrayTypes with
  | none => decidable_of_iff (d = .leaf d.path d.type) (by rw [isBuilt_iff, htypes])
  | some types => decidable_of_iff (types ≠ .empty ∧ d = .compressed d.path types)
      (by rw [isBuilt_iff, htypes])

/-- A compressed descriptor carries the types that it has. -/
def IsSound (d : Descriptor) : Prop := d.isCompressed = true → d.arrayTypes = some d.types

theorem IsBuilt.isSound {d : Descriptor} (h : d.IsBuilt) : d.IsSound := by
  intro hcompressed
  cases h with
  | leaf path type => cases hcompressed
  | compressed path htypes => rfl

end Descriptor

namespace Value

variable {position : List String} {items : List Value} {d : Descriptor}

/-- Every compressed path has the type of some element. -/
theorem ne_empty_of_mem_elementTypes {entry : String × TypeSet}
    (h : entry ∈ elementTypes position items) : entry.2 ≠ .empty := by
  unfold elementTypes at h
  generalize items.flatMap shallowLeaves = leaves at h
  suffices ∀ known : List (String × TypeSet), (∀ entry ∈ known, entry.2 ≠ .empty) →
      ∀ entry ∈ leaves.foldl (fun known leaf =>
        addType known (dotted (position ++ Segment.wildcardText :: leaf.1)) leaf.2) known,
        entry.2 ≠ .empty from
    this [] (fun _ hentry => absurd hentry List.not_mem_nil) entry h
  clear h
  induction leaves with
  | nil => exact fun _ hknown => hknown
  | cons leaf rest ih =>
    intro known hknown
    apply ih
    intro entry hentry
    rcases Keyed.mem_insert hentry with rfl | hentry
    · exact TypeSet.ne_empty_of_contains
        (TypeSet.subset_union_right _ _ leaf.2 (TypeSet.contains_singleton leaf.2))
    · exact hknown entry hentry

theorem isBuilt_compressedDescriptors (h : d ∈ compressedDescriptors position items) :
    d.IsBuilt := by
  obtain ⟨entry, hentry, rfl⟩ := List.mem_map.1 h
  exact .compressed entry.1 (ne_empty_of_mem_elementTypes hentry)

theorem isBuilt_leaf {types : List LeafType}
    (h : d ∈ if position.isEmpty then [] else types.map fun t => .leaf (dotted position) t) :
    d.IsBuilt := by
  split at h
  · exact absurd h List.not_mem_nil
  · obtain ⟨t, -, rfl⟩ := List.mem_map.1 h
    exact .leaf (dotted position) t

mutual

theorem isBuilt_descriptorsAt (position : List String) :
    ∀ v : Value, ∀ d ∈ descriptorsAt position v, d.IsBuilt
  | .object fields => isBuilt_descriptorsOfFields position fields
  | .array items => by
    intro d hd
    rcases List.mem_append.1 hd with hd | hd
    · exact isBuilt_descriptorsOfItems position 0 items d hd
    · exact isBuilt_compressedDescriptors hd
  | .null | .bool _ | .number _ | .string _ => fun _ => isBuilt_leaf
termination_by structural v => v

theorem isBuilt_descriptorsOfFields (position : List String) :
    ∀ fields : Fields, ∀ d ∈ descriptorsOfFields position fields, d.IsBuilt
  | [] => fun _ hd => absurd hd List.not_mem_nil
  | (key, v) :: rest => by
    intro d hd
    rcases List.mem_append.1 hd with hd | hd
    · exact isBuilt_descriptorsAt (position ++ [key]) v d hd
    · exact isBuilt_descriptorsOfFields position rest d hd
termination_by structural fields => fields

theorem isBuilt_descriptorsOfItems (position : List String) (i : Nat) :
    ∀ items : List Value, ∀ d ∈ descriptorsOfItems position i items, d.IsBuilt
  | [] => fun _ hd => absurd hd List.not_mem_nil
  | v :: rest => by
    intro d hd
    rcases List.mem_append.1 hd with hd | hd
    · exact isBuilt_descriptorsAt (position ++ [Segment.indexText i]) v d hd
    · exact isBuilt_descriptorsOfItems position (i + 1) rest d hd
termination_by structural items => items

end

theorem isBuilt_index {payload : Value} {entry : String × Descriptor}
    (h : entry ∈ payload.index) : entry.2.IsBuilt := by
  obtain ⟨d, hd, rfl⟩ := List.mem_map.1 (Keyed.mem_of_mem_ofList h)
  exact isBuilt_descriptorsAt [] payload d hd

end Value

/-! ## Rows -/

namespace FieldRow

/-- A row of a partition knows the types of a descriptor. -/
structure Covers (row : FieldRow) (p : Partition) (d : Descriptor) : Prop where
  partition : row.partition = p
  path : row.path = d.path
  values : d.types ⊆ row.valueTypes
  elements : d.isCompressed = true → ∃ types, row.arrayTypes = some types ∧ d.types ⊆ types

variable {row : FieldRow} {p : Partition} {d e : Descriptor} {now : Instant}

theorem covers_start (hd : d.IsSound) : (start p d now).Covers p d where
  partition := rfl
  path := rfl
  values := TypeSet.Subset.refl d.types
  elements hcompressed := ⟨d.types, hd hcompressed, TypeSet.Subset.refl d.types⟩

theorem partition_add (row : FieldRow) (d : Descriptor) (now : Instant) :
    (row.add d now).partition = row.partition := by
  unfold add
  split <;> rfl

theorem path_add (row : FieldRow) (d : Descriptor) (now : Instant) :
    (row.add d now).path = row.path := by
  unfold add
  split <;> rfl

theorem valueTypes_add (row : FieldRow) (d : Descriptor) (now : Instant) :
    (row.add d now).valueTypes = row.valueTypes.union d.types := by
  unfold add
  split <;> rfl

theorem arrayTypes_add (row : FieldRow) (d : Descriptor) (now : Instant) :
    (row.add d now).arrayTypes =
      if d.isCompressed then some ((row.arrayTypes.getD .empty).union d.types)
      else row.arrayTypes := by
  unfold add
  split <;> rfl

theorem covers_add (hp : row.partition = p) (hpath : row.path = d.path) :
    (row.add d now).Covers p d where
  partition := (row.partition_add d now).trans hp
  path := (row.path_add d now).trans hpath
  values := by
    rw [valueTypes_add]
    exact TypeSet.subset_union_right _ _
  elements hcompressed := by
    rw [arrayTypes_add, if_pos hcompressed]
    exact ⟨_, rfl, TypeSet.subset_union_right _ _⟩

/-- What a row knows it keeps. -/
theorem Covers.add (h : row.Covers p d) (e : Descriptor) (now : Instant) :
    (row.add e now).Covers p d where
  partition := (row.partition_add e now).trans h.partition
  path := (row.path_add e now).trans h.path
  values := by
    rw [valueTypes_add]
    exact TypeSet.Subset.union h.values e.types
  elements hcompressed := by
    obtain ⟨types, htypes, hknown⟩ := h.elements hcompressed
    rw [arrayTypes_add, htypes]
    split
    · exact ⟨_, rfl, TypeSet.Subset.union hknown e.types⟩
    · exact ⟨types, rfl, hknown⟩

/-! ### Rows by path -/

/-- All rows are of a partition and stand under their paths. -/
def AllInPlace (p : Partition) (rows : List (String × FieldRow)) : Prop :=
  ∀ entry ∈ rows, entry.2.partition = p ∧ entry.2.path = entry.1

/-- The row of a descriptor's path covers it. -/
def SomeCovers (p : Partition) (rows : List (String × FieldRow)) (d : Descriptor) : Prop :=
  ∃ row, Keyed.get? d.path rows = some row ∧ row.Covers p d

variable {rows : List (String × FieldRow)} {k : String}

theorem AllInPlace.get? (h : AllInPlace p rows) (hrow : Keyed.get? k rows = some row) :
    row.partition = p ∧ row.path = k :=
  h (k, row) (Keyed.mem_of_get? hrow)

theorem AllInPlace.map_path (h : AllInPlace p rows) :
    (Keyed.values rows).map path = Keyed.keys rows := by
  rw [Keyed.values, Keyed.keys, List.map_map]
  exact List.map_congr_left fun entry hentry => (h entry hentry).2

theorem AllInPlace.insert (h : AllInPlace p rows) (hp : row.partition = p) (hk : row.path = k) :
    AllInPlace p (Keyed.insert k row rows) := by
  intro entry hentry
  rcases Keyed.mem_insert hentry with rfl | hentry
  · exact ⟨hp, hk⟩
  · exact h entry hentry

/-- The row of a path after one more descriptor is in its place. -/
theorem AllInPlace.fold (h : AllInPlace p rows) (d : Descriptor) (now : Instant) :
    let row := fold (Keyed.get? d.path rows) p d now
    row.partition = p ∧ row.path = d.path := by
  cases hrow : Keyed.get? d.path rows with
  | none => exact ⟨rfl, rfl⟩
  | some row =>
    obtain ⟨hp, hpath⟩ := h.get? hrow
    exact ⟨(row.partition_add d now).trans hp, (row.path_add d now).trans hpath⟩

theorem covers_fold (h : AllInPlace p rows) (hd : d.IsSound) :
    (fold (Keyed.get? d.path rows) p d now).Covers p d := by
  cases hrow : Keyed.get? d.path rows with
  | none => exact covers_start hd
  | some row =>
    obtain ⟨hp, hpath⟩ := h.get? hrow
    exact covers_add hp hpath

theorem SomeCovers.fold (h : SomeCovers p rows d) (e : Descriptor) (now : Instant) :
    SomeCovers p (Keyed.insert e.path (fold (Keyed.get? e.path rows) p e now) rows) d := by
  obtain ⟨row, hrow, hcovers⟩ := h
  by_cases hpath : d.path = e.path
  · rw [← hpath, hrow, SomeCovers, Keyed.get?_insert_self]
    exact ⟨_, rfl, hcovers.add e now⟩
  · rw [SomeCovers, Keyed.get?_insert_of_ne hpath]
    exact ⟨row, hrow, hcovers⟩

/-! ### Folding -/

variable {ds : List Descriptor}

theorem AllInPlace.foldDescriptors (h : AllInPlace p rows) (now : Instant) (ds : List Descriptor) :
    AllInPlace p (foldDescriptors p now rows ds) := by
  induction ds generalizing rows with
  | nil => exact h
  | cons e rest ih =>
    obtain ⟨hp, hpath⟩ := h.fold e now
    exact ih (h.insert hp hpath)

theorem SomeCovers.foldDescriptors (h : SomeCovers p rows d) (now : Instant)
    (ds : List Descriptor) : SomeCovers p (foldDescriptors p now rows ds) d := by
  induction ds generalizing rows with
  | nil => exact h
  | cons e rest ih => exact ih (h.fold e now)

theorem someCovers_foldDescriptors (h : AllInPlace p rows) (hsound : ∀ d ∈ ds, d.IsSound)
    (hd : d ∈ ds) : SomeCovers p (foldDescriptors p now rows ds) d := by
  induction ds generalizing rows with
  | nil => exact absurd hd List.not_mem_nil
  | cons e rest ih =>
    rcases List.mem_cons.1 hd with rfl | hd
    · have covered : SomeCovers p
          (Keyed.insert d.path (fold (Keyed.get? d.path rows) p d now) rows) d :=
        ⟨_, Keyed.get?_insert_self _ _ _, covers_fold h (hsound d List.mem_cons_self)⟩
      exact covered.foldDescriptors now rest
    · obtain ⟨hp, hpath⟩ := h.fold e now
      exact ih (h.insert hp hpath) (fun d hd => hsound d (List.mem_cons_of_mem _ hd)) hd

theorem get?_foldDescriptors_of_not_mem (hk : k ∉ ds.map Descriptor.path) :
    Keyed.get? k (foldDescriptors p now rows ds) = Keyed.get? k rows := by
  induction ds generalizing rows with
  | nil => rfl
  | cons e rest ih =>
    rw [List.map_cons, List.mem_cons, not_or] at hk
    exact (ih hk.2).trans (Keyed.get?_insert_of_ne hk.1 _ _)

theorem contains_foldDescriptors
    (hk : Keyed.contains k rows = true ∨ k ∈ ds.map Descriptor.path) :
    Keyed.contains k (foldDescriptors p now rows ds) = true := by
  induction ds generalizing rows with
  | nil => exact hk.resolve_right List.not_mem_nil
  | cons e rest ih =>
    refine ih ?_
    by_cases he : k = e.path
    · rw [he, Keyed.contains, Keyed.get?_insert_self]
      exact Or.inl rfl
    · rw [Keyed.contains, Keyed.get?_insert_of_ne he]
      exact hk.imp_right fun hk => (List.mem_cons.1 hk).resolve_left he

/-! ### Writing -/

theorem mem_touchedPaths : k ∈ touchedPaths ds ↔ k ∈ ds.map Descriptor.path := by
  rw [touchedPaths]
  suffices ∀ (paths seen : List String),
      k ∈ paths.foldl (fun seen path => if seen.contains path then seen else seen ++ [path]) seen ↔
        k ∈ seen ∨ k ∈ paths by
    simpa using this (ds.map Descriptor.path) []
  intro paths
  induction paths with
  | nil => simp
  | cons path rest ih =>
    intro seen
    rw [List.foldl_cons, ih, List.mem_cons]
    by_cases hseen : seen.contains path = true
    · rw [if_pos hseen]
      have known : k = path → k ∈ seen := fun hk => hk ▸ List.contains_iff_mem.1 hseen
      grind
    · rw [if_neg hseen, List.mem_append, List.mem_singleton, or_assoc]

/-- To write rows leads from some rows to others, if those that differ are written. -/
theorem get?_foldl_insert {target : List (String × FieldRow)} {batch : List FieldRow}
    (hbatch : ∀ row ∈ batch, Keyed.get? row.path target = some row)
    (hrest : ∀ k, Keyed.get? k rows = Keyed.get? k target ∨ ∃ row ∈ batch, row.path = k)
    (k : String) :
    Keyed.get? k (batch.foldl (fun rows row => Keyed.insert row.path row rows) rows) =
      Keyed.get? k target := by
  induction batch generalizing rows with
  | nil => exact (hrest k).resolve_right fun ⟨_, hrow, _⟩ => List.not_mem_nil hrow
  | cons row rest ih =>
    refine ih (fun row hrow => hbatch row (List.mem_cons_of_mem _ hrow)) fun k => ?_
    by_cases hk : k = row.path
    · left
      rw [hk, Keyed.get?_insert_self, hbatch row List.mem_cons_self]
    · rw [Keyed.get?_insert_of_ne hk]
      refine (hrest k).imp_right fun ⟨other, hother, hpath⟩ => ⟨other, ?_, hpath⟩
      refine (List.mem_cons.1 hother).resolve_left ?_
      rintro rfl
      exact hk hpath.symm

/-- The rows that a batch writes are those that folding it leads to. -/
theorem AllInPlace.of_mem_writtenRows (h : AllInPlace p rows)
    (hrow : row ∈ writtenRows p now rows ds) :
    row.partition = p ∧ Keyed.get? row.path (RecordStore.foldDescriptors p now rows ds) = some row := by
  obtain ⟨k, -, hk⟩ := List.mem_filterMap.1 hrow
  obtain ⟨hp, rfl⟩ := (h.foldDescriptors now ds).get? hk
  exact ⟨hp, hk⟩

theorem AllInPlace.get?_written (h : AllInPlace p rows) (now : Instant) (ds : List Descriptor)
    (k : String) :
    Keyed.get? k ((writtenRows p now rows ds).foldl
        (fun rows row => Keyed.insert row.path row rows) rows) =
      Keyed.get? k (RecordStore.foldDescriptors p now rows ds) := by
  refine get?_foldl_insert (fun row hrow => (h.of_mem_writtenRows hrow).2) (fun k => ?_) k
  by_cases hk : k ∈ ds.map Descriptor.path
  · have found : Keyed.contains k (RecordStore.foldDescriptors p now rows ds) = true :=
      contains_foldDescriptors (.inr hk)
    obtain ⟨row, hrow⟩ := Option.isSome_iff_exists.1 found
    right
    exact ⟨row, List.mem_filterMap.2 ⟨k, mem_touchedPaths.2 hk, hrow⟩,
      ((h.foldDescriptors now ds).get? hrow).2⟩
  · exact Or.inl (get?_foldDescriptors_of_not_mem hk).symm

theorem AllInPlace.written (h : AllInPlace p rows) {batch : List FieldRow}
    (hbatch : ∀ row ∈ batch, row.partition = p) :
    AllInPlace p (batch.foldl (fun rows row => Keyed.insert row.path row rows) rows) := by
  induction batch generalizing rows with
  | nil => exact h
  | cons row rest ih =>
    refine ih (h.insert (hbatch row List.mem_cons_self) rfl) fun row hrow => ?_
    exact hbatch row (List.mem_cons_of_mem _ hrow)

end FieldRow

/-! ## Catalogs -/

namespace CatalogMap

/-- Every row stands under its path in its partition. -/
def InPlace (map : CatalogMap) : Prop := ∀ entry ∈ map, FieldRow.AllInPlace entry.1 entry.2

/-- In a partition the row of a descriptor's path covers it. -/
def Covers (map : CatalogMap) (p : Partition) (d : Descriptor) : Prop :=
  FieldRow.SomeCovers p (map.rowsOf p) d

variable {map : CatalogMap} {p q : Partition} {d : Descriptor} {ds : List Descriptor}
  {now : Instant}

theorem inPlace_nil : InPlace [] := fun _ hentry => absurd hentry List.not_mem_nil

theorem InPlace.rowsOf (h : map.InPlace) (p : Partition) :
    FieldRow.AllInPlace p (map.rowsOf p) := by
  rw [CatalogMap.rowsOf]
  cases hrows : Keyed.get? p map with
  | none => exact fun _ hentry => absurd hentry List.not_mem_nil
  | some rows => exact h (p, rows) (Keyed.mem_of_get? hrows)

theorem InPlace.insert (h : map.InPlace) {rows : List (String × FieldRow)}
    (hrows : FieldRow.AllInPlace p rows) : InPlace (Keyed.insert p rows map) := by
  intro entry hentry
  rcases Keyed.mem_insert hentry with rfl | hentry
  · exact hrows
  · exact h entry hentry

/-! ### Folding descriptors in -/

theorem rowsOf_upsert_of_ne (h : q ≠ p) (ds : List Descriptor) (now : Instant) (map : CatalogMap) :
    rowsOf q (upsert p ds now map).2 = rowsOf q map := by
  rw [upsert]
  split
  · rfl
  · simp only [rowsOf, Keyed.get?_insert_of_ne h]

theorem InPlace.get?_rowsOf_upsert (h : map.InPlace) (p : Partition) (ds : List Descriptor)
    (now : Instant) (k : String) :
    Keyed.get? k (CatalogMap.rowsOf p (CatalogMap.upsert p ds now map).2) =
      Keyed.get? k (foldDescriptors p now (map.rowsOf p) ds) := by
  rw [CatalogMap.upsert]
  split
  · next hempty =>
    rw [List.isEmpty_iff.1 hempty]
    rfl
  · rw [CatalogMap.rowsOf, Keyed.get?_insert_self, Option.getD_some]
    exact (h.rowsOf p).get?_written now ds k

theorem InPlace.upsert (h : map.InPlace) (p : Partition) (ds : List Descriptor) (now : Instant) :
    InPlace (CatalogMap.upsert p ds now map).2 := by
  rw [CatalogMap.upsert]
  split
  · exact h
  · exact h.insert ((h.rowsOf p).written fun row hrow => ((h.rowsOf p).of_mem_writtenRows hrow).1)

/-- What a catalog covers stays covered. -/
theorem Covers.upsert (hcovers : map.Covers p d) (h : map.InPlace) (q : Partition)
    (ds : List Descriptor) (now : Instant) : Covers (CatalogMap.upsert q ds now map).2 p d := by
  by_cases hp : p = q
  · subst hp
    rw [Covers, FieldRow.SomeCovers, h.get?_rowsOf_upsert]
    exact FieldRow.SomeCovers.foldDescriptors hcovers now ds
  · rw [Covers, rowsOf_upsert_of_ne hp]
    exact hcovers

/-- To fold descriptors in covers them. -/
theorem covers_upsert (h : map.InPlace) (hsound : ∀ d ∈ ds, d.IsSound) (hd : d ∈ ds) :
    Covers (upsert p ds now map).2 p d := by
  rw [Covers, FieldRow.SomeCovers, h.get?_rowsOf_upsert]
  exact FieldRow.someCovers_foldDescriptors (h.rowsOf p) hsound hd

/-! ### Folding several partitions in -/

/-- A catalog after the descriptors of some partitions. -/
def upsertAll (entries : List (Partition × List Descriptor)) (now : Instant) (map : CatalogMap) :
    CatalogMap :=
  entries.foldl (fun map entry => (upsert entry.1 entry.2 now map).2) map

variable {entries : List (Partition × List Descriptor)}

theorem InPlace.upsertAll (h : map.InPlace) (entries : List (Partition × List Descriptor))
    (now : Instant) : InPlace (CatalogMap.upsertAll entries now map) := by
  induction entries generalizing map with
  | nil => exact h
  | cons entry rest ih => exact ih (h.upsert entry.1 entry.2 now)

theorem Covers.upsertAll (hcovers : map.Covers p d) (h : map.InPlace)
    (entries : List (Partition × List Descriptor)) (now : Instant) :
    Covers (CatalogMap.upsertAll entries now map) p d := by
  induction entries generalizing map with
  | nil => exact hcovers
  | cons entry rest ih =>
    exact ih (hcovers.upsert h entry.1 entry.2 now) (h.upsert entry.1 entry.2 now)

theorem covers_upsertAll (h : map.InPlace)
    (hsound : ∀ entry ∈ entries, ∀ d ∈ entry.2, d.IsSound) (hp : (p, ds) ∈ entries) (hd : d ∈ ds) :
    Covers (upsertAll entries now map) p d := by
  induction entries generalizing map with
  | nil => exact absurd hp List.not_mem_nil
  | cons entry rest ih =>
    rcases List.mem_cons.1 hp with rfl | hp
    · have covered : Covers (upsert p ds now map).2 p d :=
        covers_upsert h (hsound _ List.mem_cons_self) hd
      exact covered.upsertAll (h.upsert p ds now) rest now
    · exact ih (h.upsert entry.1 entry.2 now)
        (fun entry hentry => hsound entry (List.mem_cons_of_mem _ hentry)) hp

/-! ### Forgetting a partition -/

theorem InPlace.deletePartition (h : map.InPlace) (p : Partition) :
    InPlace (CatalogMap.deletePartition p map).2 :=
  fun entry hentry => h entry ((Keyed.erase_sublist p map).subset hentry)

theorem rowsOf_deletePartition_of_ne (h : q ≠ p) (map : CatalogMap) :
    rowsOf q (deletePartition p map).2 = rowsOf q map := by
  simp only [deletePartition, rowsOf, Keyed.get?_erase_of_ne h]

/-- A catalog without some partitions. -/
def forget (partitions : List Partition) (map : CatalogMap) : CatalogMap :=
  partitions.foldl (fun map p => (deletePartition p map).2) map

variable {partitions : List Partition}

theorem InPlace.forget (h : map.InPlace) (partitions : List Partition) :
    InPlace (CatalogMap.forget partitions map) := by
  induction partitions generalizing map with
  | nil => exact h
  | cons q rest ih => exact ih (h.deletePartition q)

theorem rowsOf_forget_of_not_mem (h : p ∉ partitions) (map : CatalogMap) :
    rowsOf p (forget partitions map) = rowsOf p map := by
  induction partitions generalizing map with
  | nil => rfl
  | cons q rest ih =>
    rw [List.mem_cons, not_or] at h
    exact (ih h.2 _).trans (rowsOf_deletePartition_of_ne h.1 map)

end CatalogMap

end RecordStore
