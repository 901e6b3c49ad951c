import Mathlib.Data.List.Induction
import RecordStore.Proofs.Catalog.Growth

/-!
# The order of descriptors

What a row knows after some descriptors of its path does not depend on their order
(`FieldRow.foldAll_eq_summary`): its types are all of theirs, and if one of them is compressed, the
row is so too and its type stands for the types of all compressed ones. A plain row keeps the type of
the first one. So it does not matter in which order descriptors are folded into an empty catalog, and
with how many calls (`CatalogMap.upsertEach_confluent`).
-/

namespace RecordStore

/-! ## Unions of sets of types -/

namespace TypeSet

/-- The types of some sets together. -/
def unionAll (sets : List TypeSet) : TypeSet := sets.foldl union empty

theorem unionAll_concat (sets : List TypeSet) (types : TypeSet) :
    unionAll (sets ++ [types]) = (unionAll sets).union types := by
  rw [unionAll, List.foldl_append]
  rfl

theorem empty_union (types : TypeSet) : empty.union types = types := by
  refine ext fun t => ?_
  rw [contains_union]
  cases t <;> rfl

theorem contains_unionAll (sets : List TypeSet) (t : LeafType) :
    (unionAll sets).contains t = sets.any (·.contains t) := by
  induction sets using List.reverseRecOn with
  | nil => cases t <;> rfl
  | append_singleton sets types ih =>
    rw [unionAll_concat, contains_union, ih, List.any_append, List.any_cons, List.any_nil,
      Bool.or_false]

theorem unionAll_perm {sets others : List TypeSet} (h : sets.Perm others) :
    unionAll sets = unionAll others := by
  refine ext fun t => ?_
  rw [contains_unionAll, contains_unionAll, h.any_eq]

end TypeSet

/-! ## Rows -/

namespace Descriptor

/-- The types of the compressed ones of some descriptors, if there are any. -/
def elementTypes? (ds : List Descriptor) : Option TypeSet :=
  if ds.any isCompressed then some (.unionAll ((ds.filter isCompressed).map types)) else none

variable {ds others : List Descriptor} {d : Descriptor}

theorem elementTypes?_perm (h : ds.Perm others) : elementTypes? ds = elementTypes? others := by
  rw [elementTypes?, elementTypes?, h.any_eq, TypeSet.unionAll_perm ((h.filter _).map types)]

theorem elementTypes?_concat (ds : List Descriptor) (d : Descriptor) :
    elementTypes? (ds ++ [d]) =
      if d.isCompressed then some (((elementTypes? ds).getD .empty).union d.types)
      else elementTypes? ds := by
  have known : (elementTypes? ds).getD .empty = .unionAll ((ds.filter isCompressed).map types) := by
    rw [elementTypes?]
    split
    · rfl
    · next hnone =>
      have plain : ds.filter isCompressed = [] :=
        List.filter_eq_nil_iff.2 fun e he hcompressed => hnone (List.any_eq_true.2 ⟨e, he, hcompressed⟩)
      rw [plain]
      rfl
  rw [known, elementTypes?, elementTypes?, List.any_append, List.filter_append, List.map_append]
  cases hd : d.isCompressed with
  | true => simp [hd, TypeSet.unionAll_concat]
  | false => simp [hd]

theorem isSome_elementTypes? (ds : List Descriptor) :
    (elementTypes? ds).isSome = ds.any isCompressed := by
  rw [elementTypes?]
  split
  · next h => exact h.symm
  · next h => exact (Bool.eq_false_iff.2 h).symm

end Descriptor

namespace FieldRow

variable {p : Partition} {now : Instant} {first : Descriptor} {ds others : List Descriptor}

/-- What some descriptors of one path, of which one is the first, say of it. -/
def summary (p : Partition) (now : Instant) (first : Descriptor) (ds : List Descriptor) : FieldRow where
  partition := p
  path := first.path
  type := ((Descriptor.elementTypes? ds).map TypeSet.representative).getD first.type
  arrayTypes := Descriptor.elementTypes? ds
  valueTypes := .unionAll (ds.map Descriptor.types)
  isCompressed := (Descriptor.elementTypes? ds).isSome
  createdAt := now
  updatedAt := now

theorem start_eq_summary (p : Partition) (now : Instant) (h : first.IsBuilt) :
    start p first now = summary p now first [first] := by
  cases h with
  | leaf path type =>
    simp [start, summary, Descriptor.elementTypes?, Descriptor.leaf, Descriptor.types,
      TypeSet.unionAll, TypeSet.empty_union]
  | compressed path htypes =>
    simp [start, summary, Descriptor.elementTypes?, Descriptor.compressed, Descriptor.types,
      TypeSet.unionAll, TypeSet.empty_union]

theorem summary_add (p : Partition) (now : Instant) (first : Descriptor) (ds : List Descriptor)
    (d : Descriptor) : (summary p now first ds).add d now = summary p now first (ds ++ [d]) := by
  rw [summary, summary, add, Descriptor.elementTypes?_concat, List.map_append, List.map_singleton,
    TypeSet.unionAll_concat]
  cases d.isCompressed <;> rfl

/-- Descriptors of a path that are folded in one after the other leave their summary. -/
theorem foldAll_eq_summary (p : Partition) (now : Instant) (h : first.IsBuilt)
    (rest : List Descriptor) :
    foldAll p now none (first :: rest) = some (summary p now first (first :: rest)) := by
  induction rest using List.reverseRecOn with
  | nil => exact congrArg some (start_eq_summary p now h)
  | append_singleton rest d ih =>
    rw [← List.cons_append, foldAll_append, ih]
    exact congrArg some (summary_add p now first (first :: rest) d)

/-- What is folded at a path into an empty catalog. -/
theorem foldAll_cases (p : Partition) (now : Instant) (hbuilt : ∀ d ∈ ds, d.IsBuilt) (k : String) :
    (k ∉ ds.map Descriptor.path ∧ foldAll p now none (ds.filter fun d => d.path = k) = none) ∨
      ∃ first rest, ds.filter (fun d => d.path = k) = first :: rest ∧ k ∈ ds.map Descriptor.path ∧
        foldAll p now none (ds.filter fun d => d.path = k) =
          some (summary p now first (first :: rest)) := by
  cases hds : ds.filter fun d => d.path = k with
  | nil =>
    refine .inl ⟨fun hk => ?_, rfl⟩
    obtain ⟨d, hd, hpath⟩ := List.mem_map.1 hk
    exact List.filter_eq_nil_iff.1 hds d hd (decide_eq_true hpath)
  | cons first rest =>
    have mem : first ∈ ds.filter fun d => d.path = k := hds ▸ List.mem_cons_self
    obtain ⟨hmem, hpath⟩ := List.mem_filter.1 mem
    exact .inr ⟨first, rest, rfl, List.mem_map.2 ⟨first, hmem, of_decide_eq_true hpath⟩,
      foldAll_eq_summary p now (hbuilt first hmem) rest⟩

/-- A summary does not depend on the order but for the type that it has from the first descriptor, and
it has none from it if one is compressed. -/
theorem summary_perm (p : Partition) (now : Instant) {other : Descriptor}
    (hpath : other.path = first.path) (h : ds.Perm others) :
    summary p now other others =
        { summary p now first ds with type := (summary p now other others).type } ∧
      (ds.any Descriptor.isCompressed = true →
        (summary p now other others).type = (summary p now first ds).type) := by
  rw [← Descriptor.isSome_elementTypes?, summary, summary, hpath, Descriptor.elementTypes?_perm h,
    TypeSet.unionAll_perm (h.map Descriptor.types)]
  refine ⟨rfl, fun hcompressed => ?_⟩
  obtain ⟨types, htypes⟩ := Option.isSome_iff_exists.1 hcompressed
  rw [htypes]
  rfl

/-- A row has the type of the first descriptor of its path if none of them is compressed. -/
def HasFirstType (row : FieldRow) (ds : List Descriptor) : Prop :=
  (∀ d ∈ ds, d.path = row.path → d.isCompressed = false) →
    (ds.find? fun d => d.path = row.path).map Descriptor.type = some row.type

end FieldRow

/-! ## Catalogs -/

/-- The rows of a partition after some calls at one instant, each with some descriptors. -/
def Catalog.rowsAfter {σ : Type} (catalog : Catalog σ) (p : Partition) (now : Instant)
    (batches : List (List Descriptor)) : Effect σ (List FieldRow) := do
  catalog.upsertEach p (batches.map fun ds => (ds, now))
  catalog.rows p

namespace CatalogMap

variable {map : CatalogMap} {p : Partition} {now : Instant} {batches others : List (List Descriptor)}

/-- How a list of descriptors is cut into calls does not matter to the rows. -/
theorem row?_upsertEach (h : map.WellFormed) (p : Partition) (now : Instant)
    (batches : List (List Descriptor)) :
    ∃ new, (memoryCatalog.upsertEach p (batches.map fun ds => (ds, now))).result map = (.ok (), new) ∧
      new.WellFormed ∧ ∀ k, new.row? p k =
        FieldRow.foldAll p now (map.row? p k) (batches.flatten.filter fun d => d.path = k) := by
  induction batches generalizing map with
  | nil => exact ⟨map, rfl, h, fun _ => rfl⟩
  | cons ds rest ih =>
    obtain ⟨new, hnew, hwellFormed, hrows⟩ := ih (h.upsert p ds now)
    refine ⟨new, hnew, hwellFormed, fun k => ?_⟩
    rw [hrows, h.row?_upsert, if_pos rfl, List.flatten_cons, List.filter_append,
      FieldRow.foldAll_append]

/-- The rows of an empty catalog after some calls: one for each path, each the summary of the
descriptors of its path. -/
structure Summarizes (rows : List FieldRow) (p : Partition) (now : Instant) (ds : List Descriptor) :
    Prop where
  sorted : (rows.map FieldRow.path).Pairwise (· < ·)
  paths : ∀ k, k ∈ rows.map FieldRow.path ↔ k ∈ ds.map Descriptor.path
  rows : ∀ row ∈ rows, ∃ first rest, ds.filter (fun d => d.path = row.path) = first :: rest ∧
    row = .summary p now first (first :: rest)

theorem summarizes_rowsAfter (p : Partition) (now : Instant)
    (hbuilt : ∀ d ∈ batches.flatten, d.IsBuilt) :
    ∃ rows, ((memoryCatalog.rowsAfter p now batches).result []).1 = .ok rows ∧
      Summarizes rows p now batches.flatten := by
  obtain ⟨new, hnew, hwellFormed, hrows⟩ := row?_upsertEach wellFormed_empty p now batches
  have sorted := hwellFormed.sorted_rowsOf p
  have inPlace := hwellFormed.inPlace.rowsOf p
  refine ⟨Keyed.values (new.rowsOf p), ?_, inPlace.map_path ▸ sorted, fun k => ?_, fun row hrow => ?_⟩
  · rw [Catalog.rowsAfter, Effect.result_bind_ok hnew]
    rfl
  · rw [inPlace.map_path, ← Keyed.contains_iff_mem_keys, Keyed.contains, ← row?, hrows, row?_nil]
    rcases FieldRow.foldAll_cases p now hbuilt k with ⟨habsent, hnone⟩ | ⟨first, rest, hds, hmem, hsome⟩
    · rw [hnone]
      exact iff_of_false Bool.false_ne_true habsent
    · rw [hsome]
      exact iff_of_true rfl hmem
  · obtain ⟨⟨k, _⟩, hentry, rfl⟩ := List.mem_map.1 hrow
    have hpath := (inPlace _ hentry).2
    have found := ((Keyed.mem_iff_get? sorted).1 hentry).symm.trans (hrows k)
    rcases FieldRow.foldAll_cases p now hbuilt k with ⟨-, hnone⟩ | ⟨first, rest, hds, -, hsome⟩
    · cases found.trans hnone
    · cases found.trans hsome
      exact ⟨first, rest, hpath ▸ hds, rfl⟩

variable {rows otherRows : List FieldRow} {ds moved : List Descriptor}

theorem Summarizes.perm (h : Summarizes rows p now ds) (h' : Summarizes otherRows p now moved)
    (hperm : ds.Perm moved) : ∀ row ∈ rows, ∀ other ∈ otherRows, other.path = row.path →
      other = { row with type := other.type } ∧
        ((∃ d ∈ ds, d.path = row.path ∧ d.isCompressed = true) → other.type = row.type) := by
  intro row hrow other hother hpath
  obtain ⟨first, rest, hds, hsummary⟩ := h.rows row hrow
  obtain ⟨first', rest', hmoved, hsummary'⟩ := h'.rows other hother
  have perm : (first :: rest).Perm (first' :: rest') := by
    rw [← hds, ← hmoved, hpath]
    exact hperm.filter _
  have same : first'.path = first.path := by
    have firsts : row.path = first.path ∧ other.path = first'.path :=
      ⟨congrArg FieldRow.path hsummary, congrArg FieldRow.path hsummary'⟩
    rw [← firsts.1, ← firsts.2, hpath]
  obtain ⟨agrees, type⟩ := FieldRow.summary_perm p now same perm
  rw [hsummary, hsummary']
  refine ⟨agrees, fun ⟨d, hd, hdpath, hcompressed⟩ => type (List.any_eq_true.2 ⟨d, ?_, hcompressed⟩)⟩
  rw [← hds, hsummary]
  exact List.mem_filter.2 ⟨hd, decide_eq_true hdpath⟩

theorem Summarizes.hasFirstType (h : Summarizes rows p now ds) :
    ∀ row ∈ rows, row.HasFirstType ds := by
  intro row hrow hplain
  obtain ⟨first, rest, hds, hsummary⟩ := h.rows row hrow
  have none : Descriptor.elementTypes? (first :: rest) = none := by
    rw [← Option.not_isSome_iff_eq_none, Descriptor.isSome_elementTypes?, ← hds, List.any_eq_true]
    rintro ⟨d, hd, hcompressed⟩
    obtain ⟨hmem, hpath⟩ := List.mem_filter.1 hd
    rw [hplain d hmem (of_decide_eq_true hpath)] at hcompressed
    cases hcompressed
  rw [← List.head?_filter, hds, hsummary, FieldRow.summary, none]
  rfl

/-- Whatever the order of some descriptors is, and whatever calls they are cut into: folded into an
empty catalog at one instant, they leave the same rows, but for the types of plain ones. A plain row
has the type of the first descriptor of its path. -/
theorem upsertEach_confluent (p : Partition) (now : Instant)
    (hbuilt : ∀ d ∈ batches.flatten, d.IsBuilt) (hperm : batches.flatten.Perm others.flatten) :
    ∃ rows otherRows, ((memoryCatalog.rowsAfter p now batches).result []).1 = .ok rows ∧
      ((memoryCatalog.rowsAfter p now others).result []).1 = .ok otherRows ∧
      rows.map FieldRow.path = otherRows.map FieldRow.path ∧
      (∀ k, k ∈ rows.map FieldRow.path ↔ k ∈ batches.flatten.map Descriptor.path) ∧
      (∀ row ∈ rows, ∀ other ∈ otherRows, other.path = row.path →
        other = { row with type := other.type } ∧
          ((∃ d ∈ batches.flatten, d.path = row.path ∧ d.isCompressed = true) →
            other.type = row.type)) ∧
      (∀ row ∈ rows, row.HasFirstType batches.flatten) ∧
      ∀ other ∈ otherRows, other.HasFirstType others.flatten := by
  obtain ⟨rows, hrows, summarizes⟩ := summarizes_rowsAfter p now hbuilt
  have builtOthers : ∀ d ∈ others.flatten, d.IsBuilt := fun d hd => hbuilt d (hperm.mem_iff.2 hd)
  obtain ⟨otherRows, hothers, summarizes'⟩ := summarizes_rowsAfter p now builtOthers
  refine ⟨rows, otherRows, hrows, hothers, ?_, summarizes.paths, summarizes.perm summarizes' hperm,
    summarizes.hasFirstType, summarizes'.hasFirstType⟩
  refine eq_of_pairwise_of_mem_iff (fun _ _ => String.lt_asymm) summarizes.sorted summarizes'.sorted
    fun k => ?_
  rw [summarizes.paths, summarizes'.paths, (hperm.map Descriptor.path).mem_iff]

/-- Four descriptors in one call, and in the opposite order in two others. One path is plain and has
different types; at the other a plain descriptor stands before a compressed one, and behind it. -/
theorem upsertEach_confluent_plain_row :
    let p : Partition := ⟨"app", "group", "tag"⟩
    let ds : List Descriptor := [.leaf "a" .number, .leaf "b" .null, .leaf "a" .string,
      .compressed "b" ((TypeSet.singleton .number).union (.singleton .boolean))]
    let batches := [ds]
    let others := [[ds[3], ds[2]], [], [ds[1], ds[0]]]
    (∀ d ∈ batches.flatten, d.IsBuilt) ∧ batches.flatten.Perm others.flatten ∧
      ∃ rows otherRows, ((memoryCatalog.rowsAfter p 5 batches).result []).1 = .ok rows ∧
        ((memoryCatalog.rowsAfter p 5 others).result []).1 = .ok otherRows ∧
        rows.map FieldRow.type = [.number, .string] ∧
        otherRows.map FieldRow.type = [.string, .string] ∧
        ∀ row ∈ rows, ∀ other ∈ otherRows, other.path = row.path →
          other = { row with type := other.type } := by
  intro p ds batches others
  have built : ∀ d ∈ batches.flatten, d.IsBuilt := by decide
  have perm : batches.flatten.Perm others.flatten := by decide
  obtain ⟨rows, otherRows, hrows, hothers, -, -, agree, -, -⟩ :=
    upsertEach_confluent p 5 built perm
  refine ⟨built, perm, rows, otherRows, hrows, hothers, ?_, ?_,
    fun row hrow other hother hpath => (agree row hrow other hother hpath).1⟩
  · cases hrows
    decide +kernel
  · cases hothers
    decide +kernel

end CatalogMap

end RecordStore
