import Mathlib.Data.List.Basic
import RecordStore.Proofs.Catalog.Cover

/-!
# The catalog as a map of maps

A catalog in memory is well-formed if its partitions and the paths of each stand in order, every row
stands in its place, and no partition is empty (`CatalogMap.WellFormed`). Every operation keeps that.
A well-formed catalog is determined by the row that it has for each partition and path
(`CatalogMap.row?`, `CatalogMap.WellFormed.ext`), and what an operation does is what it does to these.
-/

namespace RecordStore

/-! ## The order of partitions -/

namespace Partition

theorem parts_inj {p q : Partition} (h : p.parts = q.parts) : p = q := by
  cases p
  cases q
  simp only [parts, List.cons.injEq, and_true] at h
  simp only [mk.injEq]
  exact h

instance : Std.Asymm fun p q : Partition => p < q := ⟨fun _ _ h => List.lt_asymm h⟩

instance : Std.Trichotomous fun p q : Partition => p < q where
  trichotomous _ _ hpq hqp :=
    parts_inj (Std.Trichotomous.trichotomous (r := fun a b : List String => a < b) _ _ hpq hqp)

instance : Trans (fun p q : Partition => p < q) (fun p q : Partition => p < q)
    fun p q : Partition => p < q := ⟨fun h h' => List.lt_trans h h'⟩

end Partition

namespace CatalogMap

variable {map other : CatalogMap} {p q : Partition} {k : String} {row : FieldRow}
  {rows : List (String × FieldRow)} {ds : List Descriptor} {now : Instant}

/-! ## Rows -/

/-- The row of a path in a partition. -/
def row? (map : CatalogMap) (p : Partition) (k : String) : Option FieldRow :=
  Keyed.get? k (map.rowsOf p)

@[simp]
theorem row?_nil (p : Partition) (k : String) : row? [] p k = none := rfl

theorem rowsOf_insert (map : CatalogMap) (p q : Partition) (rows : List (String × FieldRow)) :
    rowsOf q (Keyed.insert p rows map) = if q = p then rows else rowsOf q map := by
  unfold rowsOf
  rw [Keyed.get?_insert]
  split <;> rfl

theorem rowsOf_erase (h : Keyed.Sorted map) (p q : Partition) :
    rowsOf q (Keyed.erase p map) = if q = p then [] else rowsOf q map := by
  unfold rowsOf
  rw [Keyed.get?_erase h]
  split <;> rfl

theorem rowsOf_forget (h : Keyed.Sorted map) (partitions : List Partition) (q : Partition) :
    rowsOf q (map.forget partitions) = if q ∈ partitions then [] else rowsOf q map := by
  induction partitions generalizing map with
  | nil => rfl
  | cons p rest ih =>
    refine (ih (h.erase p)).trans ?_
    rw [rowsOf_erase h]
    by_cases hq : q = p
    · simp [hq]
    · simp [hq]

/-! ## Well-formed catalogs -/

/-- The rows of a partition stand in the order of their paths, and there are some. -/
structure IsPart (p : Partition) (rows : List (String × FieldRow)) : Prop where
  sorted : Keyed.Sorted rows
  inPlace : FieldRow.AllInPlace p rows
  nonempty : rows ≠ []

/-- Partitions and paths stand in order, every row in its place, and no partition is empty. -/
structure WellFormed (map : CatalogMap) : Prop where
  sorted : Keyed.Sorted map
  parts : ∀ entry ∈ map, IsPart entry.1 entry.2

theorem wellFormed_empty : WellFormed [] :=
  ⟨Keyed.sorted_nil, fun _ hentry => absurd hentry List.not_mem_nil⟩

namespace WellFormed

theorem inPlace (h : map.WellFormed) : map.InPlace := fun entry hentry => (h.parts entry hentry).inPlace

theorem sorted_rowsOf (h : map.WellFormed) (p : Partition) : Keyed.Sorted (map.rowsOf p) := by
  unfold rowsOf
  cases hrows : Keyed.get? p map with
  | none => exact Keyed.sorted_nil
  | some rows => exact (h.parts (p, rows) (Keyed.mem_of_get? hrows)).sorted

theorem get?_eq_some_iff (h : map.WellFormed) :
    Keyed.get? p map = some rows ↔ map.rowsOf p = rows ∧ rows ≠ [] := by
  unfold rowsOf
  cases hrows : Keyed.get? p map with
  | none =>
    constructor
    · intro hnone
      simp at hnone
    · rintro ⟨rfl, hnonempty⟩
      exact absurd rfl hnonempty
  | some found =>
    have nonempty := (h.parts (p, found) (Keyed.mem_of_get? hrows)).nonempty
    constructor
    · rintro ⟨⟩
      exact ⟨rfl, nonempty⟩
    · rintro ⟨rfl, -⟩
      rfl

theorem row?_eq_some (h : map.WellFormed) (hrow : map.row? p k = some row) :
    row.partition = p ∧ row.path = k :=
  (h.inPlace.rowsOf p).get? hrow

/-- Well-formed catalogs with the same rows are the same. -/
theorem ext (h : map.WellFormed) (hother : other.WellFormed)
    (hsame : ∀ p k, map.row? p k = other.row? p k) : map = other := by
  have rows : ∀ p, map.rowsOf p = other.rowsOf p := fun p =>
    (h.sorted_rowsOf p).ext (hother.sorted_rowsOf p) (hsame p)
  apply h.sorted.ext hother.sorted
  intro p
  apply Option.ext
  intro found
  rw [h.get?_eq_some_iff, hother.get?_eq_some_iff, rows]

theorem insert (h : map.WellFormed) (hrows : IsPart p rows) :
    WellFormed (Keyed.insert p rows map) where
  sorted := h.sorted.insert p rows
  parts entry hentry := by
    rcases Keyed.mem_insert hentry with rfl | hentry
    · exact hrows
    · exact h.parts entry hentry

theorem erase (h : map.WellFormed) (p : Partition) : WellFormed (Keyed.erase p map) where
  sorted := h.sorted.erase p
  parts entry hentry := h.parts entry ((Keyed.erase_sublist p map).subset hentry)

end WellFormed

end CatalogMap

/-! ## Folding descriptors in -/

namespace FieldRow

variable {p : Partition} {now : Instant} {rows other : List (String × FieldRow)}
  {ds : List Descriptor}

/-- The row of a path after some descriptors of the path, folded in order. -/
def foldAll (p : Partition) (now : Instant) (row : Option FieldRow) (ds : List Descriptor) :
    Option FieldRow :=
  ds.foldl (fun row d => some (fold row p d now)) row

theorem foldAll_some (row : FieldRow) (ds : List Descriptor) :
    foldAll p now (some row) ds = some (ds.foldl (fun row d => row.add d now) row) := by
  induction ds generalizing row with
  | nil => rfl
  | cons d rest ih => exact ih (row.add d now)

theorem foldAll_append (row : Option FieldRow) (ds more : List Descriptor) :
    foldAll p now row (ds ++ more) = foldAll p now (foldAll p now row ds) more :=
  List.foldl_append

theorem get?_foldDescriptors (p : Partition) (now : Instant) (rows : List (String × FieldRow))
    (ds : List Descriptor) (k : String) :
    Keyed.get? k (foldDescriptors p now rows ds) =
      foldAll p now (Keyed.get? k rows) (ds.filter fun d => d.path = k) := by
  induction ds generalizing rows with
  | nil => rfl
  | cons d rest ih =>
    have step : foldDescriptors p now rows (d :: rest) = foldDescriptors p now
      (Keyed.insert d.path (fold (Keyed.get? d.path rows) p d now) rows) rest := rfl
    rw [step, ih, Keyed.get?_insert]
    by_cases hk : d.path = k
    · subst hk
      simp [foldAll]
    · simp [hk, Ne.symm hk]

/-- What is written depends on the rows of the paths of the descriptors only. -/
theorem writtenRows_congr
    (h : ∀ k ∈ ds.map Descriptor.path, Keyed.get? k rows = Keyed.get? k other) :
    writtenRows p now rows ds = writtenRows p now other ds := by
  unfold writtenRows
  apply List.filterMap_congr
  intro k hk
  rw [get?_foldDescriptors, get?_foldDescriptors, h k (mem_touchedPaths.1 hk)]

end FieldRow

namespace CatalogMap

variable {map : CatalogMap} {p q : Partition} {k : String} {ds : List Descriptor} {now : Instant}

theorem sorted_written {rows : List (String × FieldRow)} (h : Keyed.Sorted rows)
    (written : List FieldRow) :
    Keyed.Sorted (written.foldl (fun rows row => Keyed.insert row.path row rows) rows) := by
  induction written generalizing rows with
  | nil => exact h
  | cons row rest ih => exact ih (h.insert row.path row)

theorem isPart_written {rows : List (String × FieldRow)} (hsorted : Keyed.Sorted rows)
    (hplace : FieldRow.AllInPlace p rows) (hds : ds ≠ []) :
    IsPart p ((writtenRows p now rows ds).foldl
      (fun rows row => Keyed.insert row.path row rows) rows) where
  sorted := sorted_written hsorted _
  inPlace := hplace.written fun row hrow => (hplace.of_mem_writtenRows hrow).1
  nonempty := by
    intro hempty
    obtain ⟨d, rest, rfl⟩ := List.exists_cons_of_ne_nil hds
    have found := hplace.get?_written now (d :: rest) d.path
    rw [hempty, Keyed.get?_nil, FieldRow.get?_foldDescriptors, List.filter_cons_of_pos (by simp),
      ← List.singleton_append, FieldRow.foldAll_append] at found
    have written : FieldRow.foldAll p now (Keyed.get? d.path rows) [d] =
      some (.fold (Keyed.get? d.path rows) p d now) := rfl
    rw [written, FieldRow.foldAll_some] at found
    cases found

theorem WellFormed.upsert (h : map.WellFormed) (p : Partition) (ds : List Descriptor)
    (now : Instant) : WellFormed (CatalogMap.upsert p ds now map).2 := by
  rw [CatalogMap.upsert]
  split
  · exact h
  · next hds =>
    exact h.insert (isPart_written (h.sorted_rowsOf p) (h.inPlace.rowsOf p)
      fun hnil => hds (List.isEmpty_iff.2 hnil))

theorem WellFormed.row?_upsert (h : map.WellFormed) (p : Partition) (ds : List Descriptor)
    (now : Instant) (q : Partition) (k : String) :
    row? (CatalogMap.upsert p ds now map).2 q k =
      if q = p then FieldRow.foldAll p now (map.row? p k) (ds.filter fun d => d.path = k)
      else map.row? q k := by
  split
  · next hq =>
    subst hq
    rw [row?, h.inPlace.get?_rowsOf_upsert, FieldRow.get?_foldDescriptors]
    rfl
  · next hq => rw [row?, rowsOf_upsert_of_ne hq, row?]

end CatalogMap

end RecordStore
