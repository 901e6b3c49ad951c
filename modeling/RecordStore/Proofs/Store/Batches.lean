import Mathlib.Data.List.Nodup
import RecordStore.Proofs.Catalog.Repeat
import RecordStore.Proofs.Store.Indexing

/-!
# Indexing in batches

A page of records groups their descriptors by partition and leaves out repeated ones. For the row of a
path this makes no difference: after a run it is what all descriptors of the path in the records of its
partition lead to, in the order of the records (`CatalogMap.Heard`). How the records are cut into pages
therefore does not matter, and to hear the same records again changes nothing but the times of the
updates (`Store.index_eq_of_indexBatch`).
-/

namespace RecordStore

/-! ## Descriptors of a path -/

/-- What records of a partition say of a path, in their order. -/
def descriptorsOf (settings : IndexSettings) (p : Partition) (k : String) (records : List Record) :
    List Descriptor :=
  ((records.filter fun r => Partition.ofRecord r = p).flatMap fun r => r.descriptors settings).filter
    fun d => d.path = k

section

variable {settings : IndexSettings} {p : Partition} {k : String} {records more : List Record}

theorem descriptorsOf_append :
    descriptorsOf settings p k (records ++ more) =
      descriptorsOf settings p k records ++ descriptorsOf settings p k more := by
  simp only [descriptorsOf, List.filter_append, List.flatMap_append]

theorem isBuilt_descriptorsOf : ∀ d ∈ descriptorsOf settings p k records, d.IsBuilt := by
  intro d hd
  obtain ⟨r, -, hr⟩ := List.mem_flatMap.1 (List.mem_filter.1 hd).1
  exact Record.isBuilt_descriptors hr

end

/-! ## Pages -/

namespace CatalogMap

variable {map old new other : CatalogMap} {settings : IndexSettings} {now : Instant}
  {done : List Record} {p q : Partition} {k : String}

theorem WellFormed.upsertAll (h : map.WellFormed) (entries : List (Partition × List Descriptor))
    (now : Instant) : WellFormed (CatalogMap.upsertAll entries now map) := by
  induction entries generalizing map with
  | nil => exact h
  | cons entry rest ih => exact ih (h.upsert entry.1 entry.2 now)

/-- The row of a path after the descriptors of different partitions. -/
theorem WellFormed.row?_upsertAll (h : map.WellFormed) {partitions : List Partition}
    (hnodup : partitions.Nodup) (ds : Partition → List Descriptor) (now : Instant) :
    row? (CatalogMap.upsertAll (partitions.map fun p => (p, ds p)) now map) q k =
      if q ∈ partitions then
        FieldRow.foldAll q now (map.row? q k) ((ds q).filter fun d => d.path = k)
      else map.row? q k := by
  induction partitions generalizing map with
  | nil => rfl
  | cons p rest ih =>
    obtain ⟨hp, hrest⟩ := List.nodup_cons.1 hnodup
    have step := ih (h.upsert p (ds p) now) hrest
    rw [h.row?_upsert] at step
    refine step.trans ?_
    by_cases hq : q = p
    · subst hq
      simp [hp]
    · simp [hq]

/-- After a page the row of a path is what its records say of it. -/
theorem WellFormed.row?_page (h : map.WellFormed) (page : List Record) (now : Instant) :
    row? (CatalogMap.upsertAll (descriptorsByPartition settings page) now map) p k =
      FieldRow.foldAll p now (map.row? p k) (descriptorsOf settings p k page) := by
  have nodup : (Keyed.keys (Keyed.ofList (page.map fun r => (Partition.ofRecord r, ())))).Nodup :=
    (Keyed.sorted_ofList _).imp Keyed.ne_of_lt
  unfold descriptorsByPartition
  rw [h.row?_upsertAll nodup]
  split
  · rw [filter_eraseDups]
    exact FieldRow.foldAll_eraseDups p now _ isBuilt_descriptorsOf
  · next hp =>
    have none : descriptorsOf settings p k page = [] := by
      have others : (page.filter fun r => Partition.ofRecord r = p) = [] := by
        rw [List.filter_eq_nil_iff]
        intro r hr hpart
        apply hp
        rw [Keyed.mem_keys_ofList, ← of_decide_eq_true hpart]
        exact List.mem_map_of_mem (List.mem_map_of_mem hr)
      rw [descriptorsOf, others]
      rfl
    rw [none]
    rfl

/-! ## Records that have been heard -/

/-- A catalog after some records, each row of which is what they say of its path. -/
structure Heard (settings : IndexSettings) (now : Instant) (old : CatalogMap) (done : List Record)
    (new : CatalogMap) : Prop where
  wellFormed : new.WellFormed
  rows : ∀ p k, new.row? p k =
    FieldRow.foldAll p now (old.row? p k) (descriptorsOf settings p k done)

theorem Heard.refl (settings : IndexSettings) (now : Instant) (h : old.WellFormed) :
    old.Heard settings now [] old :=
  ⟨h, fun _ _ => rfl⟩

theorem Heard.page (h : old.Heard settings now done new) (page : List Record) :
    old.Heard settings now (done ++ page)
      (upsertAll (descriptorsByPartition settings page) now new) where
  wellFormed := h.wellFormed.upsertAll _ now
  rows p k := by
    rw [h.wellFormed.row?_page, h.rows, descriptorsOf_append, FieldRow.foldAll_append]

theorem Heard.unique (h : old.Heard settings now done new) (h' : old.Heard settings now done other) :
    new = other :=
  h.wellFormed.ext h'.wellFormed fun p k => by rw [h.rows, h'.rows]

/-- Two catalogs have the same rows, some of which have been updated at an instant in the second. -/
def UpdatedTo (t : Instant) (old new : CatalogMap) : Prop :=
  ∀ p k, new.row? p k = old.row? p k ∨
    ∃ row, old.row? p k = some row ∧ new.row? p k = some { row with updatedAt := t }

/-- To hear records again changes the times of updates only, and nothing at the same instant. -/
theorem Heard.again {t : Instant} (h : old.Heard settings now done new)
    (hagain : new.Heard settings t done other) :
    new.UpdatedTo t other ∧ (t = now → other = new) := by
  constructor
  · intro p k
    rw [hagain.rows]
    by_cases hds : descriptorsOf settings p k done = []
    · left
      rw [hds]
      rfl
    · right
      obtain ⟨row, hrow, -, hupdated⟩ :=
        FieldRow.foldAll_again p now t (old.row? p k) isBuilt_descriptorsOf hds
      rw [h.rows, hrow]
      exact ⟨row, rfl, hupdated⟩
  · rintro rfl
    apply hagain.wellFormed.ext h.wellFormed
    intro p k
    rw [hagain.rows, h.rows]
    by_cases hds : descriptorsOf settings p k done = []
    · rw [hds]
      rfl
    · obtain ⟨row, hrow, hupdatedAt, hupdated⟩ :=
        FieldRow.foldAll_again p t t (old.row? p k) isBuilt_descriptorsOf hds
      rw [hrow, hupdated, ← hupdatedAt]

end CatalogMap

namespace Store

open Collection

/-! ## Counts -/

section

variable {seen : List Partition} {entries : List (Partition × List Descriptor)} {p : Partition}
  {settings : IndexSettings} {page : List Record}

theorem nodup_seenAfter (h : seen.Nodup) (entry : Partition × List Descriptor) :
    (seenAfter seen entry).Nodup := by
  unfold seenAfter
  split
  · exact h
  · next hnew =>
    rw [Bool.or_eq_true, not_or, List.contains_iff_mem] at hnew
    exact h.append (List.nodup_singleton _) (by simpa using hnew.2)

theorem mem_seenAfter {entry : Partition × List Descriptor} :
    p ∈ seenAfter seen entry ↔ p ∈ seen ∨ (entry.1 = p ∧ entry.2 ≠ []) := by
  unfold seenAfter
  split
  · next hknown =>
    rw [Bool.or_eq_true, List.isEmpty_iff, List.contains_iff_mem] at hknown
    constructor
    · exact Or.inl
    · rintro (hp | ⟨rfl, hds⟩)
      · exact hp
      · exact hknown.resolve_left hds
  · next hnew =>
    rw [Bool.or_eq_true, not_or, List.isEmpty_iff] at hnew
    rw [List.mem_append, List.mem_singleton]
    constructor
    · rintro (hp | rfl)
      · exact .inl hp
      · exact .inr ⟨rfl, hnew.1⟩
    · rintro (hp | ⟨rfl, -⟩)
      · exact .inl hp
      · exact .inr rfl

theorem nodup_foldl_seenAfter (h : seen.Nodup) (entries : List (Partition × List Descriptor)) :
    (entries.foldl seenAfter seen).Nodup := by
  induction entries generalizing seen with
  | nil => exact h
  | cons entry rest ih => exact ih (nodup_seenAfter h entry)

theorem mem_foldl_seenAfter :
    p ∈ entries.foldl seenAfter seen ↔ p ∈ seen ∨ ∃ entry ∈ entries, entry.1 = p ∧ entry.2 ≠ [] := by
  induction entries generalizing seen with
  | nil => simp
  | cons entry rest ih => rw [List.foldl_cons, ih, mem_seenAfter, or_assoc, List.exists_mem_cons_iff]

/-- A page writes to the partitions of the records that have descriptors. -/
theorem exists_descriptorsByPartition :
    (∃ entry ∈ descriptorsByPartition settings page, entry.1 = p ∧ entry.2 ≠ []) ↔
      ∃ r ∈ page, Partition.ofRecord r = p ∧ r.descriptors settings ≠ [] := by
  constructor
  · rintro ⟨entry, hentry, rfl, hds⟩
    obtain ⟨p, -, rfl⟩ := List.mem_map.1 hentry
    obtain ⟨d, hd⟩ := List.exists_mem_of_ne_nil _ hds
    obtain ⟨r, hr, hdr⟩ := List.mem_flatMap.1 (List.mem_eraseDups.1 hd)
    obtain ⟨hr, hp⟩ := List.mem_filter.1 hr
    exact ⟨r, hr, of_decide_eq_true hp, List.ne_nil_of_mem hdr⟩
  · rintro ⟨r, hr, rfl, hds⟩
    obtain ⟨d, hd⟩ := List.exists_mem_of_ne_nil _ hds
    obtain ⟨ds, hentry, hmem⟩ := exists_mem_descriptorsByPartition hr hd
    exact ⟨_, hentry, rfl, List.ne_nil_of_mem hmem⟩

end

/-- How far a run has come that has seen some records. -/
structure Counts (settings : IndexSettings) (done : List Record) (state : IndexState) : Prop where
  recordsIndexed : state.recordsIndexed = done.length
  nodup : state.seen.Nodup
  mem_seen : ∀ p, p ∈ state.seen ↔
    ∃ r ∈ done, Partition.ofRecord r = p ∧ r.descriptors settings ≠ []

variable {settings : IndexSettings} {done : List Record} {state other : IndexState}

theorem counts_start (settings : IndexSettings) : Counts settings [] ⟨0, 0, []⟩ :=
  ⟨rfl, List.nodup_nil, fun p => by simp⟩

theorem Counts.page (h : Counts settings done state) (page : List Record) (written : Nat) :
    Counts settings (done ++ page) ⟨state.recordsIndexed + page.length, written,
      (descriptorsByPartition settings page).foldl seenAfter state.seen⟩ where
  recordsIndexed := by rw [h.recordsIndexed, List.length_append]
  nodup := nodup_foldl_seenAfter h.nodup _
  mem_seen p := by
    rw [mem_foldl_seenAfter, exists_descriptorsByPartition, h.mem_seen]
    simp only [List.mem_append, or_and_right, exists_or]

theorem Counts.length_seen_eq (h : Counts settings done state)
    (hother : Counts settings done other) : state.seen.length = other.seen.length := by
  apply List.Perm.length_eq
  rw [List.perm_ext_iff_of_nodup h.nodup hother.nodup]
  exact fun p => (h.mem_seen p).trans (hother.mem_seen p).symm

/-! ## Runs -/

theorem result_index_heard (store : Store collectionBackend) {w : World collectionBackend}
    (h : w.records.WellFormed) (hfields : w.fields.WellFormed) (since : Option Instant)
    (settings : IndexSettings) (hsize : store.config.indexBatch ≠ 0) :
    ∃ final fields, (store.index since settings).result w =
        (.ok ⟨w.clock, final.recordsIndexed, final.fieldsWritten, final.seen.length⟩,
          w.withFields fields) ∧
      Counts settings (passing (fun r => (indexClause since).holds r) w.records) final ∧
      w.fields.Heard settings w.clock
        (passing (fun r => (indexClause since).holds r) w.records) fields :=
  store.result_index_of_pages
    (R := fun done state fields =>
      Counts settings done state ∧ w.fields.Heard settings w.clock done fields)
    h since settings hsize ⟨counts_start settings, .refl settings w.clock hfields⟩
    fun _ _ _ hdone page written => ⟨hdone.1.page page written, hdone.2.page page⟩

/-- Runs of the same job that differ in their batch sizes only succeed both, lead to the same world, and
report the same numbers of records and of partitions. To run again, at whatever instant and with
whatever batch size, reports these numbers again and changes the times of updates in the catalog only,
and nothing at all as long as the clock stands still. -/
theorem index_eq_of_indexBatch (store other : Store collectionBackend)
    {w : World collectionBackend} (h : w.records.WellFormed) (hfields : w.fields.WellFormed)
    (since : Option Instant) (settings : IndexSettings) (hsize : store.config.indexBatch ≠ 0)
    (hother : other.config.indexBatch ≠ 0) :
    ∃ v stats stats', (store.index since settings).result w = (.ok stats, v) ∧
      (other.index since settings).result w = (.ok stats', v) ∧
      stats.recordsIndexed = stats'.recordsIndexed ∧ stats.partitions = stats'.partitions ∧
      v.records = w.records ∧
      ∀ t, ∃ again fields, (other.index since settings).result { v with clock := t } =
          (.ok again, { v.withFields fields with clock := t }) ∧
        again.recordsIndexed = stats.recordsIndexed ∧ again.partitions = stats.partitions ∧
        v.fields.UpdatedTo t fields ∧ (t = w.clock → fields = v.fields) := by
  obtain ⟨final, fields, hindex, hcounts, hheard⟩ :=
    store.result_index_heard h hfields since settings hsize
  obtain ⟨final', fields', hindex', hcounts', hheard'⟩ :=
    other.result_index_heard h hfields since settings hother
  cases hheard.unique hheard'
  refine ⟨w.withFields fields, _, _, hindex, hindex',
    hcounts.recordsIndexed.trans hcounts'.recordsIndexed.symm, hcounts.length_seen_eq hcounts', rfl,
    fun t => ?_⟩
  let v : World collectionBackend := { w.withFields fields with clock := t }
  have wellFormed : v.fields.WellFormed := hheard.wellFormed
  obtain ⟨last, fields', hagain, hcounted, hheard'⟩ :=
    other.result_index_heard (w := v) h wellFormed since settings hother
  obtain ⟨hupdated, hsame⟩ := hheard.again hheard'
  exact ⟨_, fields', hagain, hcounted.recordsIndexed.trans hcounts.recordsIndexed.symm,
    hcounted.length_seen_eq hcounts, hupdated, hsame⟩

/-- A path that a plain row of the catalog has already, and that is heard of as a number and as a text,
in one page or in two. -/
theorem index_eq_of_indexBatch_one :
    let draft (fields : Fields) : Draft := ⟨"app", "g", "t", .object fields, true, none⟩
    let first := Record.ofDraft (draft [("a", .int 1), ("b", .array [.null])]) "r" 1 default
    let second := Record.ofDraft (draft [("a", .string "x"), ("b", .array [.int 2])]) "s" 2 default
    let fields : CatalogMap := (CatalogMap.upsert ⟨"app", "g", "t"⟩ [.leaf "a" .null] 1 []).2
    let w : World collectionBackend :=
      ⟨⟨[("r", first), ("s", second)], fields⟩, 2, ⟨[], "s", 1⟩, none⟩
    let store : Store collectionBackend := ⟨(), .default⟩
    let other : Store collectionBackend := ⟨(), { StoreConfig.default with indexBatch := 1 }⟩
    w.records.WellFormed ∧ fields.WellFormed ∧ store.config.indexBatch ≠ 0 ∧
      other.config.indexBatch ≠ 0 ∧
      ∃ v stats stats', (store.index (some 1) .empty).result w = (.ok stats, v) ∧
        (other.index (some 1) .empty).result w = (.ok stats', v) ∧
        stats.recordsIndexed = stats'.recordsIndexed ∧ stats.partitions = stats'.partitions ∧
        v.records = w.records ∧
        ∀ t, ∃ again fields, (other.index (some 1) .empty).result { v with clock := t } =
            (.ok again, { v.withFields fields with clock := t }) ∧
          again.recordsIndexed = stats.recordsIndexed ∧ again.partitions = stats.partitions ∧
          v.fields.UpdatedTo t fields ∧ (t = w.clock → fields = v.fields) := by
  intro draft first second fields w store other
  have inserted : w.records = Keyed.insert first.id first (Keyed.insert second.id second []) := by
    decide +kernel
  have records : w.records.WellFormed := by
    rw [inserted]
    exact (wellFormed_nil.insertOne second).insertOne first
  have fields : fields.WellFormed := CatalogMap.wellFormed_empty.upsert _ _ _
  have size : store.config.indexBatch ≠ 0 := by decide
  have size' : other.config.indexBatch ≠ 0 := by decide
  exact ⟨records, fields, size, size',
    index_eq_of_indexBatch store other records fields (some 1) .empty size size'⟩

end Store

end RecordStore
