import RecordStore.Proofs.Catalog.Cover
import RecordStore.Proofs.Double.Monotone
import RecordStore.Proofs.Store.Walk
import RecordStore.Store.Indexing

/-!
# Indexing runs

An indexing run visits every record that its clause asks for, page by page, and folds the descriptors
of each page into the catalog. Therefore the catalog covers them all afterwards, and forgets nothing
(`Store.result_index`). No record that has been updated at or after the instant of the clause is
missed, although instants are compared as doubles (`Store.holds_indexClause`).
-/

namespace RecordStore

open Collection

/-! ## Descriptors of records -/

theorem Record.isBuilt_descriptors {r : Record} {settings : IndexSettings} {d : Descriptor}
    (h : d ∈ r.descriptors settings) : d.IsBuilt := by
  obtain ⟨entry, hentry, rfl⟩ := List.mem_map.1 h
  split at hentry
  · exact Value.isBuilt_index (List.mem_filter.1 hentry).1
  · exact Value.isBuilt_index hentry

section

variable {settings : IndexSettings} {records : List Record} {r : Record} {d : Descriptor}

theorem isSound_descriptorsByPartition :
    ∀ entry ∈ descriptorsByPartition settings records, ∀ d ∈ entry.2, d.IsSound := by
  intro entry hentry d hd
  obtain ⟨p, -, rfl⟩ := List.mem_map.1 hentry
  obtain ⟨r, -, hr⟩ := List.mem_flatMap.1 (List.mem_eraseDups.1 hd)
  exact (Record.isBuilt_descriptors hr).isSound

theorem exists_mem_descriptorsByPartition (hr : r ∈ records) (hd : d ∈ r.descriptors settings) :
    ∃ ds, (Partition.ofRecord r, ds) ∈ descriptorsByPartition settings records ∧ d ∈ ds := by
  have partition : Partition.ofRecord r ∈
      Keyed.keys (Keyed.ofList (records.map fun r => (Partition.ofRecord r, ()))) :=
    Keyed.mem_keys_ofList.2 (List.mem_map_of_mem (List.mem_map_of_mem hr))
  refine ⟨_, List.mem_map_of_mem partition, List.mem_eraseDups.2 ?_⟩
  exact List.mem_flatMap.2 ⟨r, List.mem_filter.2 ⟨hr, by simp⟩, hd⟩

end

/-! ## What a run adds -/

namespace CatalogMap

/-- A catalog covers all that is to be indexed of a record. -/
def CoversRecord (settings : IndexSettings) (map : CatalogMap) (r : Record) : Prop :=
  ∀ d ∈ r.descriptors settings, map.Covers (.ofRecord r) d

/-- A catalog covers what another one does, and some records. -/
structure Extends (settings : IndexSettings) (old : CatalogMap) (done : List Record)
    (new : CatalogMap) : Prop where
  inPlace : new.InPlace
  kept : ∀ p d, old.Covers p d → new.Covers p d
  added : ∀ r ∈ done, new.CoversRecord settings r

variable {settings : IndexSettings} {old new : CatalogMap} {done : List Record}

theorem Extends.refl (settings : IndexSettings) (h : old.InPlace) : old.Extends settings [] old :=
  ⟨h, fun _ _ => id, fun _ hr => absurd hr List.not_mem_nil⟩

theorem Extends.page (h : old.Extends settings done new) (page : List Record) (now : Instant) :
    old.Extends settings (done ++ page)
      (upsertAll (descriptorsByPartition settings page) now new) where
  inPlace := h.inPlace.upsertAll _ now
  kept p d hd := (h.kept p d hd).upsertAll h.inPlace _ now
  added r hr d hd := by
    rcases List.mem_append.1 hr with hr | hr
    · exact (h.added r hr d hd).upsertAll h.inPlace _ now
    · obtain ⟨ds, hmem, hds⟩ := exists_mem_descriptorsByPartition hr hd
      exact covers_upsertAll h.inPlace isSound_descriptorsByPartition hmem hds

end CatalogMap

namespace Store

/-! ## The clause -/

/-- An indexing run sees the live records to be indexed that have been updated since. -/
theorem holds_indexClause {since : Option Instant} {r : Record} (hindex : r.shouldIndex = true)
    (hlive : r.isDeleted = false) (hsince : ∀ t, since = some t → t ≤ r.updatedAt) :
    (indexClause since).holds r = true := by
  have index : (Clause.column .shouldIndex (.eq (.bool true))).holds r = true := by
    rw [Clause.holds, Predicate.selects, Record.attribute, Document.equalsSome_singleton rfl, hindex]
    rfl
  have live : (Clause.isNull .deletedAt true).holds r = true := by
    rw [Clause.holds_isNull_deletedAt, hlive]
    rfl
  have updated : ∀ t, since = some t →
      (Clause.column .updatedAt (.compare .gte (.finite (Double.ofInt t.toInt)))).holds r = true := by
    intro t ht
    rw [Clause.holds, Predicate.selects, Record.attribute, Document.comparesSome_singleton rfl]
    have notBefore := Double.compare_ofInt_ne_lt (Int64.le_iff_toInt_le.1 (hsince t ht))
    exact bne_iff_ne.2 notBefore
  rw [indexClause, Clause.holds_all, List.all_append, Bool.and_eq_true]
  constructor
  · simp [index, live]
  · cases since with
    | none => rfl
    | some t => simp [updated t rfl]

/-! ## Runs -/

/-- The partitions that a run has written to, after one that has some descriptors. -/
def seenAfter (seen : List Partition) (entry : Partition × List Descriptor) : List Partition :=
  if entry.2.isEmpty || seen.contains entry.1 then seen else seen ++ [entry.1]

theorem result_indexPartition (state : IndexState) (entry : Partition × List Descriptor)
    (w : World collectionBackend) :
    ∃ written, (indexPartition state entry).result w =
      (.ok ⟨state.recordsIndexed, written, seenAfter state.seen entry⟩,
        w.withFields (CatalogMap.upsert entry.1 entry.2 w.clock w.fields).2) := by
  obtain ⟨p, ds⟩ := entry
  unfold seenAfter
  cases hempty : ds.isEmpty with
  | true =>
    refine ⟨state.fieldsWritten, ?_⟩
    rw [indexPartition, if_pos hempty, CatalogMap.upsert, if_pos hempty]
    rfl
  | false =>
    have nonempty : ¬ ds.isEmpty = true := by rw [hempty]; exact Bool.false_ne_true
    rw [indexPartition, if_neg nonempty, Effect.result_bind_ok (Action.result_now w)]
    exact ⟨_, rfl⟩

theorem result_indexPartitions (entries : List (Partition × List Descriptor)) (state : IndexState)
    (w : World collectionBackend) :
    ∃ written, (entries.foldlM indexPartition state).result w =
      (.ok ⟨state.recordsIndexed, written, entries.foldl seenAfter state.seen⟩,
        w.withFields (CatalogMap.upsertAll entries w.clock w.fields)) := by
  induction entries generalizing state w with
  | nil => exact ⟨state.fieldsWritten, rfl⟩
  | cons entry rest ih =>
    obtain ⟨written, hfirst⟩ := result_indexPartition state entry w
    obtain ⟨final, hfinal⟩ := ih ⟨state.recordsIndexed, written, seenAfter state.seen entry⟩
      (w.withFields (CatalogMap.upsert entry.1 entry.2 w.clock w.fields).2)
    refine ⟨final, ?_⟩
    rw [List.foldlM_cons, Effect.result_bind_ok hfirst, hfinal]
    rfl

theorem result_indexPage (settings : IndexSettings) (page : List Record) (state : IndexState)
    (w : World collectionBackend) :
    ∃ written, (indexPage settings page state).result w =
      (.ok ⟨state.recordsIndexed + page.length, written,
          (descriptorsByPartition settings page).foldl seenAfter state.seen⟩,
        w.withFields
          (CatalogMap.upsertAll (descriptorsByPartition settings page) w.clock w.fields)) := by
  obtain ⟨written, hwritten⟩ :=
    result_indexPartitions (descriptorsByPartition settings page) state w
  exact ⟨written, Effect.result_bind_ok hwritten⟩

/-- Indexing runs do not depend on the bound of their walk (`walk_eq_walkFrom`). -/
theorem staysOnPage_indexPage (base : Clause) (settings : IndexSettings) :
    StaysOnPage base (indexPage settings) := by
  intro w w' before visited after state next hw h hresult
  obtain ⟨written, hindexed⟩ :=
    result_indexPage settings (passing (fun r => base.holds r) visited) state w
  obtain ⟨-, rfl⟩ := Prod.mk.inj (hindexed.symm.trans hresult)
  exact ⟨visited, hw, h, .refl _⟩

/-- A run whose pages keep a relation between the records that it has seen, how far it has come, and
the catalog. -/
theorem result_index_of_pages (store : Store collectionBackend) {w : World collectionBackend}
    {R : List Record → IndexState → CatalogMap → Prop} (h : w.records.WellFormed)
    (since : Option Instant) (settings : IndexSettings) (hsize : store.config.indexBatch ≠ 0)
    (hstart : R [] ⟨0, 0, []⟩ w.fields)
    (hpage : ∀ done state fields, R done state fields → ∀ page written,
      R (done ++ page)
        ⟨state.recordsIndexed + page.length, written,
          (descriptorsByPartition settings page).foldl seenAfter state.seen⟩
        (.upsertAll (descriptorsByPartition settings page) w.clock fields)) :
    ∃ final fields, (store.index since settings).result w =
        (.ok ⟨w.clock, final.recordsIndexed, final.fieldsWritten, final.seen.length⟩,
          w.withFields fields) ∧
      R (passing (fun r => (indexClause since).holds r) w.records) final fields := by
  obtain ⟨final, v, hwalk, fields, rfl, hfinal⟩ :=
    store.result_walk_of_kept
      (P := fun done state v => ∃ fields, v = w.withFields fields ∧ R done state fields)
      (indexClause since) h (fun _ => hsize)
      (fun _ _ v => by
        rintro ⟨fields, rfl, -⟩
        rfl)
      (fun done state v => by
        rintro ⟨fields, rfl, hfields⟩ page
        obtain ⟨written, hresult⟩ := result_indexPage settings page state (w.withFields fields)
        exact ⟨_, _, hresult, _, rfl, hpage done state fields hfields page written⟩)
      ⟨w.fields, rfl, hstart⟩
  refine ⟨final, fields, ?_, hfinal⟩
  rw [index, if_neg hsize, Effect.result_bind_ok (Action.result_now w), Effect.result_bind_ok hwalk]
  rfl

end Store

namespace World

/-- A world after an indexing run has seen some records: nothing has changed but the catalog, which
covers them. -/
def Indexed (settings : IndexSettings) (w : World collectionBackend) (done : List Record)
    (v : World collectionBackend) : Prop :=
  ∃ fields, v = w.withFields fields ∧ w.fields.Extends settings done fields

theorem Indexed.records_eq {settings : IndexSettings} {w v : World collectionBackend}
    {done : List Record} (h : w.Indexed settings done v) : v.records = w.records := by
  obtain ⟨fields, rfl, -⟩ := h
  rfl

end World

namespace Store

variable (store : Store collectionBackend)

/-- An indexing run in batches of some size succeeds. It changes nothing but the catalog, which covers
all records that satisfy the clause afterwards. -/
theorem result_index {w : World collectionBackend} (h : w.records.WellFormed)
    (hplace : w.fields.InPlace) (since : Option Instant) (settings : IndexSettings)
    (hsize : store.config.indexBatch ≠ 0) :
    ∃ stats v, (store.index since settings).result w = (.ok stats, v) ∧
      stats.startedAt = w.clock ∧
      w.Indexed settings (passing (fun r => (indexClause since).holds r) w.records) v := by
  obtain ⟨final, fields, hindex, hextends⟩ :=
    store.result_index_of_pages (R := fun done _ fields => w.fields.Extends settings done fields)
      h since settings hsize (.refl settings hplace)
      fun _ _ _ hextends page _ => hextends.page page w.clock
  exact ⟨_, _, hindex, rfl, fields, rfl, hextends⟩

theorem result_index_zero (w : World collectionBackend) (since : Option Instant)
    (settings : IndexSettings) (hsize : store.config.indexBatch = 0) :
    (store.index since settings).result w = (refuse .zeroIndexBatch, w) := by
  rw [index, if_pos hsize]
  rfl

end Store

end RecordStore
