import RecordStore.Proofs.Catalog.Cover
import RecordStore.Proofs.Store.Stamp

/-!
# What calls leave to be indexed

A cleanup drops from the catalog only partitions without any record (`Store.result_dropEmpty`), and no
other call touches the catalog. So after a guarded call the catalog knows of each partition with
records what it has known before, and what is live has been there before or has been updated now
(`Call.follows`).
-/

namespace RecordStore

open Collection

/-! ## Partitions -/

/-- Whether no record of a partition is there, deleted ones included. -/
def Collection.lacks (records : Collection) (p : Partition) : Bool :=
  (passing (fun r => (p.clause true).holds r) records).isEmpty

theorem Collection.lacks_iff {records : Collection} {p : Partition} :
    records.lacks p = true ↔ ∀ r ∈ Keyed.values records, Partition.ofRecord r ≠ p := by
  rw [lacks, List.isEmpty_iff, passing, List.filter_eq_nil_iff]
  refine forall₂_congr fun r _ => ?_
  rw [p.holds_clause, Bool.true_or, Bool.and_true, decide_eq_true_iff]

/-! ## Worlds -/

/-- What is live in a world has been there in an earlier one or has been updated at the instant that
this shows, and the catalog knows the same of the partitions that have records. -/
structure World.Follows (start w : World collectionBackend) : Prop where
  clock : w.clock = start.clock
  job : w.job = start.job
  live : ∀ r ∈ Keyed.values w.records, r.isDeleted = false →
    r.updatedAt = start.clock ∨ r ∈ Keyed.values start.records
  inPlace : start.fields.InPlace → w.fields.InPlace
  rowsOf : ∀ r ∈ Keyed.values w.records,
    w.fields.rowsOf (.ofRecord r) = start.fields.rowsOf (.ofRecord r)

theorem World.Stamps.follows {start w : World collectionBackend} (h : start.Stamps w) :
    start.Follows w where
  clock := h.clock
  job := h.job
  live := h.live
  inPlace hplace := h.fields ▸ hplace
  rowsOf _ _ := by rw [h.fields]

/-! ## Cleaning up -/

namespace Store

variable (store : Store collectionBackend)

/-- The partitions without records are dropped from the catalog, and nothing else happens. -/
theorem result_dropEmpty (partitions : List Partition) (w : World collectionBackend) :
    let empty := partitions.filter w.records.lacks
    (store.dropEmpty partitions).result w = (.ok empty, w.withFields (w.fields.forget empty)) := by
  induction partitions generalizing w with
  | nil => rfl
  | cons p rest ih =>
    have counted : (passing (fun r => (p.clause true).holds r) w.records).length = 0 ↔
        w.records.lacks p = true := by
      rw [lacks, List.isEmpty_iff, List.length_eq_zero_iff]
    rw [dropEmpty, Effect.result_bind_ok (store.result_countClause w _), List.filter_cons]
    by_cases hempty : w.records.lacks p = true
    · have deleted : (Action.onStorage (collectionBackend.catalog.deletePartition p)).result w =
          (.ok (w.fields.rowsOf p).length,
            w.withFields (CatalogMap.deletePartition p w.fields).2) := rfl
      rw [if_pos (counted.2 hempty), Effect.result_bind_ok deleted, Effect.result_bind_ok (ih _),
        if_pos hempty]
      rfl
    · rw [if_neg (mt counted.1 hempty), ih w, if_neg hempty]

/-- With the catalog, a cleanup drops partitions after the same cleanup without it. -/
theorem cleanup_true (request : CleanupRequest) :
    store.cleanup request true = do
      let (result, reports) ← store.cleanup request false
      let known ← Action.onStorage (collectionBackend.catalog.partitions request.appId)
      let dropped ← store.dropEmpty known
      return ({ result with droppedPartitions := dropped }, reports) := by
  simp only [cleanup, if_true, Bool.false_eq_true, if_false, bind_assoc, pure_bind]

theorem follows_cleanup (w : World collectionBackend) (request : CleanupRequest)
    (withCatalog : Bool) : w.Follows ((store.cleanup request withCatalog).result w).2 := by
  have stamps := store.stamps_cleanup w request
  cases withCatalog with
  | false => exact stamps.follows
  | true =>
    rw [cleanup_true, Effect.result_bind]
    cases hremoved : (store.cleanup request false).result w with
    | mk outcome v =>
      rw [hremoved] at stamps
      cases outcome with
      | error e => exact stamps.follows
      | ok removed =>
        obtain ⟨result, reports⟩ := removed
        have known : (Action.onStorage
            (collectionBackend.catalog.partitions request.appId)).result v =
              (.ok (v.fields.partitions request.appId), v) := rfl
        have dropped := store.result_dropEmpty (v.fields.partitions request.appId) v
        dsimp only at dropped ⊢
        rw [Effect.result_bind_ok known, Effect.result_bind_ok dropped]
        refine {
          clock := stamps.clock
          job := stamps.job
          live := stamps.live
          inPlace := fun h => (stamps.follows.inPlace h).forget _
          rowsOf := fun r hr => ?_ }
        -- A partition that is dropped is not that of a record.
        have kept : .ofRecord r ∉ (v.fields.partitions request.appId).filter v.records.lacks :=
          fun hdropped => lacks_iff.1 (List.mem_filter.1 hdropped).2 r hr rfl
        exact (CatalogMap.rowsOf_forget_of_not_mem kept _).trans (stamps.follows.rowsOf r hr)

end Store

/-! ## Calls -/

theorem Call.follows (store : Store collectionBackend) (w : World collectionBackend) {call : Call}
    (h : call.Guarded) : w.Follows ((call.run store).result w).2 := by
  cases call with
  | operation op => exact (Operation.stamps store w h).follows
  | cleanup request withCatalog =>
    have follows := store.follows_cleanup w request withCatalog
    rw [Call.run, Effect.result_bind]
    cases hresult : (store.cleanup request withCatalog).result w with
    | mk outcome v =>
      rw [hresult] at follows
      cases outcome with
      | error e => exact follows
      | ok a => exact follows

end RecordStore
