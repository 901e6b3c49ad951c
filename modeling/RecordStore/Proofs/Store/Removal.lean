import RecordStore.Proofs.Catalog.Map
import RecordStore.Proofs.Store.Cleanup
import RecordStore.Proofs.Store.Deletion

/-!
# What cleanups remove

A cleanup removes the deleted records that it is for, page by page, and no others
(`Store.result_cleanup_false`). Once they are gone, a partition that the cleanup is for has no record
exactly if it has had no live one, so that the partitions that are dropped from the catalog are those
without live records (`Reachable.result_cleanup`).
-/

namespace RecordStore

open Collection

/-- Whether a cleanup is for a record: for all that are deleted, or those of one application. -/
def CleanupRequest.covers (request : CleanupRequest) (r : Record) : Bool :=
  r.isDeleted && request.appId.all (r.appId == ·)

/-- Whether a partition has a record that is not deleted. -/
def Collection.hasLive (records : Collection) (p : Partition) : Bool :=
  (Keyed.values records).any fun r => Partition.ofRecord r = p && !r.isDeleted

/-- Without the records that a cleanup is for, a partition that it is for has no record if it has had
no live one. -/
theorem CleanupRequest.lacks_select {request : CleanupRequest} {p : Partition}
    (hp : request.appId.all (p.appId == ·) = true) (records : Collection) :
    Collection.lacks (Keyed.select (fun r => !request.covers r) records) p =
      !records.hasLive p := by
  have covers_iff : ∀ r, Partition.ofRecord r = p → request.covers r = r.isDeleted := by
    rintro r rfl
    exact (congrArg (r.isDeleted && ·) hp).trans (Bool.and_true _)
  rw [Bool.eq_iff_iff, lacks_iff, Keyed.values_select, Bool.not_eq_true', hasLive,
    List.any_eq_false]
  refine ⟨fun h r hr hlive => ?_, fun h r hr hpart => ?_⟩
  · obtain ⟨hpart, hlive⟩ := Bool.and_eq_true_iff.1 hlive
    have hpart := of_decide_eq_true hpart
    refine h r (List.mem_filter.2 ⟨hr, ?_⟩) hpart
    rwa [covers_iff r hpart]
  · obtain ⟨hstored, hkept⟩ := List.mem_filter.1 hr
    rw [covers_iff r hpart] at hkept
    exact h r hstored (by simp [hpart, hkept])

namespace Store

variable (store : Store collectionBackend) {w : World collectionBackend}

/-- Visiting a page removes its records. -/
theorem result_removePage (p : Record → Bool) (total : Nat) {before visited after : Collection}
    (h : (before ++ (visited ++ after)).WellFormed) (state : BulkState) :
    Effect.result
        (do return state.advance (← store.remove ((passing p visited).map Record.id)) total)
        (w.withRecords (before ++ (visited ++ after))) =
      (.ok (state.advance (passing p visited).length total),
        w.withRecords (before ++ (Keyed.select (fun r => !p r) visited ++ after))) := by
  have removed := store.result_remove (w.withRecords (before ++ (visited ++ after)))
    ((passing p visited).map Record.id)
  rw [World.records_withRecords, (h.among_passing p).remove h, h.removeAll_middle] at removed
  rw [Effect.result_bind_ok removed, Effect.result_pure]
  rfl

/-- Cleanups do not depend on the bound of their walk (`walk_eq_walkFrom`). -/
theorem staysOnPage_removePage (base : Clause) (total : Nat) :
    StaysOnPage base fun page (state : BulkState) => do
      return state.advance (← store.remove (page.map Record.id)) total :=
  staysOnPage_of_rewriting (fun _ => entryWise_filter fun r => !base.holds r)
    fun _ _ _ _ state hparts => ⟨_, store.result_removePage _ total hparts state⟩

/-- Without the catalog, a cleanup removes the records that it is for. -/
theorem result_cleanup_false (h : w.records.WellFormed) {request : CleanupRequest}
    (hsize : request.batchSize.getD store.config.cleanupBatch ≠ 0) :
    let removed := passing request.covers w.records
    ∃ reports, ReportsUpTo reports removed.length removed.length ∧
      (store.cleanup request false).result w =
        (.ok (⟨removed.length, []⟩, reports),
          w.withRecords (Keyed.select (fun r => !request.covers r) w.records)) := by
  intro removed
  have covers : (fun r => (deletedClause request.appId).holds r) = request.covers :=
    funext fun r => holds_deletedClause request.appId r
  have counted := store.result_countClause w (deletedClause request.appId)
  obtain ⟨visited, others, final, hrecords, hresult, hfinal, hend⟩ :=
    store.result_walk_rewriting (deletedClause request.appId)
      (fun _ => request.batchSize.getD store.config.cleanupBatch)
      (fun page (state : BulkState) => do
        return state.advance (← store.remove (page.map Record.id)) removed.length)
      h (entryWise_filter fun r => !request.covers r)
      (fun _ _ _ state hparts => covers ▸ store.result_removePage request.covers _ hparts state)
      (Counted.start removed.length) fun _ _ _ hcounted _ => hcounted.advance
  rw [covers] at counted hfinal hend
  have none_left : passing request.covers others = [] := hend.resolve_left hsize
  have removed_eq : removed = passing request.covers visited := by
    rw [← List.append_nil (passing _ visited), ← none_left, ← passing_append, ← hrecords]
  have kept : Keyed.select (fun r => !request.covers r) w.records =
      visited.filter (fun entry => !request.covers entry.2) ++ others := by
    have behind : Keyed.select (fun r => !request.covers r) others = others := by
      refine List.filter_eq_self.2 fun entry hentry => ?_
      have notCovered := List.filter_eq_nil_iff.1 none_left entry.2 (List.mem_map_of_mem hentry)
      simpa using notCovered
    rw [hrecords, Keyed.select, List.filter_append]
    exact congrArg _ behind
  have reports := hfinal.reports
  rw [hfinal.processed_eq, ← removed_eq] at reports
  refine ⟨final.reports, reports, ?_⟩
  rw [cleanup, batchSize_eq_ok hsize, Effect.result_bind_ok (Effect.result_ofExcept _ w),
    Effect.result_bind_ok counted]
  refine (Effect.result_bind_ok hresult).trans ?_
  rw [if_neg Bool.false_ne_true, kept, removed_eq, ← hfinal.processed_eq]
  rfl

/-- With the catalog, a cleanup also drops the partitions that it is for and that have had no live
record. -/
theorem result_cleanup_true (h : w.records.WellFormed) {request : CleanupRequest}
    (hsize : request.batchSize.getD store.config.cleanupBatch ≠ 0) :
    let removed := passing request.covers w.records
    let dropped := (w.fields.partitions request.appId).filter fun p => !w.records.hasLive p
    ∃ reports, ReportsUpTo reports removed.length removed.length ∧
      (store.cleanup request true).result w =
        (.ok (⟨removed.length, dropped⟩, reports),
          (w.withRecords (Keyed.select (fun r => !request.covers r) w.records)).withFields
            (w.fields.forget dropped)) := by
  intro removed dropped
  obtain ⟨reports, hreports, hresult⟩ := store.result_cleanup_false h hsize
  let v := w.withRecords (Keyed.select (fun r => !request.covers r) w.records)
  have known : (Action.onStorage (collectionBackend.catalog.partitions request.appId)).result v =
      (.ok (w.fields.partitions request.appId), v) := rfl
  have empty : (w.fields.partitions request.appId).filter v.records.lacks = dropped := by
    refine List.filter_congr fun p hp => ?_
    exact CleanupRequest.lacks_select (List.mem_filter.1 hp).2 w.records
  have drops := store.result_dropEmpty (w.fields.partitions request.appId) v
  rw [empty] at drops
  refine ⟨reports, hreports, ?_⟩
  rw [cleanup_true, Effect.result_bind_ok hresult]
  dsimp only
  rw [Effect.result_bind_ok known, Effect.result_bind_ok drops]
  rfl

end Store

/-- A cleanup with a catalog removes the deleted records that it is for, leaves all others as they are,
and returns how many it has removed. It drops the partitions of the catalog that it is for and that
have no live record, in their order: they have no rows any more, and the rows of other partitions are
as they were. -/
theorem Reachable.result_cleanup {allowed : Call → Prop} {w : World collectionBackend}
    {known : CatalogMap} (h : Reachable allowed ⟨w.records, known⟩)
    (hfields : Keyed.Sorted w.fields) (store : Store collectionBackend) {request : CleanupRequest}
    (hsize : request.batchSize.getD store.config.cleanupBatch ≠ 0) :
    let removed := (Keyed.values w.records).filter request.covers
    let dropped := (w.fields.partitions request.appId).filter fun p => !w.records.hasLive p
    ∃ reports fields, Store.ReportsUpTo reports removed.length removed.length ∧
      (store.cleanup request true).result w =
        (.ok (⟨removed.length, dropped⟩, reports),
          (w.withRecords (Keyed.select (fun r => !request.covers r) w.records)).withFields fields) ∧
      ∀ p, fields.rowsOf p = if p ∈ dropped then [] else w.fields.rowsOf p := by
  intro removed dropped
  obtain ⟨reports, hreports, hresult⟩ := store.result_cleanup_true h.wellFormed hsize
  exact ⟨reports, w.fields.forget dropped, hreports, hresult, CatalogMap.rowsOf_forget hfields dropped⟩

/-- A partition is dropped together with its deleted record, and another one for having no record;
a deleted record beside a live one goes, and that of another application stays. -/
theorem Reachable.result_cleanup_one_app :
    let record := fun (id app group : String) (deletedAt : Option Instant) =>
      { (default : Record) with id := id, appId := app, groupId := group, deletedAt := deletedAt }
    let row : FieldRow := { (default : FieldRow) with path := "n" }
    let inserted := [record "a" "x" "g" (some 9), record "b" "x" "h" none,
      record "c" "x" "h" (some 9), record "d" "y" "g" (some 9)]
    let w : World collectionBackend :=
      ⟨⟨inserted.map fun r => (r.id, r), [(⟨"x", "g", ""⟩, [("n", row)]),
        (⟨"x", "h", ""⟩, [("n", row)]), (⟨"x", "i", ""⟩, [("n", row)]),
        (⟨"y", "g", ""⟩, [("n", row)])]⟩, 10, default, none⟩
    let store : Store collectionBackend := ⟨(), .default⟩
    ∃ reports fields, reports.getLast? = some ⟨2, 2⟩ ∧
      (store.cleanup ⟨some "x", some 1⟩ true).result w =
        (.ok (⟨2, [⟨"x", "g", ""⟩, ⟨"x", "i", ""⟩]⟩, reports),
          (w.withRecords [("b", record "b" "x" "h" none),
            ("d", record "d" "y" "g" (some 9))]).withFields fields) ∧
      fields.rowsOf ⟨"x", "g", ""⟩ = [] ∧ fields.rowsOf ⟨"x", "h", ""⟩ = [("n", row)] ∧
      fields.rowsOf ⟨"y", "g", ""⟩ = [("n", row)] := by
  intro record row inserted w store
  have reachable : Reachable (fun _ => True) ⟨w.records, []⟩ :=
    @Reachable.of_run _ ⟨Memory.empty, 7, default, none⟩ (.operation (.insert inserted)) .empty
      trivial store _ (by decide +kernel) []
  have sorted : (Keyed.keys w.fields).Pairwise (· < ·) := by decide +kernel
  let request : CleanupRequest := ⟨some "x", some 1⟩
  have hsize : request.batchSize.getD store.config.cleanupBatch ≠ 0 := Nat.one_ne_zero
  obtain ⟨reports, fields, hreports, result, rows⟩ :=
    Reachable.result_cleanup reachable sorted store hsize
  refine ⟨reports, fields, hreports.getLast?_eq (Nat.zero_lt_succ 1), result, ?_⟩
  refine ⟨(rows _).trans ?_, (rows _).trans ?_, (rows _).trans ?_⟩ <;> decide +kernel

end RecordStore
