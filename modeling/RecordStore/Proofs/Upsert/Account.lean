import RecordStore.Proofs.Backend.Application
import RecordStore.Proofs.Store.Update
import RecordStore.Proofs.Upsert.Tally

/-!
# The account of an upsert

An upsert counts every draft, reports as new exactly the records that the store gains, and keeps to
what its policy allows (`Store.upsert_accounts`). It needs no more than fresh ids to succeed.
-/

namespace RecordStore

open Collection

variable {options : UpsertOptions} {keys : List Path}

/-- What an upsert reports of some drafts, and what it has made of the records. -/
structure UpsertResult.Accounts (result : UpsertResult) (options : UpsertOptions)
    (keys : List Path) (now : Instant) (drafts : List Draft) (before after : Collection) : Prop where
  totalProcessed : result.totalProcessed = drafts.length
  /-- The ids of the new records have been added, and none has gone. -/
  ids : (Keyed.keys after).Perm (Keyed.keys before ++ result.newRecords.map Record.id)
  /-- Each draft that nothing identifies has become a new record of its own. -/
  own : ∃ own, own.Sublist result.newRecords ∧
    List.Forall₂ (Record.IsOf now options.actor) (drafts.filter (·.isUnkeyed keys)) own
  /-- A policy that combines nothing has added the new records and changed nothing. -/
  leaves : (∀ way, options.onConflict ≠ .combine way) →
    result.Splits now options.actor drafts ∧
      (Keyed.values after).Perm (Keyed.values before ++ result.newRecords)
  /-- A policy that combines has left no draft alone. -/
  combines : ∀ way, options.onConflict = .combine way →
    result.ignoredItems = [] ∧ result.failedItems = []

namespace UpsertResult.Accounts

variable {result : UpsertResult} {now : Instant} {drafts : List Draft} {before after : Collection}

theorem empty (options : UpsertOptions) (keys : List Path) (now : Instant) (records : Collection) :
    UpsertResult.empty.Accounts options keys now [] records records where
  totalProcessed := rfl
  ids := .of_eq (List.append_nil _).symm
  own := ⟨[], .slnil, .nil⟩
  leaves _ := ⟨⟨rfl, [], .slnil, .nil, .nil⟩, .of_eq (List.append_nil _).symm⟩
  combines _ _ := ⟨rfl, rfl⟩

/-- New records have ids that were not taken. -/
theorem unused (h : result.Accounts options keys now drafts before after)
    (hafter : after.WellFormed) : ∀ r ∈ result.newRecords, Keyed.get? r.id before = none := by
  intro r hr
  have nodup : (Keyed.keys before ++ result.newRecords.map Record.id).Nodup :=
    h.ids.nodup_iff.1 (hafter.sorted.imp fun hlt => Keyed.ne_of_lt hlt)
  refine Keyed.get?_eq_none_iff_not_mem_keys.2 fun hid => ?_
  exact (List.nodup_append.1 nodup).2.2 r.id hid r.id (List.mem_map_of_mem hr) rfl

/-- A policy that combines nothing keeps the records that are there. -/
theorem stores (h : result.Accounts options keys now drafts before after)
    (hbefore : before.WellFormed) (hafter : after.WellFormed)
    (hpolicy : ∀ way, options.onConflict ≠ .combine way) {r : Record} (hr : before.Stores r) :
    after.Stores r :=
  hafter.mem_values_iff.1
    ((h.leaves hpolicy).2.mem_iff.2 (List.mem_append_left _ (hbefore.mem_values_iff.2 hr)))

end UpsertResult.Accounts

/-! ## New records under fresh ids -/

namespace IdSource.Fresh

variable {ids : IdSource} {m n : Nat} {stored inserted : Collection} {records : List Record}

/-- Records under the next ids can be inserted. -/
theorem exists_inserted (h : ids.Fresh (m + n) stored)
    (hids : records.map Record.id = (List.range m).map ids.nth) :
    ∃ inserted, stored.insert records = .ok inserted := by
  refine exists_insert (fun r hr => ?_) ?_
  · obtain ⟨k, hk, hid⟩ := List.mem_map.1 (hids ▸ List.mem_map_of_mem hr)
    exact hid ▸ h.unused k (Nat.lt_add_right n (List.mem_range.1 hk))
  · rw [hids, List.nodup_iff_pairwise_ne, List.pairwise_map]
    refine List.pairwise_lt_range.imp_of_mem fun _ hk hlt => ?_
    exact h.distinct _ (Nat.lt_add_right n (List.mem_range.1 hk)) _ hlt

/-- The ids behind those of inserted records are still fresh. -/
theorem drop (h : ids.Fresh (m + n) stored)
    (hids : records.map Record.id = (List.range m).map ids.nth)
    (hinsert : stored.insert records = .ok inserted) : (ids.drop m).Fresh n inserted := by
  refine ⟨fun k hk => ?_, fun k hk l hl => ?_⟩
  · rw [← IdSource.nth_add]
    refine (get?_insert_of_not_mem hinsert fun r hr hid => ?_).trans (h.unused (m + k) (by omega))
    obtain ⟨l, hl, same⟩ := List.mem_map.1 (hids ▸ List.mem_map_of_mem hr)
    have before := List.mem_range.1 hl
    exact h.distinct (m + k) (by omega) l (by omega) (same.trans hid)
  · rw [← IdSource.nth_add, ← IdSource.nth_add]
    exact h.distinct (m + k) (by omega) (m + l) (by omega)

/-- Replacing records takes no id. -/
theorem replace (h : ids.Fresh n stored) (hstored : stored.WellFormed)
    (replacements : List Record) : ids.Fresh n (Collection.replace replacements stored).2 := by
  refine h.mono (Nat.le_refl n) fun k hk => ?_
  rw [Keyed.get?_eq_none_iff_not_mem_keys] at hk ⊢
  rwa [keys_replace hstored]

end IdSource.Fresh

namespace Store

variable (store : Store collectionBackend) {w w' : World collectionBackend} {drafts : List Draft}
  {before after : UpsertResult}

/-- A batch succeeds with fresh ids, and leaves those fresh that it does not need. -/
theorem upsertBatch_succeeds (hw : w.records.WellFormed) {n : Nat}
    (hfresh : w.ids.Fresh (drafts.length + n) w.records) (options : UpsertOptions)
    (keys : List Path) (before : UpsertResult) :
    ∃ after w', (store.upsertBatch options keys before drafts).result w = (.ok after, w') ∧
      w'.records.WellFormed ∧ w'.ids.Fresh n w'.records := by
  obtain ⟨m, hm, hids, hdrop⟩ :=
    (UpsertBatch.tracks_ofDrafts w.records options keys w.clock before w.ids drafts).ids
  have written := store.result_upsertBatch options keys w before drafts
  dsimp only at written
  generalize UpsertBatch.ofDrafts w.records options keys w.clock before w.ids drafts = final
    at hids hdrop written
  have hfresh : w.ids.Fresh (m + n) w.records := hfresh.mono (by omega) fun _ => id
  obtain ⟨inserted, hinsert⟩ := hfresh.exists_inserted hids
  have insert : ({ w with ids := final.2 } : World collectionBackend).records.insert
      final.1.newRecords = .ok inserted := hinsert
  rw [insert] at written
  have rest : final.2.Fresh n inserted := hdrop ▸ hfresh.drop hids hinsert
  exact ⟨final.1.finish, _, written, (hw.insert hinsert).replace _,
    rest.replace (hw.insert hinsert) _⟩

/-- A batch that succeeds goes on with the account. -/
theorem upsertBatch_accounts {stored : Collection} {done : List Draft} (hw : w.records.WellFormed)
    (h : before.Accounts options keys w.clock done stored w.records)
    (hrun : (store.upsertBatch options keys before drafts).result w = (.ok after, w')) :
    w'.clock = w.clock ∧ w'.records.WellFormed ∧
      after.Accounts options keys w.clock (done ++ drafts) stored w'.records := by
  have tracks := UpsertBatch.tracks_ofDrafts w.records options keys w.clock before w.ids drafts
  have splits := fun hpolicy => UpsertBatch.splits_ofDrafts (h.leaves hpolicy).1 hpolicy w.records
    keys w.ids drafts
  have left : ∀ way, options.onConflict = .combine way → _ := fun way hway =>
    UpsertBatch.leftDrafts_ofDrafts hway w.records keys w.clock before w.ids drafts
  obtain ⟨inserted, hinsert, hafter, hw'⟩ := store.of_upsertBatch_ok hrun
  subst hafter hw'
  generalize UpsertBatch.ofDrafts w.records options keys w.clock before w.ids drafts = final
    at tracks splits left hinsert ⊢
  have new : final.1.finish.newRecords = before.newRecords ++ final.1.newRecords :=
    congrArg (· ++ _) tracks.newRecords
  refine ⟨rfl, (hw.insert hinsert).replace _, ?_⟩
  rw [World.records_withRecords]
  refine {
    totalProcessed := ?_
    ids := ?_
    own := ?_
    leaves := fun hpolicy => ⟨splits hpolicy, ?_⟩
    combines := fun way hway => ?_ }
  · refine tracks.totalProcessed.trans ?_
    rw [h.totalProcessed, List.length_append]
  · rw [keys_replace (hw.insert hinsert), new, List.map_append, ← List.append_assoc]
    exact (keys_perm_of_insert hinsert).trans (h.ids.append_right _)
  · obtain ⟨own, hsub, hown⟩ := h.own
    refine ⟨own ++ final.1.ownRecords, new ▸ hsub.append final.1.ownRecords_sublist, ?_⟩
    rw [List.filter_append]
    exact List.rel_append hown tracks.own
  · -- Nothing has been reported as changed, so that nothing has been replaced.
    have unchanged : final.1.changedRecords = [] :=
      (List.append_eq_nil_iff.1 (splits hpolicy).updatedRecords).2
    rw [unchanged, new, ← List.append_assoc]
    exact (values_perm_of_insert hinsert).trans ((h.leaves hpolicy).2.append_right _)
  · obtain ⟨ignored, failed⟩ := left way hway
    obtain ⟨none_ignored, none_failed⟩ := h.combines way hway
    exact ⟨ignored.trans none_ignored, failed.trans none_failed⟩

theorem upsertBatches_succeed {batches : List (List Draft)} (hw : w.records.WellFormed)
    (hfresh : w.ids.Fresh batches.flatten.length w.records) (options : UpsertOptions)
    (keys : List Path) (before : UpsertResult) :
    ∃ after w',
      (batches.foldlM (store.upsertBatch options keys) before).result w = (.ok after, w') := by
  induction batches generalizing w before with
  | nil => exact ⟨before, w, rfl⟩
  | cons drafts rest ih =>
    rw [List.flatten_cons, List.length_append] at hfresh
    obtain ⟨middle, v, first, hv, others⟩ := store.upsertBatch_succeeds hw hfresh options keys before
    rw [List.foldlM_cons, Effect.result_bind_ok first]
    exact ih hv others middle

theorem upsertBatches_account {stored : Collection} {done : List Draft}
    {batches : List (List Draft)} (hw : w.records.WellFormed)
    (h : before.Accounts options keys w.clock done stored w.records)
    (hrun : (batches.foldlM (store.upsertBatch options keys) before).result w = (.ok after, w')) :
    w'.records.WellFormed ∧
      after.Accounts options keys w.clock (done ++ batches.flatten) stored w'.records := by
  induction batches generalizing w before done with
  | nil =>
    cases hrun
    rw [List.flatten_nil, List.append_nil]
    exact ⟨hw, h⟩
  | cons drafts rest ih =>
    rw [List.foldlM_cons, Effect.result_bind] at hrun
    cases hfirst : (store.upsertBatch options keys before drafts).result w with
    | mk outcome v =>
      rw [hfirst] at hrun
      cases outcome with
      | error e => cases hrun
      | ok middle =>
        obtain ⟨hclock, hv, accounts⟩ := store.upsertBatch_accounts hw h hfirst
        rw [← hclock] at accounts ⊢
        rw [List.flatten_cons, ← List.append_assoc]
        exact ih hv accounts hrun

/-- An upsert succeeds with fresh ids. If it succeeds, then it has counted each draft, and has made a
record of its own of each draft that nothing identifies. The records have gained the new ones, under
ids that were not taken. A policy that combines nothing has made a record of each draft that is not
reported as left alone, and has changed no record; one that combines has left no draft alone. -/
theorem upsert_accounts (hw : w.records.WellFormed)
    (hoptions : options.conflictKeys.mapM conflictKey = .ok keys)
    (hsize : options.batchSize.getD store.config.upsertBatch ≠ 0) (drafts : List Draft) :
    (w.ids.Fresh drafts.length w.records →
      ∃ result w', (store.upsert drafts options).result w = (.ok result, w')) ∧
    ∀ result w', (store.upsert drafts options).result w = (.ok result, w') →
      result.Accounts options keys w.clock drafts w.records w'.records ∧
      (∀ r ∈ result.newRecords, Keyed.get? r.id w.records = none) ∧
      ((∀ way, options.onConflict ≠ .combine way) →
        result.newRecords.length + result.ignoredItems.length + result.failedItems.length =
          drafts.length ∧
        ∀ r, w.records.Stores r → w'.records.Stores r) := by
  let size := options.batchSize.getD store.config.upsertBatch
  have batches : (store.upsert drafts options).result w =
      ((pieces size drafts).foldlM (store.upsertBatch options keys) .empty).result w := by
    rw [upsert, hoptions, batchSize_eq_ok hsize]
    rfl
  have flatten := flatten_pieces size drafts
  rw [batches]
  constructor
  · intro hfresh
    rw [← flatten] at hfresh
    exact store.upsertBatches_succeed hw hfresh options keys .empty
  · intro result w' hrun
    obtain ⟨hw', accounts⟩ := store.upsertBatches_account hw (.empty options keys w.clock w.records)
      hrun
    rw [List.nil_append, flatten] at accounts
    exact ⟨accounts, accounts.unused hw', fun hpolicy =>
      ⟨(accounts.leaves hpolicy).1.length, fun _ => accounts.stores hw hw' hpolicy⟩⟩

/-- In batches of two, one draft finds a record and one the record of an earlier draft; of the others,
two are not identified. -/
theorem upsert_accounts_ignored :
    let draft (fields : Fields) : Draft := ⟨"app", "g", "t", .object fields, true, none⟩
    let drafts := [draft [("a", .int 1), ("k", .string "x")], draft [("k", .string "y")],
      draft [("a", .int 2), ("k", .string "y")], draft [("k", .null)], draft [("b", .int 3)]]
    let r := Record.ofDraft (draft [("k", .string "x")]) "r" 1 default
    let keys : List Path := [⟨[.key "k"]⟩]
    let options : UpsertOptions := ⟨["k"], .ignore, some 2, default⟩
    let w : World collectionBackend := ⟨⟨[("r", r)], []⟩, 2, ⟨[], "s", 1⟩, none⟩
    let store : Store collectionBackend := ⟨(), .default⟩
    w.records.WellFormed ∧ options.conflictKeys.mapM conflictKey = .ok keys ∧
      w.ids.Fresh drafts.length w.records ∧
      ∃ result w', (store.upsert drafts options).result w = (.ok result, w') ∧
        result.Accounts options keys w.clock drafts w.records w'.records ∧
        (∀ s ∈ result.newRecords, s.id ≠ "r") ∧
        result.newRecords.length + result.ignoredItems.length + result.failedItems.length = 5 ∧
        w'.records.Stores r := by
  intro draft drafts r keys options w store
  have wellFormed : w.records.WellFormed := wellFormed_nil.insertOne r
  have parsed : options.conflictKeys.mapM conflictKey = .ok keys := by rfl
  have fresh : w.ids.Fresh drafts.length w.records := ⟨by decide +kernel, by decide +kernel⟩
  have ignores : ∀ way, options.onConflict ≠ .combine way := nofun
  obtain ⟨succeeds, account⟩ := upsert_accounts store wellFormed parsed (by decide) drafts
  obtain ⟨result, w', hrun⟩ := succeeds fresh
  obtain ⟨accounts, unused, leaves⟩ := account result w' hrun
  obtain ⟨length, kept⟩ := leaves ignores
  refine ⟨wellFormed, parsed, fresh, result, w', hrun, accounts, fun s hs hid => ?_, length,
    kept r rfl⟩
  have absent := unused s hs
  rw [hid] at absent
  cases absent

end Store

end RecordStore
