import RecordStore.Proofs.Store.Confinement
import RecordStore.Proofs.Store.Upsert

/-!
# Operations that are addressed to an application

Every operation that is asked for in the name of an application, and makes or addresses its records
only, is confined to it: the clause of every search selects records of the application, and what is
written has been found by such a search or has a new id.
-/

namespace RecordStore

open Collection

namespace Store

variable {app : String} {p : Collection → Prop} (store : Store collectionBackend)

/-! ## Creating and reading -/

theorem confined_newRecord {draft : Draft} (h : draft.appId = app) (actor : Actor) :
    Confined app p (newRecord (B := collectionBackend) draft actor) fun r records =>
      p records ∧ records.Writable app r := by
  refine confined_now.bind fun now _ => confined_freshId.bind fun id _ => ?_
  exact confined_pure fun records hp => ⟨hp.1, h, hp.2⟩

theorem confined_create {drafts : List Draft} (h : ∀ draft ∈ drafts, draft.appId = app)
    (actor : Actor) : Confined app p (store.create drafts actor) fun _ _ => True := by
  refine (confined_mapM fun draft hdraft _ => confined_newRecord (h draft hdraft) actor).bind
    fun records _ => ?_
  refine confined_ite (fun _ => confined_pure fun _ _ => trivial) fun _ => ?_
  exact (store.confined_insert fun _ _ hp => hp.2).bind fun _ _ => confined_pure fun _ _ => trivial

theorem confined_read (request : ReadRequest) :
    Confined request.scope.appId p (store.read request) fun _ _ => True := by
  refine (confined_queryClause _ _ _).bind fun clause hclause => ?_
  refine (confined_ofExcept _).bind fun keys _ => (confined_ofExcept _).bind fun slice _ => ?_
  exact (store.confined_find (isWithin_queryClause hclause) keys slice).bind fun _ _ =>
    confined_pure fun _ _ => trivial

theorem confined_get? (scope : Scope) (id : String) :
    Confined scope.appId p (store.get? scope id) fun _ _ => True :=
  (store.confined_first? ((scope.isWithin_clause false).all List.mem_cons_self)).weaken
    (fun _ _ hp => hp) fun _ _ _ => trivial

theorem confined_count (request : CountRequest) :
    Confined request.scope.appId p (store.count request) fun _ _ => True :=
  (confined_queryClause _ _ _).bind fun _ hclause =>
    (store.confined_countClause (isWithin_queryClause hclause)).weaken (fun _ _ => id)
      fun _ _ _ => trivial

/-! ## Updating -/

theorem confined_updatePage (update : Value) (way : UpdateWay) (actor : Actor)
    {page : List Record}
    (h : ∀ records, records.WellFormed → p records → ∀ r ∈ page, records.Writable app r) :
    Confined app p (store.updatePage update way actor page) fun _ new =>
      ∃ old, p old ∧ keysOf app new = keysOf app old := by
  refine confined_now.bind fun now _ => ?_
  refine (store.confined_replace fun records hrecords hp s hs => ?_).bind fun _ _ =>
    confined_pure fun _ => id
  obtain ⟨r, hr, rfl⟩ := List.mem_map.1 hs
  exact ⟨(h records hrecords hp r hr).appId_eq, (h records hrecords hp r hr).isOpen⟩

/-- The records of a page are the application's own. -/
theorem writable_of_page {base : Clause} (hbase : base.IsWithin app) {page : List Record}
    {records : Collection} (hrecords : records.WellFormed)
    (hpage : ∀ r ∈ page, records.Stores r ∧ base.holds r = true) :
    ∀ r ∈ page, records.Writable app r :=
  fun r hr => writable_of_stores hrecords (hpage r hr).1 (hbase r (hpage r hr).2)

theorem confined_update (request : UpdateRequest) :
    Confined request.scope.appId p (store.update request) fun _ _ => True := by
  refine (confined_queryClause _ _ _).bind fun base hbase => ?_
  have within := isWithin_queryClause hbase
  refine Confined.bind (store.confined_walk within (fun page done keys => ?_) []) fun _ _ =>
    confined_pure fun _ _ => trivial
  refine (store.confined_updatePage _ _ _ fun records hrecords hp =>
    writable_of_page within hrecords hp.1).bind fun _ _ => confined_pure ?_
  rintro records ⟨old, ⟨-, rfl⟩, hkeys⟩
  exact hkeys ▸ List.Sublist.refl _

theorem confined_bulkUpdate (request : BulkUpdateRequest) :
    Confined request.scope.appId p (store.bulkUpdate request) fun _ _ => True := by
  refine (confined_ofExcept _).bind fun size _ => ?_
  refine (confined_queryClause _ _ _).bind fun base hbase => ?_
  have within := isWithin_queryClause hbase
  refine (store.confined_countClause within).bind fun found _ => ?_
  refine Confined.bind (store.confined_walk within (fun page state keys => ?_) BulkState.start)
    fun _ _ => confined_pure fun _ _ => trivial
  refine (store.confined_updatePage _ _ _ fun records hrecords hp =>
    writable_of_page within hrecords hp.1).bind fun _ _ => confined_pure ?_
  rintro records ⟨old, ⟨-, rfl⟩, hkeys⟩
  exact hkeys ▸ List.Sublist.refl _

/-! ## Deleting -/

theorem confined_delete (request : DeleteRequest) :
    Confined request.scope.appId p (store.delete request) fun _ _ => True := by
  refine (confined_queryClause _ _ _).bind fun clause hclause => confined_now.bind fun now _ => ?_
  exact (store.confined_markDeleted fun _ _ _ r _ => isWithin_queryClause hclause r).bind
    fun _ _ => confined_pure fun _ _ => trivial

theorem confined_deleteRecords {records : List Record}
    (h : ∀ current, current.WellFormed → p current → ∀ r ∈ records, current.Writable app r)
    (hard : Bool) (mark : DeletionMark) :
    Confined app p (store.deleteRecords records hard mark) fun _ new =>
      ∃ old, p old ∧ (keysOf app new).Sublist (keysOf app old) := by
  have isOpen : ∀ current, current.WellFormed → p current →
      ∀ id ∈ records.map Record.id, current.IsOpen app id := by
    intro current hcurrent hp id hid
    obtain ⟨r, hr, rfl⟩ := List.mem_map.1 hid
    exact (h current hcurrent hp r hr).isOpen
  refine confined_ite (fun _ => confined_pure fun current hp => ⟨current, hp, .refl _⟩) fun _ => ?_
  cases hard with
  | true => exact store.confined_remove isOpen
  | false =>
    refine (store.confined_markDeleted fun current hcurrent hp r hr hholds => ?_).weaken
      (fun _ _ => id) fun _ new ⟨old, hp, hkeys⟩ => ⟨old, hp, hkeys ▸ .refl _⟩
    exact (isOpen_iff hcurrent).1 (isOpen current hcurrent hp r.id (Clause.holds_idIn.1 hholds)) r hr

theorem confined_bulkDelete (request : BulkDeleteRequest) :
    Confined request.scope.appId p (store.bulkDelete request) fun _ _ => True := by
  refine (confined_ofExcept _).bind fun size _ => ?_
  refine (confined_queryClause _ _ _).bind fun base hbase => confined_now.bind fun now _ => ?_
  have within := isWithin_queryClause hbase
  refine confined_ite (fun _ => ?_) fun _ => ?_
  · refine (store.confined_countClause within).bind fun total _ => ?_
    refine Confined.bind (store.confined_walk within (fun page state keys => ?_) BulkState.start)
      fun _ _ => confined_pure fun _ _ => trivial
    refine (store.confined_deleteRecords (fun records hrecords hp =>
      writable_of_page within hrecords hp.1) _ _).bind fun _ _ => confined_pure ?_
    rintro records ⟨old, ⟨-, rfl⟩, hkeys⟩
    exact hkeys
  · refine (store.confined_first? within).bind fun first _ => ?_
    refine (store.confined_deleteRecords (fun records hrecords hp =>
      writable_of_page within hrecords fun r hr => hp.2 r (Option.mem_toList.1 hr)) _ _).bind
      fun _ _ => confined_pure fun _ _ => trivial

/-! ## Cleaning up -/

theorem isWithin_deletedClause (app : String) : (deletedClause (some app)).IsWithin app :=
  (Clause.isWithin_appId app).all (List.mem_cons_of_mem _ List.mem_cons_self)

theorem confined_cleanup {request : CleanupRequest} (h : request.appId = some app) :
    Confined app p (store.cleanup request false) fun _ _ => True := by
  have within : (deletedClause request.appId).IsWithin app := h ▸ isWithin_deletedClause app
  refine (confined_ofExcept _).bind fun size _ => ?_
  refine (store.confined_countClause within).bind fun total _ => ?_
  refine Confined.bind (store.confined_walk within (fun page state keys => ?_) BulkState.start)
    fun final _ => confined_ite (fun h => absurd h Bool.false_ne_true) fun _ =>
      Confined.bind (confined_pure (q := fun _ _ => True) fun _ _ => trivial) fun _ _ =>
        confined_pure fun _ _ => trivial
  refine (store.confined_remove fun records hrecords hp id hid => ?_).bind fun _ _ =>
    confined_pure ?_
  · obtain ⟨r, hr, rfl⟩ := List.mem_map.1 hid
    exact (writable_of_page within hrecords hp.1 r hr).isOpen
  · rintro records ⟨old, ⟨-, rfl⟩, hkeys⟩
    exact hkeys

end Store

/-! ## Upserts -/

/-- All records that a batch may write are the application's own. -/
def UpsertBatch.Writable (app : String) (batch : UpsertBatch) (records : Collection) : Prop :=
  ∀ target ∈ batch.targets, records.Writable app target.record

section

variable {app : String} {batch : UpsertBatch} {target : UpsertTarget} {records : Collection}

theorem UpsertTarget.writable_combine (h : records.Writable app target.record) (way : UpdateWay)
    (draft : Draft) (now : Instant) (actor : Actor) :
    records.Writable app (target.combine way draft now actor).record := by
  rw [combine]
  split
  · exact ⟨h.appId_eq, h.isOpen⟩
  · exact ⟨h.appId_eq, h.isOpen⟩

theorem UpsertBatch.Writable.push (h : batch.Writable app records)
    (htarget : records.Writable app target.record) : (batch.push target).Writable app records := by
  intro other hother
  rcases List.mem_append.1 hother with hother | hother
  · exact h other hother
  · rwa [List.mem_singleton.1 hother]

theorem UpsertBatch.Writable.setTarget (h : batch.Writable app records)
    (htarget : records.Writable app target.record) (key : UpsertKey) :
    (batch.setTarget key target).Writable app records := by
  intro other hother
  obtain ⟨old, hold, rfl⟩ := List.mem_map.1 hother
  split
  · exact htarget
  · exact h old hold

theorem UpsertBatch.Writable.newRecords (h : batch.Writable app records) :
    ∀ r ∈ batch.newRecords, records.Writable app r := by
  intro r hr
  obtain ⟨target, htarget, rfl⟩ := List.mem_map.1 hr
  exact h target (List.mem_filter.1 htarget).1

theorem UpsertBatch.Writable.changedRecords (h : batch.Writable app records) :
    ∀ r ∈ batch.changedRecords, records.Writable app r := by
  intro r hr
  obtain ⟨target, htarget, rfl⟩ := List.mem_map.1 hr
  exact h target (List.mem_filter.1 htarget).1

theorem UpsertKey.isWithin_clause (key : UpsertKey) (keys : List Path) :
    (key.clause keys).IsWithin key.partition.appId :=
  (Scope.isWithin_clause ⟨key.partition.appId, key.partition.tag⟩ false).all
    (List.mem_append_left _ List.mem_cons_self)

end

namespace Store

variable {app : String} {p : Collection → Prop} (store : Store collectionBackend)
  (options : UpsertOptions)

theorem confined_upsertNew (key : Option UpsertKey) {draft : Draft} (h : draft.appId = app)
    (batch : UpsertBatch) :
    Confined app (batch.Writable app) (upsertNew (B := collectionBackend) options key draft batch)
      (UpsertBatch.Writable app) := by
  refine (confined_newRecord h options.actor).bind fun r _ => confined_pure fun records hp => ?_
  exact hp.1.push hp.2

theorem confined_upsertConflict (key : UpsertKey) (target : UpsertTarget) (draft : Draft)
    (batch : UpsertBatch) :
    Confined app (fun records => batch.Writable app records ∧ records.Writable app target.record)
      (upsertConflict (B := collectionBackend) options key target draft batch)
      (UpsertBatch.Writable app) := by
  refine confined_now.bind fun now _ => confined_pure fun records hp => ?_
  cases options.onConflict with
  | combine way => exact hp.1.setTarget (target.writable_combine hp.2 way draft now options.actor) key
  | ignore => exact hp.1
  | fail => exact hp.1

theorem confined_upsertItem (keys : List Path) (batch : UpsertBatch) {draft : Draft}
    (h : draft.appId = app) :
    Confined app (batch.Writable app) (store.upsertItem options keys batch draft)
      (UpsertBatch.Writable app) := by
  unfold upsertItem
  dsimp only
  cases draft.keyValues? keys with
  | none => exact (confined_upsertNew options none h _).weaken (fun _ _ hp => hp) fun _ _ => id
  | some values =>
    dsimp only
    split
    · next target htarget =>
      refine (confined_upsertConflict options _ target draft _).weaken (fun records _ hp => ?_)
        fun _ _ => id
      exact ⟨hp, hp target (List.mem_of_find?_eq_some htarget)⟩
    · have within : (UpsertKey.clause ⟨draft.partition, values⟩ keys).IsWithin app :=
        h ▸ UpsertKey.isWithin_clause ⟨draft.partition, values⟩ keys
      refine (store.confined_first? within).bind fun found _ => ?_
      cases found with
      | none => exact (confined_upsertNew options _ h _).weaken (fun _ _ hp => hp.1) fun _ _ => id
      | some r =>
        refine (confined_upsertConflict options _ _ draft _).weaken (fun records hrecords hp => ?_)
          fun _ _ => id
        obtain ⟨hstored, hholds⟩ := hp.2 r rfl
        have writable := writable_of_stores hrecords hstored (within r hholds)
        exact ⟨UpsertBatch.Writable.push hp.1 writable, writable⟩

theorem confined_upsertBatch (keys : List Path) (result : UpsertResult) {drafts : List Draft}
    (h : ∀ draft ∈ drafts, draft.appId = app) :
    Confined app p (store.upsertBatch options keys result drafts) fun _ _ => True := by
  have start : ∀ records, UpsertBatch.Writable app ⟨[], result⟩ records :=
    fun _ target htarget => absurd htarget List.not_mem_nil
  refine Confined.bind ((confined_foldlM (fun draft hdraft batch =>
    store.confined_upsertItem options keys batch (h draft hdraft)) ⟨[], result⟩).weaken
    (fun records _ _ => start records) fun _ _ => id) fun batch _ => ?_
  have write : Confined app (batch.Writable app) (do
      unless batch.changedRecords.isEmpty do
        let _ ← store.replace batch.changedRecords
      return { batch.result with
        newRecords := batch.result.newRecords ++ batch.newRecords
        updatedRecords := batch.result.updatedRecords ++ batch.changedRecords })
      fun _ _ => True := by
    refine confined_ite (fun _ => confined_pure fun _ _ => trivial) fun _ => ?_
    exact (store.confined_replace fun _ _ hp => hp.changedRecords).bind fun _ _ =>
      confined_pure fun _ _ => trivial
  refine confined_ite (fun _ => write) fun _ => ?_
  refine (store.confined_insert fun _ _ hp => hp.newRecords).bind fun _ _ =>
    write.weaken (fun records _ hp => ?_) fun _ _ => id
  obtain ⟨old, hold, hothers⟩ := hp
  exact fun target htarget => (hold target htarget).congr hothers

theorem confined_upsert {drafts : List Draft} (h : ∀ draft ∈ drafts, draft.appId = app) :
    Confined app p (store.upsert drafts options) fun _ _ => True := by
  refine (confined_ofExcept _).bind fun keys _ => (confined_ofExcept _).bind fun size _ => ?_
  refine (confined_foldlM (t := fun _ _ => True) (fun piece hpiece result => ?_) _).weaken
    (fun _ _ _ => trivial) fun _ _ => id
  refine store.confined_upsertBatch options keys result fun draft hdraft => h draft ?_
  rw [← flatten_pieces size drafts]
  exact List.mem_flatten_of_mem hpiece hdraft

end Store

end RecordStore
