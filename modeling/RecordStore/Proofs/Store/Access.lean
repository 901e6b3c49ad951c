import RecordStore.Operation
import RecordStore.Proofs.Store.Evolution

/-!
# How operations let records evolve

Creating, reading, updating and marking records keeps everything that is there. Only a hard deletion
and a cleanup remove records: the one removes live records, and the other deleted ones.
-/

namespace RecordStore

open Collection Evolution

namespace Store

variable {R : Evolution} {p : Collection → Prop} (store : Store collectionBackend)

/-! ## Creating and reading -/

theorem upholds_newRecord (draft : Draft) (actor : Actor) :
    R.Upholds p (newRecord (B := collectionBackend) draft actor) fun r records =>
      p records ∧ r.MarksAgree := by
  refine upholds_now.bind fun now => upholds_freshId.bind fun id => ?_
  exact upholds_pure fun records hp => ⟨hp, Record.marksAgree_ofDraft draft id now actor⟩

theorem admits_create (drafts : List Draft) (actor : Actor) :
    kept.Admits (store.create drafts actor) := by
  refine (upholds_mapM (t := Record.MarksAgree)
    (fun draft => upholds_newRecord draft actor) drafts).bind fun records => ?_
  refine upholds_assuming fun hmarks => ?_
  refine upholds_ite (fun _ => admits_pure records) fun _ => ?_
  exact (store.upholds_insert records fun _ _ => hmarks).admits.bind fun _ => admits_pure records

theorem admits_read (request : ReadRequest) : R.Admits (store.read request) := by
  refine (upholds_queryClause request.scope request.query request.includeDeleted).admits.bind
    fun clause => ?_
  refine (upholds_ofExcept _).admits.bind fun keys => ?_
  refine (upholds_ofExcept _).admits.bind fun slice => ?_
  exact (store.upholds_find clause keys slice).admits.bind fun records => admits_pure _

theorem admits_get? (scope : Scope) (id : String) : R.Admits (store.get? scope id) :=
  (store.upholds_first? _).admits

theorem admits_count (request : CountRequest) : R.Admits (store.count request) :=
  (upholds_queryClause request.scope request.query request.includeDeleted).admits.bind
    fun clause => store.upholds_countClause clause

theorem admits_all : R.Admits store.all := (store.upholds_find .always [.byId] none).admits

/-! ## Updating -/

theorem upholds_updatePage (update : Value) (way : UpdateWay) (actor : Actor) (page : List Record)
    (h : ∀ records, p records → ∀ r ∈ page, records.Stores r ∧ r.isDeleted = false) :
    kept.Upholds p (store.updatePage update way actor page) fun _ _ => True := by
  refine upholds_now.bind fun now => ?_
  refine (store.upholds_replace _ fun records hp s hs => ?_).bind fun _ =>
    upholds_pure fun _ _ => trivial
  obtain ⟨r, hr, rfl⟩ := List.mem_map.1 hs
  exact ⟨r, (h records hp r hr).1, (h records hp r hr).2, rfl⟩

/-- What the changes of a page uphold, an update admits. -/
theorem admits_update_of_page (request : UpdateRequest)
    (h : ∀ (base : Clause) (page : List Record), base.SelectsLive →
      R.Upholds (fun records => ∀ r ∈ page, records.Stores r ∧ base.holds r = true)
        (store.updatePage request.update request.way request.actor page) fun _ _ => True) :
    R.Admits (store.update request) := by
  refine (upholds_queryClause request.scope request.query false).bind fun base =>
    upholds_assuming fun hlive => ?_
  refine Upholds.bind (store.upholds_walk (fun page done => ?_) []) fun records => admits_pure _
  exact (h base page (hlive rfl)).bind fun _ => upholds_pure fun _ _ => trivial

/-- What the changes of a page uphold, a batched update admits. -/
theorem admits_bulkUpdate_of_page (request : BulkUpdateRequest)
    (h : ∀ (base : Clause) (page : List Record), base.SelectsLive →
      R.Upholds (fun records => ∀ r ∈ page, records.Stores r ∧ base.holds r = true)
        (store.updatePage request.update request.way request.actor page) fun _ _ => True) :
    R.Admits (store.bulkUpdate request) := by
  refine (upholds_ofExcept _).admits.bind fun size => ?_
  refine (upholds_queryClause request.scope request.query false).bind fun base =>
    upholds_assuming fun hlive => ?_
  refine (store.upholds_countClause base).bind fun found => ?_
  refine Upholds.bind (store.upholds_walk (fun page state => ?_) BulkState.start) fun final =>
    admits_pure _
  exact (h base page (hlive rfl)).bind fun _ => upholds_pure fun _ _ => trivial

theorem admits_update (request : UpdateRequest) : kept.Admits (store.update request) :=
  store.admits_update_of_page request fun _ page hlive =>
    store.upholds_updatePage _ _ _ page fun _ hp r hr => ⟨(hp r hr).1, hlive r (hp r hr).2⟩

theorem admits_bulkUpdate (request : BulkUpdateRequest) :
    kept.Admits (store.bulkUpdate request) :=
  store.admits_bulkUpdate_of_page request fun _ page hlive =>
    store.upholds_updatePage _ _ _ page fun _ hp r hr => ⟨(hp r hr).1, hlive r (hp r hr).2⟩

/-! ## Deleting -/

theorem admits_delete (request : DeleteRequest) : kept.Admits (store.delete request) := by
  refine (upholds_queryClause request.scope request.query false).bind fun clause =>
    upholds_assuming fun hlive => ?_
  refine upholds_now.bind fun now => ?_
  exact (store.upholds_markDeleted clause _ fun _ _ r _ hr => hlive rfl r hr).bind fun _ =>
    admits_pure _

/-- How records evolve when live ones are deleted: they are removed or marked. -/
def deletion (hard : Bool) : Evolution :=
  if hard then thinned fun r => r.isDeleted = false else kept

theorem upholds_deleteRecords (records : List Record) (hard : Bool) (mark : DeletionMark)
    (h : ∀ current, p current → ∀ r ∈ records, current.Stores r ∧ r.isDeleted = false) :
    (deletion hard).Upholds p (store.deleteRecords records hard mark) fun _ _ => True := by
  have live : ∀ current, p current → ∀ r, current.Stores r → r.id ∈ records.map Record.id →
      r.isDeleted = false := by
    intro current hp r hr hid
    obtain ⟨s, hs, hsame⟩ := List.mem_map.1 hid
    obtain ⟨hstored, hlive⟩ := h current hp s hs
    rw [Collection.Stores, hsame, hr] at hstored
    cases hstored
    exact hlive
  refine upholds_ite (fun _ => upholds_pure fun _ _ => trivial) fun _ => ?_
  cases hard with
  | true => exact store.upholds_remove _ live
  | false =>
    exact store.upholds_markDeleted _ mark fun current hp r hr hholds =>
      live current hp r hr (Clause.holds_idIn.1 hholds)

theorem admits_bulkDelete (request : BulkDeleteRequest) :
    (deletion request.hard).Admits (store.bulkDelete request) := by
  refine (upholds_ofExcept _).admits.bind fun size => ?_
  refine (upholds_queryClause request.scope request.query false).bind fun base =>
    upholds_assuming fun hlive => ?_
  refine upholds_now.bind fun now => ?_
  refine upholds_ite (fun _ => ?_) fun _ => ?_
  · refine (store.upholds_countClause base).bind fun total => ?_
    refine Upholds.bind (store.upholds_walk (fun page state => ?_) BulkState.start) fun final =>
      admits_pure _
    refine (store.upholds_deleteRecords page _ _ fun records hp r hr => ?_).bind fun _ =>
      upholds_pure fun _ _ => trivial
    exact ⟨(hp r hr).1, hlive rfl r (hp r hr).2⟩
  · refine (store.upholds_first? base).bind fun first => ?_
    refine (store.upholds_deleteRecords _ _ _ fun records hp r hr => ?_).bind fun _ =>
      upholds_pure fun _ _ => trivial
    have stored := hp.2 r (Option.mem_toList.1 hr)
    exact ⟨stored.1, hlive rfl r stored.2⟩

/-! ## Cleaning up -/

theorem holds_deletedClause (appId : Option String) (r : Record) :
    (deletedClause appId).holds r = (r.isDeleted && appId.all (r.appId == ·)) := by
  rw [deletedClause, Clause.holds_all, List.all_cons, Clause.holds_isNull_deletedAt, Bool.bne_false]
  cases appId with
  | none => rfl
  | some id =>
    have ofApp : (Clause.column .appId (.eq (.string id))).holds r = (r.appId == id) :=
      Clause.holds_column_string rfl id
    simp [ofApp]

theorem admits_dropEmpty : ∀ partitions : List Partition, R.Admits (store.dropEmpty partitions)
  | [] => admits_pure []
  | partition :: rest => by
    refine Admits.bind (store.upholds_countClause _) fun count => ?_
    refine upholds_ite (fun _ => ?_) fun _ => admits_dropEmpty rest
    refine Admits.bind (upholds_catalog _) fun _ => ?_
    exact (admits_dropEmpty rest).bind fun _ => admits_pure _

theorem admits_cleanup (request : CleanupRequest) (withCatalog : Bool) :
    (thinned fun r => r.isDeleted = true).Admits (store.cleanup request withCatalog) := by
  refine (upholds_ofExcept _).admits.bind fun size => ?_
  refine Admits.bind (store.upholds_countClause _) fun total => ?_
  refine Admits.bind (store.upholds_walk (fun page state => ?_) BulkState.start) fun final => ?_
  · refine (store.upholds_remove _ fun records hp r hr hid => ?_).bind fun _ =>
      upholds_pure fun _ _ => trivial
    obtain ⟨s, hs, hsame⟩ := List.mem_map.1 hid
    obtain ⟨hstored, hholds⟩ := hp s hs
    rw [Collection.Stores, hsame, hr] at hstored
    cases hstored
    rw [holds_deletedClause, Bool.and_eq_true] at hholds
    exact hholds.1
  · refine upholds_ite (fun _ => ?_) fun _ => (admits_pure []).bind fun dropped => admits_pure _
    refine Admits.bind (upholds_catalog _) fun partitions => ?_
    exact (store.admits_dropEmpty partitions).bind fun dropped => admits_pure _

end Store

end RecordStore
