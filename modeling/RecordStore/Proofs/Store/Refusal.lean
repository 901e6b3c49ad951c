import RecordStore.Proofs.Reachable
import RecordStore.Proofs.Store.Update
import RecordStore.Proofs.Upsert.Batch

/-!
# What failures leave behind

An operation that is refused has not changed anything: whatever may refuse it comes before the
first write (`Effect.RefusesFirst`), and on a memory nothing after that is refused
(`Effect.NeverRefuses`). An upsert that clashes in one of its batches leaves the records that the
batches before it have left (`Store.exists_batches_of_clash`).
-/

namespace RecordStore

variable {σ α β : Type}

/-! ## Refusals -/

namespace Effect

/-- The state is never changed. -/
def OnlyReads (effect : Effect σ α) : Prop := ∀ s, (effect.result s).2 = s

/-- No request is refused. -/
def NeverRefuses (effect : Effect σ α) : Prop :=
  ∀ s reason, (effect.result s).1 ≠ .error (.validation reason)

/-- Where a request is refused nothing has been changed. -/
def RefusesFirst (effect : Effect σ α) : Prop :=
  ∀ s reason, (effect.result s).1 = .error (.validation reason) → (effect.result s).2 = s

variable {effect other : Effect σ α} {f : α → Effect σ β}

theorem onlyReads_pure (a : α) : (pure a : Effect σ α).OnlyReads := fun _ => rfl

theorem onlyReads_ofExcept (outcome : Except StoreError α) :
    (ofExcept outcome : Effect σ α).OnlyReads := fun _ => rfl

theorem OnlyReads.bind (h : effect.OnlyReads) (hf : ∀ a, (f a).OnlyReads) :
    (effect >>= f).OnlyReads := by
  intro s
  have kept := h s
  rw [result_bind]
  cases hresult : effect.result s with
  | mk outcome s' =>
    rw [hresult] at kept
    subst kept
    cases outcome with
    | error e => rfl
    | ok a => exact hf a s'

theorem neverRefuses_pure (a : α) : (pure a : Effect σ α).NeverRefuses := fun _ _ h => by cases h

theorem NeverRefuses.bind (h : effect.NeverRefuses) (hf : ∀ a, (f a).NeverRefuses) :
    (effect >>= f).NeverRefuses := by
  intro s reason
  have first := h s reason
  rw [result_bind]
  cases hresult : effect.result s with
  | mk outcome s' =>
    rw [hresult] at first
    cases outcome with
    | error e => exact fun herror => first (by cases herror; rfl)
    | ok a => exact hf a s' reason

theorem neverRefuses_ite {c : Prop} [Decidable c] (h : effect.NeverRefuses)
    (hother : other.NeverRefuses) : (if c then effect else other).NeverRefuses := by
  split
  · exact h
  · exact hother

theorem neverRefuses_foldlM {step : β → α → Effect σ β} (h : ∀ b a, (step b a).NeverRefuses) :
    ∀ (items : List α) (b : β), (items.foldlM step b).NeverRefuses
  | [], b => neverRefuses_pure b
  | a :: rest, b => by
    rw [List.foldlM_cons]
    exact (h b a).bind fun next => neverRefuses_foldlM h rest next

theorem neverRefuses_mapM {f : α → Effect σ β} (h : ∀ a, (f a).NeverRefuses) :
    ∀ items : List α, (items.mapM f).NeverRefuses
  | [] => neverRefuses_pure []
  | a :: rest => by
    rw [List.mapM_cons]
    exact (h a).bind fun b => (neverRefuses_mapM h rest).bind fun others => neverRefuses_pure _

theorem NeverRefuses.refusesFirst (h : effect.NeverRefuses) : effect.RefusesFirst :=
  fun s reason hrefused => absurd hrefused (h s reason)

theorem OnlyReads.refusesFirst (h : effect.OnlyReads) : effect.RefusesFirst := fun s _ _ => h s

/-- Reading before does no harm. -/
theorem OnlyReads.bind_refusesFirst (h : effect.OnlyReads) (hf : ∀ a, (f a).RefusesFirst) :
    (effect >>= f).RefusesFirst := by
  intro s reason
  have kept := h s
  rw [result_bind]
  cases hresult : effect.result s with
  | mk outcome s' =>
    rw [hresult] at kept
    subst kept
    cases outcome with
    | error e => exact fun _ => rfl
    | ok a => exact hf a s' reason

/-- What is not refused may come after. -/
theorem RefusesFirst.bind (h : effect.RefusesFirst) (hf : ∀ a, (f a).NeverRefuses) :
    (effect >>= f).RefusesFirst := by
  intro s reason
  have first := h s reason
  rw [result_bind]
  cases hresult : effect.result s with
  | mk outcome s' =>
    rw [hresult] at first
    cases outcome with
    | error e => exact fun herror => first (by cases herror; rfl)
    | ok a => exact fun herror => absurd herror (hf a s' reason)

end Effect

/-! ## Operations on a memory -/

open Effect

namespace Store

variable (store : Store collectionBackend)

section

theorem onlyReads_now : (Action.now : Action collectionBackend Instant).OnlyReads := fun _ => rfl

theorem neverRefuses_now : (Action.now : Action collectionBackend Instant).NeverRefuses :=
  fun _ _ h => by cases h

theorem onlyReads_queryClause (scope : Scope) (query : Query) (includeDeleted : Bool) :
    (queryClause (B := collectionBackend) scope query includeDeleted).OnlyReads :=
  onlyReads_now.bind fun _ => onlyReads_ofExcept _

theorem onlyReads_find (clause : Clause) (keys : List SortKey) (slice : Option Slice) :
    (store.find clause keys slice).OnlyReads := fun _ => rfl

theorem neverRefuses_find (clause : Clause) (keys : List SortKey) (slice : Option Slice) :
    (store.find clause keys slice).NeverRefuses := by
  intro w reason
  obtain ⟨found, hfound, -⟩ :=
    Collection.find_document clause (SortKey.documentOrder keys) slice w.records
  rw [store.result_find, hfound]
  exact fun h => by cases h

theorem onlyReads_countClause (clause : Clause) : (store.countClause clause).OnlyReads :=
  fun _ => rfl

theorem neverRefuses_countClause (clause : Clause) : (store.countClause clause).NeverRefuses := by
  intro w reason
  rw [store.result_countClause]
  exact fun h => by cases h

theorem neverRefuses_replace (records : List Record) : (store.replace records).NeverRefuses :=
  fun _ _ h => by cases h

theorem neverRefuses_remove (ids : List String) : (store.remove ids).NeverRefuses :=
  fun _ _ h => by cases h

theorem neverRefuses_markDeleted (clause : Clause) (mark : DeletionMark) :
    (store.markDeleted clause mark).NeverRefuses := by
  intro w reason
  rw [store.result_markDeleted, Collection.markDeleted_document]
  exact fun h => by cases h

/-- An insertion fails only because of an id that is there. -/
theorem exists_clash_of_insert {records : Collection} {batch : List Record} {e : StoreError}
    (h : records.insert batch = .error e) : ∃ id, e = .conflict (.duplicateId id) := by
  induction batch generalizing records with
  | nil => cases h
  | cons first rest ih =>
    rw [Collection.insert] at h
    split at h
    · exact ⟨first.id, by cases h; rfl⟩
    · exact ih h

theorem neverRefuses_insert (batch : List Record) : (store.insert batch).NeverRefuses := by
  intro w reason
  rw [store.result_insert]
  cases h : w.records.insert batch with
  | ok records => exact fun herror => by cases herror
  | error e =>
    obtain ⟨id, rfl⟩ := exists_clash_of_insert h
    exact fun herror => by cases herror

theorem neverRefuses_first? (clause : Clause) : (store.first? clause).NeverRefuses :=
  (store.neverRefuses_find clause _ _).bind fun _ => neverRefuses_pure _

end

/-! ### Walks -/

theorem neverRefuses_walk {base : Clause} {limit : σ → Nat}
    {visit : List Record → σ → Action collectionBackend σ}
    (hvisit : ∀ page acc, (visit page acc).NeverRefuses) (start : σ) :
    (store.walk base limit visit start).NeverRefuses := by
  have from_cursor : ∀ fuel cursor acc,
      (store.walkFrom base limit visit fuel cursor acc).NeverRefuses := by
    intro fuel
    induction fuel with
    | zero => exact fun _ acc => neverRefuses_pure acc
    | succ fuel ih =>
      intro cursor acc
      rw [walkFrom]
      refine neverRefuses_ite (neverRefuses_pure acc) ?_
      refine NeverRefuses.bind (store.neverRefuses_find _ _ _) fun page => ?_
      cases page.getLast? with
      | none => exact neverRefuses_pure acc
      | some last =>
        refine (hvisit page acc).bind fun next => ?_
        exact neverRefuses_ite (neverRefuses_pure next) (ih _ next)
  have size : (Effect.reading fun w : World collectionBackend =>
      .ok (collectionBackend.size store.handle w.storage)).NeverRefuses := fun _ _ h => by cases h
  exact size.bind fun n => from_cursor (n + 1) none start

/-! ### Operations -/

theorem neverRefuses_newRecord (draft : Draft) (actor : Actor) :
    (newRecord (B := collectionBackend) draft actor).NeverRefuses :=
  neverRefuses_now.bind fun _ => NeverRefuses.bind (fun _ _ h => by cases h) fun _ =>
    neverRefuses_pure _

theorem neverRefuses_create (drafts : List Draft) (actor : Actor) :
    (store.create drafts actor).NeverRefuses := by
  refine (neverRefuses_mapM (fun draft => neverRefuses_newRecord draft actor) drafts).bind
    fun records => ?_
  refine neverRefuses_ite (neverRefuses_pure _) ?_
  exact (store.neverRefuses_insert records).bind fun _ => neverRefuses_pure _

theorem onlyReads_read (request : ReadRequest) : (store.read request).OnlyReads := by
  refine (onlyReads_queryClause _ _ _).bind fun clause => ?_
  refine (onlyReads_ofExcept _).bind fun keys => (onlyReads_ofExcept _).bind fun slice => ?_
  exact (store.onlyReads_find clause keys _).bind fun _ => onlyReads_pure _

theorem onlyReads_count (request : CountRequest) : (store.count request).OnlyReads :=
  (onlyReads_queryClause _ _ _).bind fun clause => store.onlyReads_countClause clause

theorem neverRefuses_updatePage (update : Value) (way : UpdateWay) (actor : Actor)
    (page : List Record) : (store.updatePage update way actor page).NeverRefuses :=
  neverRefuses_now.bind fun _ => (store.neverRefuses_replace _).bind fun _ => neverRefuses_pure _

theorem refusesFirst_update (request : UpdateRequest) : (store.update request).RefusesFirst := by
  refine (onlyReads_queryClause _ _ _).bind_refusesFirst fun base => NeverRefuses.refusesFirst ?_
  refine NeverRefuses.bind (store.neverRefuses_walk (fun page done => ?_) []) fun _ =>
    neverRefuses_pure _
  exact (store.neverRefuses_updatePage _ _ _ page).bind fun _ => neverRefuses_pure _

theorem refusesFirst_delete (request : DeleteRequest) : (store.delete request).RefusesFirst := by
  refine (onlyReads_queryClause _ _ _).bind_refusesFirst fun clause => NeverRefuses.refusesFirst ?_
  exact neverRefuses_now.bind fun _ => (store.neverRefuses_markDeleted clause _).bind fun _ =>
    neverRefuses_pure _

theorem refusesFirst_bulkUpdate (request : BulkUpdateRequest) :
    (store.bulkUpdate request).RefusesFirst := by
  refine (onlyReads_ofExcept _).bind_refusesFirst fun size => ?_
  refine (onlyReads_queryClause _ _ _).bind_refusesFirst fun base => NeverRefuses.refusesFirst ?_
  refine (store.neverRefuses_countClause base).bind fun found => ?_
  refine NeverRefuses.bind (store.neverRefuses_walk (fun page state => ?_) BulkState.start) fun _ =>
    neverRefuses_pure _
  exact (store.neverRefuses_updatePage _ _ _ page).bind fun _ => neverRefuses_pure _

theorem neverRefuses_deleteRecords (records : List Record) (hard : Bool) (mark : DeletionMark) :
    (store.deleteRecords records hard mark).NeverRefuses :=
  neverRefuses_ite (neverRefuses_pure 0)
    (neverRefuses_ite (store.neverRefuses_remove _) (store.neverRefuses_markDeleted _ mark))

theorem refusesFirst_bulkDelete (request : BulkDeleteRequest) :
    (store.bulkDelete request).RefusesFirst := by
  refine (onlyReads_ofExcept _).bind_refusesFirst fun size => ?_
  refine (onlyReads_queryClause _ _ _).bind_refusesFirst fun base => NeverRefuses.refusesFirst ?_
  refine neverRefuses_now.bind fun now => neverRefuses_ite ?_ ?_
  · refine (store.neverRefuses_countClause base).bind fun total => ?_
    refine NeverRefuses.bind (store.neverRefuses_walk (fun page state => ?_) BulkState.start)
      fun _ => neverRefuses_pure _
    exact (store.neverRefuses_deleteRecords page _ _).bind fun _ => neverRefuses_pure _
  · refine (store.neverRefuses_first? base).bind fun first => ?_
    exact (store.neverRefuses_deleteRecords _ _ _).bind fun _ => neverRefuses_pure _

theorem neverRefuses_dropEmpty :
    ∀ partitions : List Partition, (store.dropEmpty partitions).NeverRefuses
  | [] => neverRefuses_pure []
  | p :: rest => by
    rw [dropEmpty]
    refine (store.neverRefuses_countClause _).bind fun n => ?_
    refine neverRefuses_ite ?_ (neverRefuses_dropEmpty rest)
    refine NeverRefuses.bind (fun _ _ h => by cases h) fun _ => ?_
    exact (neverRefuses_dropEmpty rest).bind fun _ => neverRefuses_pure _

theorem refusesFirst_cleanup (request : CleanupRequest) (withCatalog : Bool) :
    (store.cleanup request withCatalog).RefusesFirst := by
  refine (onlyReads_ofExcept _).bind_refusesFirst fun size => NeverRefuses.refusesFirst ?_
  refine (store.neverRefuses_countClause _).bind fun total => ?_
  refine NeverRefuses.bind (store.neverRefuses_walk (fun page state => ?_) BulkState.start)
    fun final => ?_
  · exact (store.neverRefuses_remove _).bind fun _ => neverRefuses_pure _
  cases withCatalog with
  | false => exact neverRefuses_pure _
  | true =>
    refine NeverRefuses.bind (fun _ _ h => by cases h) fun partitions => ?_
    exact (store.neverRefuses_dropEmpty partitions).bind fun _ => neverRefuses_pure _

/-! ### Indexing -/

theorem neverRefuses_indexPartition (state : IndexState) (entry : Partition × List Descriptor) :
    (indexPartition (B := collectionBackend) state entry).NeverRefuses := by
  refine neverRefuses_ite (neverRefuses_pure state) ?_
  exact neverRefuses_now.bind fun _ => NeverRefuses.bind (fun _ _ h => by cases h) fun _ =>
    neverRefuses_pure _

theorem refusesFirst_index (since : Option Instant) (settings : IndexSettings) :
    (store.index since settings).RefusesFirst := by
  rw [index]
  split
  · exact (onlyReads_ofExcept _).refusesFirst
  refine NeverRefuses.refusesFirst (neverRefuses_now.bind fun startedAt => ?_)
  refine NeverRefuses.bind (store.neverRefuses_walk (fun page state => ?_) _) fun _ =>
    neverRefuses_pure _
  exact (neverRefuses_foldlM neverRefuses_indexPartition _ state).bind fun _ => neverRefuses_pure _

/-! ### Upserts -/

theorem neverRefuses_upsertBatch (options : UpsertOptions) (keys : List Path)
    (result : UpsertResult) (drafts : List Draft) :
    (store.upsertBatch options keys result drafts).NeverRefuses := by
  intro w reason
  rw [store.result_upsertBatch]
  dsimp only
  split
  · next e h =>
    obtain ⟨id, rfl⟩ := exists_clash_of_insert h
    exact fun herror => by cases herror
  · exact fun herror => by cases herror

theorem refusesFirst_upsert (drafts : List Draft) (options : UpsertOptions) :
    (store.upsert drafts options).RefusesFirst := by
  refine (onlyReads_ofExcept _).bind_refusesFirst fun keys => ?_
  refine (onlyReads_ofExcept _).bind_refusesFirst fun size => NeverRefuses.refusesFirst ?_
  exact neverRefuses_foldlM (store.neverRefuses_upsertBatch options keys) _ _

end Store

/-- No call changes anything if it is refused. -/
theorem Call.refusesFirst_run (store : Store collectionBackend) (call : Call) :
    (call.run store).RefusesFirst := by
  cases call with
  | cleanup request withCatalog =>
    exact (store.refusesFirst_cleanup request withCatalog).bind fun _ => neverRefuses_pure _
  | operation op =>
    cases op with
    | newRecord draft actor =>
      have made := Store.neverRefuses_newRecord draft actor
      exact made.refusesFirst.bind fun _ => neverRefuses_pure _
    | create drafts actor =>
      exact (store.neverRefuses_create drafts actor).refusesFirst.bind fun _ => neverRefuses_pure _
    | insert records =>
      exact (store.neverRefuses_insert records).refusesFirst.bind fun _ => neverRefuses_pure _
    | replace records =>
      exact (store.neverRefuses_replace records).refusesFirst.bind fun _ => neverRefuses_pure _
    | remove ids =>
      exact (store.neverRefuses_remove ids).refusesFirst.bind fun _ => neverRefuses_pure _
    | all => exact (store.onlyReads_find _ _ _).refusesFirst.bind fun _ => neverRefuses_pure _
    | read request =>
      exact (store.onlyReads_read request).refusesFirst.bind fun _ => neverRefuses_pure _
    | get scope id =>
      exact (store.neverRefuses_first? _).refusesFirst.bind fun _ => neverRefuses_pure _
    | count request =>
      exact (store.onlyReads_count request).refusesFirst.bind fun _ => neverRefuses_pure _
    | update request => exact (store.refusesFirst_update request).bind fun _ => neverRefuses_pure _
    | delete request => exact (store.refusesFirst_delete request).bind fun _ => neverRefuses_pure _
    | upsert drafts options =>
      exact (store.refusesFirst_upsert drafts options).bind fun _ => neverRefuses_pure _
    | bulkUpdate request =>
      exact (store.refusesFirst_bulkUpdate request).bind fun _ => neverRefuses_pure _
    | bulkDelete request =>
      exact (store.refusesFirst_bulkDelete request).bind fun _ => neverRefuses_pure _

/-! ## Clashes in an upsert -/

namespace Effect

/-- A fold that fails has done the items before the one on which it fails. -/
theorem exists_of_foldlM_error {step : β → α → Effect σ β} {e : StoreError} {s s' : σ} :
    ∀ {items : List α} {b : β}, (items.foldlM step b).result s = (.error e, s') →
      ∃ done failing rest acc middle, items = done ++ failing :: rest ∧
        (done.foldlM step b).result s = (.ok acc, middle) ∧
        (step acc failing).result middle = (.error e, s')
  | [], _, h => by cases h
  | a :: rest, b, h => by
    rw [List.foldlM_cons, result_bind] at h
    cases hfirst : (step b a).result s with
    | mk outcome middle =>
      rw [hfirst] at h
      cases outcome with
      | error e' => exact ⟨[], a, rest, b, s, rfl, rfl, hfirst.trans h⟩
      | ok next =>
        obtain ⟨done, failing, others, acc, last, rfl, hdone, hfailing⟩ := exists_of_foldlM_error h
        refine ⟨a :: done, failing, others, acc, last, rfl, ?_, hfailing⟩
        rw [List.foldlM_cons, result_bind_ok hfirst, hdone]

end Effect

theorem exists_of_conflictKey_error {raw : String} {e : StoreError}
    (h : conflictKey raw = .error e) : ∃ reason, e = .validation reason := by
  have segment : ∀ part, Segment.parse raw part = .error e → ∃ reason, e = .validation reason := by
    intro part hpart
    rw [Segment.parse] at hpart
    split at hpart
    · exact ⟨_, by cases hpart; rfl⟩
    split at hpart
    · exact ⟨_, by cases hpart; rfl⟩
    · cases hpart
  rcases bind_eq_error.1 h with h | ⟨path, -, h⟩
  · rw [Path.parse] at h
    split at h
    · exact ⟨_, by cases h; rfl⟩
    rcases bind_eq_error.1 h with h | ⟨segments, -, h⟩
    · obtain ⟨part, -, h⟩ := exists_of_mapM_error h
      exact segment part h
    · cases h
  · split at h
    · exact ⟨_, by cases h; rfl⟩
    · cases h

namespace Store

variable (store : Store collectionBackend) {w w' : World collectionBackend}

/-- A batch that fails has only used up ids. -/
theorem upsertBatch_error {options : UpsertOptions} {keys : List Path} {result : UpsertResult}
    {drafts : List Draft} {e : StoreError}
    (h : (store.upsertBatch options keys result drafts).result w = (.error e, w')) :
    ∃ ids, w' = { w with ids := ids } := by
  rw [store.result_upsertBatch] at h
  dsimp only at h
  split at h
  · cases h
    exact ⟨_, rfl⟩
  · cases h

theorem result_upsert_of_ok {options : UpsertOptions} {keys : List Path} {size : Nat}
    (hkeys : options.conflictKeys.mapM conflictKey = .ok keys)
    (hsize : batchSize options.batchSize store.config.upsertBatch = .ok size)
    (drafts : List Draft) : (store.upsert drafts options).result w =
      ((pieces size drafts).foldlM (store.upsertBatch options keys) .empty).result w := by
  rw [upsert, Effect.result_bind, Effect.result_ofExcept, hkeys]
  dsimp only
  rw [Effect.result_bind, Effect.result_ofExcept, hsize]

/-- An upsert that clashes has read its conflict keys, and its batches are not empty. -/
theorem exists_keys_of_clash {drafts : List Draft} {options : UpsertOptions} {clash : Clash}
    (h : (store.upsert drafts options).result w = (.error (.conflict clash), w')) :
    ∃ keys, options.conflictKeys.mapM conflictKey = .ok keys ∧
      options.batchSize.getD store.config.upsertBatch ≠ 0 := by
  rw [upsert, Effect.result_bind, Effect.result_ofExcept] at h
  cases hkeys : options.conflictKeys.mapM conflictKey with
  | error e =>
    obtain ⟨raw, -, hraw⟩ := exists_of_mapM_error hkeys
    obtain ⟨reason, rfl⟩ := exists_of_conflictKey_error hraw
    rw [hkeys] at h
    cases h
  | ok keys =>
    refine ⟨keys, rfl, fun hzero => ?_⟩
    have refused : batchSize options.batchSize store.config.upsertBatch = refuse .zeroBatch := by
      rw [batchSize, hzero]
      rfl
    rw [hkeys] at h
    dsimp only at h
    rw [Effect.result_bind, Effect.result_ofExcept, refused] at h
    cases h

/-- An upsert that clashes in one of its batches leaves the records and the catalog that an upsert
of the batches before it leaves. -/
theorem exists_batches_of_clash {drafts : List Draft} {options : UpsertOptions} {clash : Clash}
    (h : (store.upsert drafts options).result w = (.error (.conflict clash), w')) :
    let size := options.batchSize.getD store.config.upsertBatch
    ∃ n result v, n * size < drafts.length ∧
      (store.upsert (drafts.take (n * size)) options).result w = (.ok result, v) ∧
      (store.upsert (drafts.take ((n + 1) * size)) options).result w =
        (.error (.conflict clash), w') ∧
      ∃ ids, w' = { v with ids := ids } := by
  intro size
  obtain ⟨keys, hkeys, hpositive⟩ := store.exists_keys_of_clash h
  have hsize : batchSize options.batchSize store.config.upsertBatch = .ok size :=
    batchSize_eq_ok hpositive
  rw [store.result_upsert_of_ok hkeys hsize] at h
  obtain ⟨done, failing, rest, result, v, hpieces, hdone, hfailing⟩ :=
    Effect.exists_of_foldlM_error h
  have before : pieces size (drafts.take (done.length * size)) = done := by
    rw [← take_pieces hpositive, hpieces, List.take_left]
  have upTo : pieces size (drafts.take ((done.length + 1) * size)) = done ++ [failing] := by
    rw [← take_pieces hpositive, hpieces, List.take_length_add_append, List.take_succ_cons,
      List.take_zero]
  refine ⟨done.length, result, v, ?_, ?_, ?_, store.upsertBatch_error hfailing⟩
  · refine Nat.lt_of_not_le fun hle => ?_
    rw [List.take_of_length_le hle, hpieces] at before
    exact absurd (congrArg List.length before) (by simp)
  · rw [store.result_upsert_of_ok hkeys hsize, before, hdone]
  · rw [store.result_upsert_of_ok hkeys hsize, upTo, List.foldlM_append,
      Effect.result_bind_ok hdone, List.foldlM_cons, Effect.result_bind, hfailing]

/-- A call or an indexing run that is refused leaves the world exactly as it was. An upsert that
clashes in one of its batches leaves the records and the catalog that the batches before it have
left, which are those that an upsert of their drafts leaves. -/
theorem failures_are_clean (store : Store collectionBackend) (w : World collectionBackend) :
    (∀ (call : Call) (reason : Invalid),
      ((call.run store).result w).1 = .error (.validation reason) →
      ((call.run store).result w).2 = w) ∧
    (∀ (since : Option Instant) (settings : IndexSettings) (reason : Invalid),
      ((store.index since settings).result w).1 = .error (.validation reason) →
      ((store.index since settings).result w).2 = w) ∧
    ∀ (drafts : List Draft) (options : UpsertOptions) (clash : Clash)
        (w' : World collectionBackend),
      (store.upsert drafts options).result w = (.error (.conflict clash), w') →
      let size := options.batchSize.getD store.config.upsertBatch
      ∃ n result v, n * size < drafts.length ∧
        (store.upsert (drafts.take (n * size)) options).result w = (.ok result, v) ∧
        (store.upsert (drafts.take ((n + 1) * size)) options).result w =
          (.error (.conflict clash), w') ∧
        w'.records = v.records ∧ w'.fields = v.fields := by
  refine ⟨fun call => call.refusesFirst_run store w,
    fun since settings => store.refusesFirst_index since settings w, ?_⟩
  intro drafts options clash w' h size
  obtain ⟨n, result, v, hn, hbefore, hfailing, ids, rfl⟩ := store.exists_batches_of_clash h
  exact ⟨n, result, v, hn, hbefore, hfailing, rfl, rfl⟩

/-- A batch size of zero is refused, and the third of three batches takes the id of the first. -/
theorem failures_are_clean_third_batch :
    let store : Store collectionBackend :=
      ⟨(), { StoreConfig.default with upsertBatch := 1, indexBatch := 0 }⟩
    let w : World collectionBackend := ⟨Memory.empty, 5, ⟨["a", "b", "a"], "", 0⟩, none⟩
    let request : BulkDeleteRequest := ⟨⟨"", ""⟩, .empty, default, false, true, some 0⟩
    let drafts : List Draft := [default, default, default]
    let options : UpsertOptions := ⟨[], .fail, none, default⟩
    ((store.bulkDelete request).result w).1 = .error (.validation .zeroBatch) ∧
      (((Call.operation (.bulkDelete request)).run store).result w).2 = w ∧
      ((store.index none default).result w).2 = w ∧
      ∃ n result v, n < 3 ∧
        (store.upsert (drafts.take (n * 1)) options).result w = (.ok result, v) ∧
        ((store.upsert drafts options).result w).2.records = v.records := by
  intro store w request drafts options
  have batches : pieces 1 drafts = [[default], [default], [default]] := by simp [drafts, pieces]
  have size : batchSize options.batchSize store.config.upsertBatch = .ok 1 := rfl
  have clash :
      ((store.upsert drafts options).result w).1 = .error (.conflict (.duplicateId "a")) := by
    rw [← failure?_eq_some_iff, store.result_upsert_of_ok rfl size, batches]
    decide +kernel
  obtain ⟨refusals, indexing, clashes⟩ := failures_are_clean store w
  refine ⟨rfl, refusals (.operation (.bulkDelete request)) .zeroBatch rfl,
    indexing none default .zeroIndexBatch rfl, ?_⟩
  obtain ⟨n, result, v, hn, hbefore, -, hrecords, -⟩ :=
    clashes drafts options (.duplicateId "a") _ (Prod.ext clash rfl)
  exact ⟨n, result, v, by simpa [options, store, drafts] using hn, hbefore, hrecords⟩

end Store

end RecordStore
