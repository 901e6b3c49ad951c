import RecordStore.Proofs.Store.Evolution
import RecordStore.Proofs.Store.Access

/-!
# Upserts keep records

While a batch is put together, each of its targets is a new record or rewrites a live record that is
stored (`UpsertBatch.Allowed`). So what the batch writes at its end keeps everything that is there.
-/

namespace RecordStore

open Collection Evolution

/-- A target is a new record, or rewrites a live record that is stored. -/
structure UpsertTarget.Allowed (target : UpsertTarget) (records : Collection) : Prop where
  new : target.isNew = true → target.record.MarksAgree
  stored : target.isNew = false →
    ∃ r, records.Stores r ∧ r.isDeleted = false ∧ r.Rewrites target.record

/-- All targets of a batch are allowed. -/
def UpsertBatch.Allowed (batch : UpsertBatch) (records : Collection) : Prop :=
  ∀ target ∈ batch.targets, target.Allowed records

variable {batch : UpsertBatch} {target : UpsertTarget} {records : Collection}

theorem UpsertTarget.Allowed.combine (h : target.Allowed records) (way : UpdateWay) (draft : Draft)
    (now : Instant) (actor : Actor) : (target.combine way draft now actor).Allowed records := by
  refine ⟨fun hnew => ?_, fun hstored => ?_⟩
  · have hnew : target.isNew = true := hnew
    have marks := h.new hnew
    rw [UpsertTarget.combine, if_pos hnew]
    exact ⟨marks.deletedBy, marks.deletedByType⟩
  · have hstored : target.isNew = false := hstored
    obtain ⟨r, hr, hlive, hrewrites⟩ := h.stored hstored
    refine ⟨r, hr, hlive, hrewrites.trans ?_⟩
    rw [UpsertTarget.combine, if_neg (by rw [hstored]; exact Bool.false_ne_true)]
    rfl

theorem UpsertBatch.Allowed.push (h : batch.Allowed records) (htarget : target.Allowed records) :
    (batch.push target).Allowed records := by
  intro other hother
  rcases List.mem_append.1 hother with hother | hother
  · exact h other hother
  · rwa [List.mem_singleton.1 hother]

theorem UpsertBatch.Allowed.setTarget (h : batch.Allowed records) (htarget : target.Allowed records)
    (key : UpsertKey) : (batch.setTarget key target).Allowed records := by
  intro other hother
  obtain ⟨old, hold, rfl⟩ := List.mem_map.1 hother
  split
  · exact htarget
  · exact h old hold

/-- Storing more keeps a batch allowed. -/
theorem UpsertBatch.Allowed.mono {more : Collection} (h : batch.Allowed records)
    (hmore : ∀ r, records.Stores r → more.Stores r) : batch.Allowed more := by
  refine fun target htarget => ⟨(h target htarget).new, fun hstored => ?_⟩
  obtain ⟨r, hr, hrest⟩ := (h target htarget).stored hstored
  exact ⟨r, hmore r hr, hrest⟩

theorem UpsertBatch.Allowed.marksAgree (h : batch.Allowed records) :
    ∀ r ∈ batch.newRecords, r.MarksAgree := by
  intro r hr
  obtain ⟨target, htarget, rfl⟩ := List.mem_map.1 hr
  obtain ⟨hmem, hnew⟩ := List.mem_filter.1 htarget
  exact (h target hmem).new hnew

theorem UpsertBatch.Allowed.exists_stored (h : batch.Allowed records) :
    ∀ s ∈ batch.changedRecords, ∃ r, records.Stores r ∧ r.isDeleted = false ∧ r.Rewrites s := by
  intro s hs
  obtain ⟨target, htarget, rfl⟩ := List.mem_map.1 hs
  obtain ⟨hmem, hchanged⟩ := List.mem_filter.1 htarget
  rw [Bool.and_eq_true, Bool.not_eq_true'] at hchanged
  exact (h target hmem).stored hchanged.1

theorem UpsertKey.selectsLive_clause (key : UpsertKey) (keys : List Path) :
    (key.clause keys).SelectsLive :=
  (Scope.selectsLive_clause ⟨key.partition.appId, key.partition.tag⟩).all_cons _

namespace Store

variable {R : Evolution} (store : Store collectionBackend) (options : UpsertOptions)

theorem upholds_upsertNew (key : Option UpsertKey) (draft : Draft) (batch : UpsertBatch) :
    R.Upholds batch.Allowed (upsertNew (B := collectionBackend) options key draft batch)
      UpsertBatch.Allowed := by
  refine (upholds_newRecord draft options.actor).bind fun r => upholds_pure fun records hp => ?_
  exact hp.1.push ⟨fun _ => hp.2, fun hstored => by cases hstored⟩

theorem upholds_upsertConflict (key : UpsertKey) (target : UpsertTarget) (draft : Draft)
    (batch : UpsertBatch) :
    R.Upholds (fun records => batch.Allowed records ∧ target.Allowed records)
      (upsertConflict (B := collectionBackend) options key target draft batch)
      UpsertBatch.Allowed := by
  refine upholds_now.bind fun now => upholds_pure fun records hp => ?_
  cases options.onConflict with
  | combine way => exact hp.1.setTarget (hp.2.combine way draft now options.actor) key
  | ignore => exact hp.1
  | fail => exact hp.1

theorem upholds_upsertItem (keys : List Path) (batch : UpsertBatch) (draft : Draft) :
    R.Upholds batch.Allowed (store.upsertItem options keys batch draft) UpsertBatch.Allowed := by
  unfold upsertItem
  dsimp only
  cases draft.keyValues? keys with
  | none =>
    exact (upholds_upsertNew options none draft _).weaken (fun _ hp => hp) fun _ _ => id
  | some values =>
    dsimp only
    split
    · next target htarget =>
      refine (upholds_upsertConflict options _ target draft _).weaken (fun records hp => ?_)
        fun _ _ => id
      exact ⟨hp, hp target (List.mem_of_find?_eq_some htarget)⟩
    · refine (store.upholds_first? _).bind fun found => ?_
      cases found with
      | none => exact (upholds_upsertNew options _ draft _).weaken (fun _ hp => hp.1) fun _ _ => id
      | some r =>
        refine (upholds_upsertConflict options _ _ draft _).weaken (fun records hp => ?_)
          fun _ _ => id
        obtain ⟨hstored, hholds⟩ := hp.2 r rfl
        have allowed : UpsertTarget.Allowed ⟨some ⟨draft.partition, values⟩, r, false, false⟩
            records :=
          ⟨fun hnew => absurd hnew Bool.false_ne_true, fun _ =>
            ⟨r, hstored, UpsertKey.selectsLive_clause _ keys r hholds, .refl r⟩⟩
        exact ⟨UpsertBatch.Allowed.push hp.1 allowed, allowed⟩

theorem admits_upsertBatch (keys : List Path) (result : UpsertResult) (drafts : List Draft) :
    kept.Admits (store.upsertBatch options keys result drafts) := by
  have start : ∀ records, UpsertBatch.Allowed ⟨[], result⟩ records :=
    fun _ target htarget => absurd htarget List.not_mem_nil
  refine Upholds.bind ((upholds_foldlM drafts (fun batch draft _ =>
    store.upholds_upsertItem options keys batch draft) ⟨[], result⟩).weaken
      (fun records _ => start records) fun _ _ => id) fun batch => ?_
  have write : kept.Upholds batch.Allowed (do
      unless batch.changedRecords.isEmpty do
        let _ ← store.replace batch.changedRecords
      return { batch.result with
        newRecords := batch.result.newRecords ++ batch.newRecords
        updatedRecords := batch.result.updatedRecords ++ batch.changedRecords })
      fun _ _ => True := by
    refine upholds_ite (fun _ => upholds_pure fun _ _ => trivial) fun _ => ?_
    exact (store.upholds_replace _ fun _ hp => hp.exists_stored).bind fun _ =>
      upholds_pure fun _ _ => trivial
  refine upholds_ite (fun _ => write) fun _ => ?_
  refine (store.upholds_insert _ fun _ hp => hp.marksAgree).bind fun _ =>
    write.weaken (fun records hp => ?_) fun _ _ => id
  obtain ⟨old, hold, hmore⟩ := hp
  exact hold.mono hmore

/-- What the batches of an upsert admit, it admits. -/
theorem admits_upsert_of_batch (drafts : List Draft)
    (h : ∀ keys result, ∀ piece : List Draft, (∀ draft ∈ piece, draft ∈ drafts) →
      R.Admits (store.upsertBatch options keys result piece)) :
    R.Admits (store.upsert drafts options) := by
  refine (upholds_ofExcept _).admits.bind fun keys => ?_
  refine (upholds_ofExcept _).admits.bind fun size => ?_
  refine upholds_foldlM (t := fun _ _ => True) _ (fun result piece hpiece => ?_) _
  exact h keys result piece fun draft hdraft =>
    (exists_mem_pieces size drafts).1 ⟨piece, hpiece, hdraft⟩

theorem admits_upsert (drafts : List Draft) : kept.Admits (store.upsert drafts options) :=
  store.admits_upsert_of_batch options drafts fun keys result piece _ =>
    store.admits_upsertBatch options keys result piece

end Store

end RecordStore
