import RecordStore.Proofs.Upsert.Batch

/-!
# What a batch does to the records that are there

The drafts of a batch that are in conflict with the same record are folded into it one after the
other, and it is written once (`Store.upsertBatch_folds`), if drafts that find the same record have the
same key. Values that are equal as numbers can be different keys: then one record is put together
twice, and only the last version is kept (`Store.upsertBatch_loses_merge`).
-/

namespace RecordStore

open Collection

/-- A payload with those of some drafts merged into it, one after the other. -/
def Value.mergeAll (way : UpdateWay) (payload : Value) (drafts : List Draft) : Value :=
  drafts.foldl (fun payload draft => payload.merge way draft.payload) payload

/-- The payload of a record after the drafts that are in conflict with it. -/
def Record.merged (r : Record) (way : UpdateWay) (keys : List Path) (records : Collection)
    (drafts : List Draft) : Value :=
  r.payload.mergeAll way (drafts.filter fun draft => draft.conflict? keys records = some r)

/-- Drafts that are in conflict with the same record have the same key. -/
def KeysAgree (keys : List Path) (records : Collection) (drafts : List Draft) : Prop :=
  ∀ draft ∈ drafts, ∀ other ∈ drafts, ∀ r, draft.conflict? keys records = some r →
    other.conflict? keys records = some r → draft.upsertKey? keys = other.upsertKey? keys

variable {records : Collection} {keys : List Path} {way : UpdateWay} {draft : Draft}
  {done : List Draft} {r : Record} {key : UpsertKey}

theorem Draft.conflict?_of_key (h : draft.upsertKey? keys = some key) :
    draft.conflict? keys records = records.first? (key.clause keys) := by
  rw [conflict?, h, Option.bind_some]

theorem Draft.exists_key_of_conflict? (hrecords : records.WellFormed)
    (h : draft.conflict? keys records = some r) :
    records.Stores r ∧ ∃ key, draft.upsertKey? keys = some key := by
  obtain ⟨key, hkey, hfound⟩ := Option.bind_eq_some_iff.1 h
  exact ⟨(stores_of_first? hrecords hfound).1, key, hkey⟩

theorem Record.merged_append_of_conflict (h : draft.conflict? keys records = some r) :
    r.merged way keys records (done ++ [draft]) =
      (r.merged way keys records done).merge way draft.payload := by
  rw [merged, merged, Value.mergeAll, Value.mergeAll, List.filter_append, List.foldl_append,
    List.filter_cons_of_pos (by simpa using h)]
  rfl

theorem Record.merged_append_of_ne (h : draft.conflict? keys records ≠ some r) :
    r.merged way keys records (done ++ [draft]) = r.merged way keys records done := by
  rw [merged, merged, List.filter_append, List.filter_cons_of_neg (by simpa using h),
    List.filter_nil, List.append_nil]

/-- Drafts that are not in conflict with a record leave its payload as it is. -/
theorem Record.merged_of_forall_ne (h : ∀ draft ∈ done, draft.conflict? keys records ≠ some r) :
    r.merged way keys records done = r.payload := by
  have none : done.filter (fun draft => draft.conflict? keys records = some r) = [] :=
    List.filter_eq_nil_iff.2 fun draft hdraft hconflict => h draft hdraft (of_decide_eq_true hconflict)
  rw [merged, none]
  rfl

/-- A target rewrites the record that drafts have found, with their payloads merged into it. -/
structure UpsertTarget.Folds (target : UpsertTarget) (records : Collection) (keys : List Path)
    (way : UpdateWay) (done : List Draft) (r : Record) : Prop where
  isChanged : target.isChanged = true
  found : ∃ draft ∈ done, draft.upsertKey? keys = target.key ∧ draft.conflict? keys records = some r
  id_eq : target.record.id = r.id
  payload_eq : target.record.payload = r.merged way keys records done

/-- Each target of a batch has a key of its own if it has one. Each key of a draft is that of a
target, which is a new record if the key finds none, and folds the record that is found
otherwise. -/
structure UpsertBatch.Folds (batch : UpsertBatch) (records : Collection) (keys : List Path)
    (way : UpdateWay) (done : List Draft) : Prop where
  distinct : batch.Distinct
  pending : ∀ draft ∈ done, ∀ key, draft.upsertKey? keys = some key →
    ∃ target ∈ batch.targets, target.key = some key
  new : ∀ target ∈ batch.targets, target.isNew = true → ∀ key, target.key = some key →
    records.first? (key.clause keys) = none
  old : ∀ target ∈ batch.targets, target.isNew = false →
    ∃ r, target.Folds records keys way done r

/-- A draft with another key leaves what a target folds as it is. -/
theorem UpsertTarget.Folds.append {target : UpsertTarget} (h : target.Folds records keys way done r)
    (hagree : KeysAgree keys records (done ++ [draft])) (hkey : draft.upsertKey? keys ≠ target.key) :
    target.Folds records keys way (done ++ [draft]) r := by
  obtain ⟨other, hother, hsame, hconflict⟩ := h.found
  refine ⟨h.isChanged, ⟨other, List.mem_append_left _ hother, hsame, hconflict⟩, h.id_eq, ?_⟩
  rw [Record.merged_append_of_ne, h.payload_eq]
  intro hdraft
  exact hkey ((hagree draft (List.mem_append_right _ List.mem_cons_self) other
    (List.mem_append_left _ hother) r hdraft hconflict).trans hsame)

/-- A draft with the key of a target is merged into what it folds. -/
theorem UpsertTarget.Folds.combine {target : UpsertTarget} (h : target.Folds records keys way done r)
    (hkey : draft.upsertKey? keys = target.key) (hnew : target.isNew = false) (now : Instant)
    (actor : Actor) :
    (target.combine way draft now actor).Folds records keys way (done ++ [draft]) r := by
  obtain ⟨other, hother, hsame, hconflict⟩ := h.found
  have conflict : draft.conflict? keys records = some r := by
    rwa [Draft.conflict?, hkey, ← hsame]
  have shape : (target.combine way draft now actor).record =
      { target.record with payload := target.record.payload.merge way draft.payload }.touch now
        actor := by
    rw [UpsertTarget.combine, if_neg (by rw [hnew]; exact Bool.false_ne_true)]
  refine ⟨rfl, ⟨other, List.mem_append_left _ hother, hsame, hconflict⟩, ?_, ?_⟩
  · rw [shape]
    exact h.id_eq
  · rw [shape, Record.merged_append_of_conflict conflict, ← h.payload_eq]
    rfl

namespace UpsertBatch

variable {batch : UpsertBatch} {target : UpsertTarget}

theorem folds_nil (result : UpsertResult) : Folds ⟨[], result⟩ records keys way [] :=
  ⟨List.Pairwise.nil, by simp, by simp, by simp⟩

/-- A batch with one more target that has a key of its own. -/
theorem Folds.push (h : batch.Folds records keys way done)
    (hagree : KeysAgree keys records (done ++ [draft])) (hkey : draft.upsertKey? keys = target.key)
    (hpending : ∀ t ∈ batch.targets, ∀ key, t.key = some key → target.key ≠ some key)
    (hnew : target.isNew = true → ∀ key, target.key = some key →
      records.first? (key.clause keys) = none)
    (hold : target.isNew = false → ∃ r, target.Folds records keys way (done ++ [draft]) r) :
    (batch.push target).Folds records keys way (done ++ [draft]) := by
  refine ⟨h.distinct.push hpending, fun other hother k hk => ?_, fun t ht hnew' => ?_,
    fun t ht hold' => ?_⟩
  · rcases List.mem_append.1 hother with hother | hother
    · obtain ⟨t, ht, htk⟩ := h.pending other hother k hk
      exact ⟨t, List.mem_append_left _ ht, htk⟩
    · rw [List.mem_singleton.1 hother, hkey] at hk
      exact ⟨target, List.mem_append_right _ List.mem_cons_self, hk⟩
  · rcases mem_push.1 ht with ht | rfl
    · exact h.new t ht hnew'
    · exact hnew hnew'
  · rcases mem_push.1 ht with ht | rfl
    · obtain ⟨r, hr⟩ := h.old t ht hold'
      refine ⟨r, hr.append hagree fun heq => ?_⟩
      obtain ⟨other, -, hsame, hconflict⟩ := hr.found
      cases hk : t.key with
      | none =>
        rw [Draft.conflict?, hsame, hk] at hconflict
        cases hconflict
      | some k => exact hpending t ht k hk (hkey ▸ heq.trans hk)
    · exact hold hold'

/-- A batch in which a target has been combined with a draft that has its key. -/
theorem Folds.setTarget (h : batch.Folds records keys way done)
    (hagree : KeysAgree keys records (done ++ [draft])) (hkey : draft.upsertKey? keys = some key)
    (htarget : batch.target? key = some target) (now : Instant) (actor : Actor) :
    (batch.setTarget key (target.combine way draft now actor)).Folds records keys way
      (done ++ [draft]) := by
  obtain ⟨hmem, htkey⟩ := mem_of_target? htarget
  have combinedKey : (target.combine way draft now actor).key = some key := htkey
  have sameKey := key_setTarget combinedKey
  refine ⟨h.distinct.setTarget htkey, fun other hother k hk => ?_, fun t ht hnew => ?_,
    fun t ht hold => ?_⟩
  · rcases List.mem_append.1 hother with hother | hother
    · obtain ⟨t, ht, htk⟩ := h.pending other hother k hk
      exact ⟨_, List.mem_map_of_mem ht, (sameKey t).trans htk⟩
    · rw [List.mem_singleton.1 hother, hkey] at hk
      exact ⟨_, List.mem_map_of_mem hmem, (sameKey target).trans (htkey.trans hk)⟩
  · rcases mem_setTarget ht with rfl | ⟨ht, -⟩
    · exact h.new target hmem hnew
    · exact h.new t ht hnew
  · rcases mem_setTarget ht with rfl | ⟨ht, hother⟩
    · obtain ⟨r, hr⟩ := h.old target hmem hold
      exact ⟨r, hr.combine (hkey.trans htkey.symm) hold now actor⟩
    · obtain ⟨r, hr⟩ := h.old t ht hold
      exact ⟨r, hr.append hagree fun heq => hother (heq.symm.trans hkey)⟩

theorem Folds.next (h : batch.Folds records keys way done) {options : UpsertOptions}
    (hway : options.onConflict = .combine way) (hagree : KeysAgree keys records (done ++ [draft]))
    (now : Instant) (ids : IdSource) :
    (UpsertBatch.next records options keys now (batch, ids) draft).1.Folds records keys way
      (done ++ [draft]) := by
  have counted : batch.count.Folds records keys way done := ⟨h.distinct, h.pending, h.new, h.old⟩
  rw [UpsertBatch.next]
  dsimp only
  cases hkey : draft.upsertKey? keys with
  | none =>
    exact counted.push hagree hkey (fun _ _ _ _ hk => by cases hk) (fun _ _ hk => by cases hk)
      fun hold => by cases hold
  | some key =>
    dsimp only
    cases htarget : batch.count.target? key with
    | some target =>
      dsimp only
      rw [meet, hway]
      exact counted.setTarget hagree hkey htarget now options.actor
    | none =>
      have fresh : ∀ t ∈ batch.count.targets, ∀ k, t.key = some k → some key ≠ some k :=
        fun t ht k hk heq => target?_eq_none_iff.1 htarget t ht (hk.trans heq.symm)
      cases hfound : records.first? (key.clause keys) with
      | none =>
        refine counted.push hagree hkey fresh (fun _ k hk => ?_) fun hold => by cases hold
        cases hk
        exact hfound
      | some r =>
        dsimp only
        rw [meet, hway]
        dsimp only
        rw [setTarget_push htarget rfl]
        refine counted.push hagree hkey fresh (fun hnew => by cases hnew) fun _ => ⟨r, ?_⟩
        have conflict : draft.conflict? keys records = some r :=
          (Draft.conflict?_of_key hkey).trans hfound
        have others : ∀ other ∈ done, other.conflict? keys records ≠ some r := by
          intro other hother hconflict
          have same := hagree other (List.mem_append_left _ hother) draft
            (List.mem_append_right _ List.mem_cons_self) r hconflict conflict
          obtain ⟨t, ht, htk⟩ := h.pending other hother key (same.trans hkey)
          exact target?_eq_none_iff.1 htarget t ht htk
        refine ⟨rfl, ⟨draft, List.mem_append_right _ List.mem_cons_self, hkey, conflict⟩, rfl, ?_⟩
        rw [Record.merged_append_of_conflict conflict, Record.merged_of_forall_ne others]
        rfl

theorem folds_ofDrafts {options : UpsertOptions} (hway : options.onConflict = .combine way)
    {drafts : List Draft} (hagree : KeysAgree keys records drafts) (now : Instant)
    (result : UpsertResult) (ids : IdSource) :
    (ofDrafts records options keys now result ids drafts).1.Folds records keys way drafts := by
  -- The induction is on the drafts that are left; the invariant speaks of those that are done.
  have run : ∀ (rest done : List Draft) (batch : UpsertBatch) (ids : IdSource),
      batch.Folds records keys way done → KeysAgree keys records (done ++ rest) →
      (rest.foldl (UpsertBatch.next records options keys now) (batch, ids)).1.Folds records keys way
        (done ++ rest) := by
    intro rest
    induction rest with
    | nil => exact fun done batch ids h _ => by rwa [List.append_nil]
    | cons draft rest ih =>
      intro done batch ids h hagree
      have first : KeysAgree keys records (done ++ [draft]) := by
        have part : ∀ d ∈ done ++ [draft], d ∈ done ++ draft :: rest := by
          intro d hd
          rw [List.append_cons]
          exact List.mem_append_left _ hd
        exact fun d hd d' hd' => hagree d (part d hd) d' (part d' hd')
      rw [List.append_cons] at hagree ⊢
      exact ih _ _ _ (h.next hway first now ids) hagree
  exact run drafts [] ⟨[], result⟩ ids (folds_nil result) hagree

/-- A record that a batch replaces is a stored one with the drafts merged into it that are in conflict
with it. -/
theorem Folds.of_mem_changedRecords (h : batch.Folds records keys way done)
    (hrecords : records.WellFormed) {s : Record} (hs : s ∈ batch.changedRecords) :
    ∃ r, records.Stores r ∧ s.id = r.id ∧ s.payload = r.merged way keys records done := by
  obtain ⟨target, hmem, hold, -, rfl⟩ := mem_changedRecords.1 hs
  obtain ⟨r, hr⟩ := h.old target hmem hold
  obtain ⟨draft, -, -, hconflict⟩ := hr.found
  exact ⟨r, (Draft.exists_key_of_conflict? hrecords hconflict).1, hr.id_eq, hr.payload_eq⟩

/-- Different targets fold different records. -/
theorem Folds.nodup_changedRecords (h : batch.Folds records keys way done)
    (hrecords : records.WellFormed) (hagree : KeysAgree keys records done) :
    (batch.changedRecords.map Record.id).Nodup := by
  rw [changedRecords, List.map_map, List.nodup_iff_pairwise_ne, List.pairwise_map]
  refine (h.distinct.filter _).imp_of_mem fun {a b} ha hb hab hid => ?_
  have folded : ∀ t ∈ batch.targets.filter (fun t => !t.isNew && t.isChanged),
      ∃ r, t.Folds records keys way done r := by
    intro t ht
    obtain ⟨hmem, hchanged⟩ := List.mem_filter.1 ht
    rw [Bool.and_eq_true, Bool.not_eq_true'] at hchanged
    exact h.old t hmem hchanged.1
  obtain ⟨r, hr⟩ := folded a ha
  obtain ⟨s, hs⟩ := folded b hb
  obtain ⟨d, hd, hdkey, hdr⟩ := hr.found
  obtain ⟨d', hd', hdkey', hds⟩ := hs.found
  obtain ⟨hstored, key, hkey⟩ := Draft.exists_key_of_conflict? hrecords hdr
  have same : some r = some s := by
    rw [← hstored, ← (Draft.exists_key_of_conflict? hrecords hds).1, ← hr.id_eq, ← hs.id_eq]
    exact congrArg (Keyed.get? · records) hid
  cases same
  have keys := hagree d hd d' hd' r hdr hds
  exact hab key (hdkey.symm.trans hkey) (hdkey'.symm.trans (keys.symm.trans hkey))

/-- A stored record that no changed record rewrites is one that no draft is in conflict with. -/
theorem Folds.merged_eq_payload (h : batch.Folds records keys way done)
    (hr : ∀ s ∈ batch.changedRecords, s.id ≠ r.id) :
    r.merged way keys records done = r.payload := by
  refine Record.merged_of_forall_ne fun draft hdraft hconflict => ?_
  obtain ⟨key, hkey, hfound⟩ := Option.bind_eq_some_iff.1 hconflict
  obtain ⟨target, hmem, htarget⟩ := h.pending draft hdraft key hkey
  cases hnew : target.isNew with
  | true =>
    rw [h.new target hmem hnew key htarget] at hfound
    cases hfound
  | false =>
    obtain ⟨s, hs⟩ := h.old target hmem hnew
    obtain ⟨other, -, hsame, hother⟩ := hs.found
    rw [Draft.conflict?, hsame, htarget, Option.bind_some, hfound] at hother
    cases hother
    exact hr target.record (mem_changedRecords.2 ⟨target, hmem, hnew, hs.isChanged, rfl⟩) hs.id_eq

theorem updatedRecords_next (records : Collection) (options : UpsertOptions) (keys : List Path)
    (now : Instant) (state : UpsertBatch × IdSource) (draft : Draft) :
    (UpsertBatch.next records options keys now state draft).1.result.updatedRecords =
      state.1.result.updatedRecords := by
  have meets : ∀ key target (batch : UpsertBatch),
      (batch.meet options now key target draft).result.updatedRecords =
        batch.result.updatedRecords := by
    intro key target batch
    rw [meet]
    cases options.onConflict <;> rfl
  rw [UpsertBatch.next]
  dsimp only
  split
  · rfl
  · split
    · exact meets _ _ _
    · split
      · rfl
      · exact meets _ _ _

/-- What is put together does not change what has been written before. -/
theorem updatedRecords_ofDrafts (records : Collection) (options : UpsertOptions)
    (keys : List Path) (now : Instant) (result : UpsertResult) (ids : IdSource)
    (drafts : List Draft) :
    (ofDrafts records options keys now result ids drafts).1.result.updatedRecords =
      result.updatedRecords := by
  rw [ofDrafts]
  have start : result.updatedRecords = (⟨[], result⟩ : UpsertBatch).result.updatedRecords := rfl
  rw [start]
  generalize (⟨[], result⟩ : UpsertBatch) = batch
  induction drafts generalizing batch ids with
  | nil => rfl
  | cons draft rest ih =>
    rw [List.foldl_cons, ih, updatedRecords_next]

end UpsertBatch

/-! ## Batches that are written -/

/-- A batch that succeeds writes each record that was there at most once, with the payloads of all
drafts that were in conflict with it merged into its own in their order. -/
theorem Store.upsertBatch_folds {w : World collectionBackend} (hw : w.records.WellFormed)
    {options : UpsertOptions} (hway : options.onConflict = .combine way) {drafts : List Draft}
    (hagree : KeysAgree keys w.records drafts) (store : Store collectionBackend)
    {before after : UpsertResult} {w' : World collectionBackend}
    (hrun : (store.upsertBatch options keys before drafts).result w = (.ok after, w')) :
    ∃ inserted replaced, w'.records = (Collection.replace replaced inserted).2 ∧
      after.updatedRecords = before.updatedRecords ++ replaced ∧
      (replaced.map Record.id).Nodup ∧
      ∀ r, w.records.Stores r → ∃ s, w'.records.Stores s ∧ s.id = r.id ∧
        s.payload = r.merged way keys w.records drafts := by
  rw [store.result_upsertBatch] at hrun
  have folds := UpsertBatch.folds_ofDrafts hway hagree w.clock before w.ids
  have written := UpsertBatch.updatedRecords_ofDrafts w.records options keys w.clock before w.ids drafts
  dsimp only at hrun
  generalize UpsertBatch.ofDrafts w.records options keys w.clock before w.ids drafts = final
    at hrun folds written
  have nodup := folds.nodup_changedRecords hw hagree
  cases hinsert : World.records { w with ids := final.2 } |>.insert final.1.newRecords with
  | error e => rw [hinsert] at hrun; cases hrun
  | ok inserted =>
    rw [hinsert] at hrun
    cases hrun
    refine ⟨inserted, final.1.changedRecords, rfl, ?_, nodup, fun r hr => ?_⟩
    · rw [UpsertBatch.finish, written]
    have kept : inserted.Stores r := get?_of_insert hinsert hr
    -- A record that is not written again is one that no draft is in conflict with.
    by_cases hchanged : ∃ s ∈ final.1.changedRecords, s.id = r.id
    · obtain ⟨s, hs, hid⟩ := hchanged
      obtain ⟨t, ht, htid, hpayload⟩ := folds.of_mem_changedRecords hw hs
      have same : some t = some r := by
        rw [← ht, ← htid, hid]
        exact hr
      cases same
      refine ⟨s, stores_of_replace nodup (fun s hs => ?_) s hs, hid, hpayload⟩
      obtain ⟨t, ht, htid, -⟩ := folds.of_mem_changedRecords hw hs
      rw [Keyed.contains, htid, get?_of_insert hinsert ht]
      rfl
    · have others : ∀ s ∈ final.1.changedRecords, s.id ≠ r.id :=
        fun s hs hid => hchanged ⟨s, hs, hid⟩
      exact ⟨r, (get?_replace_of_not_mem others).trans kept, rfl,
        (folds.merged_eq_payload others).symm⟩

/-- Two drafts with the same key are merged into a record one after the other. -/
theorem Store.upsertBatch_folds_twice :
    let draft (fields : Fields) : Draft := ⟨"app", "g", "t", .object fields, true, none⟩
    let r := Record.ofDraft (draft [("a", .int 0), ("k", .int 1)]) "r" 1 default
    let drafts := [draft [("a", .int 1), ("k", .int 1)], draft [("b", .int 2), ("k", .int 1)]]
    let keys : List Path := [⟨[.key "k"]⟩]
    let options : UpsertOptions := ⟨["k"], .combine .merge, none, default⟩
    let w : World collectionBackend := ⟨⟨[("r", r)], []⟩, 2, default, none⟩
    let store : Store collectionBackend := ⟨(), .default⟩
    KeysAgree keys w.records drafts ∧ ∃ after w' s,
      (store.upsertBatch options keys .empty drafts).result w = (.ok after, w') ∧
      w'.records.Stores s ∧ s.id = "r" ∧
      s.payload = .object [("a", .int 1), ("b", .int 2), ("k", .int 1)] := by
  intro draft r drafts keys options w store
  have agree : KeysAgree keys w.records drafts := by
    have key : ∀ d ∈ drafts, d.upsertKey? keys = some ⟨⟨"app", "g", "t"⟩, [.int 1]⟩ := by
      decide +kernel
    exact fun d hd d' hd' _ _ _ => (key d hd).trans (key d' hd').symm
  have succeeds : ((store.upsertBatch options keys .empty drafts).result w).1.toOption.isSome := by
    decide +kernel
  have merged : r.merged .merge keys w.records drafts =
      .object [("a", .int 1), ("b", .int 2), ("k", .int 1)] := by decide +kernel
  have wellFormed : w.records.WellFormed := wellFormed_nil.insertOne r
  refine ⟨agree, ?_⟩
  cases hrun : (store.upsertBatch options keys .empty drafts).result w with
  | mk outcome w' =>
    cases outcome with
    | error e => rw [hrun] at succeeds; cases succeeds
    | ok after =>
      obtain ⟨-, -, -, -, -, kept⟩ := Store.upsertBatch_folds wellFormed rfl agree store hrun
      obtain ⟨s, stored, hid, payload⟩ := kept r rfl
      exact ⟨after, w', s, rfl, stored, hid, payload.trans merged⟩

/-- Two drafts have the number one as their key, first as an integer and then as a double. Both find
the same record, which is put together twice, and what the first draft brings is lost. -/
theorem Store.upsertBatch_loses_merge :
    let draft (fields : Fields) : Draft := ⟨"app", "g", "t", .object fields, true, none⟩
    let r := Record.ofDraft (draft [("a", .int 0), ("k", .int 1)]) "r" 1 default
    let drafts := [draft [("a", .int 1), ("k", .int 1)],
      draft [("b", .int 2), ("k", .double (Double.ofInt 1))]]
    let keys : List Path := [⟨[.key "k"]⟩]
    let options : UpsertOptions := ⟨["k"], .combine .merge, none, default⟩
    let w : World collectionBackend := ⟨⟨[("r", r)], []⟩, 2, default, none⟩
    let store : Store collectionBackend := ⟨(), .default⟩
    let run := (store.upsertBatch options keys .empty drafts).result w
    options.conflictKeys.mapM conflictKey = .ok keys ∧
      run.1.toOption.map (fun after => after.updatedRecords.map Record.id) = some ["r", "r"] ∧
      (Keyed.get? "r" run.2.records).map Record.payload =
        some (.object [("a", .int 0), ("b", .int 2), ("k", .double (Double.ofInt 1))]) ∧
      r.merged .merge keys w.records drafts =
        .object [("a", .int 1), ("b", .int 2), ("k", .double (Double.ofInt 1))] := by
  intro draft r drafts keys options w store run
  refine ⟨by rfl, by decide +kernel, by decide +kernel, by decide +kernel⟩

end RecordStore
