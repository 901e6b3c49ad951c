import Mathlib.Data.List.Induction
import RecordStore.Proofs.Backend.Lookup
import RecordStore.Proofs.Store.Upsert

/-!
# A batch of an upsert as a function

While a batch is put together nothing is written. So what becomes of it depends on the records before
the batch, the time, and the source of ids only (`UpsertBatch.next`), and a batch as a whole is a fold
over its drafts followed by an insertion and a replacement (`Store.result_upsertBatch`).
-/

namespace RecordStore

open Collection

/-- Members of a list whose members are pairwise related are the same if they are not related. -/
theorem eq_of_pairwise {α : Type} {R : α → α → Prop} {items : List α} (h : items.Pairwise R)
    {a b : α} (ha : a ∈ items) (hb : b ∈ items) (hab : ¬R a b) (hba : ¬R b a) : a = b := by
  induction h with
  | nil => cases ha
  | cons hfirst _ ih =>
    rcases List.mem_cons.1 ha with rfl | hrest
    · rcases List.mem_cons.1 hb with rfl | hrest'
      · rfl
      · exact absurd (hfirst b hrest') hab
    · rcases List.mem_cons.1 hb with rfl | hrest'
      · exact absurd (hfirst a hrest) hba
      · exact ih hrest hrest'

/-- What identifies a draft at some conflict keys, if anything does. -/
def Draft.upsertKey? (draft : Draft) (keys : List Path) : Option UpsertKey :=
  (draft.keyValues? keys).map fun values => ⟨draft.partition, values⟩

/-- The record that a draft is in conflict with. -/
def Draft.conflict? (draft : Draft) (keys : List Path) (records : Collection) : Option Record :=
  (draft.upsertKey? keys).bind fun key => records.first? (key.clause keys)

/-- A record that has been found under a key. -/
def UpsertTarget.found (key : UpsertKey) (r : Record) : UpsertTarget := ⟨some key, r, false, false⟩

namespace UpsertBatch

/-- Counts an item. -/
def count (batch : UpsertBatch) : UpsertBatch :=
  { batch with result :=
    { batch.result with totalProcessed := batch.result.totalProcessed + 1 } }

/-- Adds the record that a draft becomes. -/
def add (options : UpsertOptions) (now : Instant) (key : Option UpsertKey) (draft : Draft)
    (batch : UpsertBatch) (ids : IdSource) : UpsertBatch × IdSource :=
  (batch.push ⟨key, .ofDraft draft ids.take.1 now options.actor, true, true⟩, ids.take.2)

/-- Deals with a draft that meets a target. -/
def meet (options : UpsertOptions) (now : Instant) (key : UpsertKey) (target : UpsertTarget)
    (draft : Draft) (batch : UpsertBatch) : UpsertBatch :=
  match options.onConflict with
  | .combine way => batch.setTarget key (target.combine way draft now options.actor)
  | .ignore => batch.ignore draft
  | .fail => batch.fail draft target.record

/-- What becomes of a batch and the source of ids with one more draft. -/
def next (records : Collection) (options : UpsertOptions) (keys : List Path) (now : Instant)
    (state : UpsertBatch × IdSource) (draft : Draft) : UpsertBatch × IdSource :=
  let batch := state.1.count
  match draft.upsertKey? keys with
  | none => batch.add options now none draft state.2
  | some key => match batch.target? key with
    | some target => (batch.meet options now key target draft, state.2)
    | none => match records.first? (key.clause keys) with
      | none => batch.add options now (some key) draft state.2
      | some r =>
        let target := UpsertTarget.found key r
        ((batch.push target).meet options now key target draft, state.2)

/-- A batch after some drafts, and the source of ids. -/
def ofDrafts (records : Collection) (options : UpsertOptions) (keys : List Path) (now : Instant)
    (result : UpsertResult) (ids : IdSource) (drafts : List Draft) : UpsertBatch × IdSource :=
  drafts.foldl (next records options keys now) (⟨[], result⟩, ids)

/-- The result of a batch that has been written. -/
def finish (batch : UpsertBatch) : UpsertResult :=
  { batch.result with
    newRecords := batch.result.newRecords ++ batch.newRecords
    updatedRecords := batch.result.updatedRecords ++ batch.changedRecords }

/-! ## Targets -/

/-- Each target has a key of its own if it has one. -/
def Distinct (batch : UpsertBatch) : Prop :=
  batch.targets.Pairwise fun a b => ∀ key, a.key = some key → b.key ≠ some key

variable {batch : UpsertBatch} {target other : UpsertTarget} {key : UpsertKey}

theorem target?_eq_none_iff : batch.target? key = none ↔ ∀ t ∈ batch.targets, t.key ≠ some key := by
  rw [target?, List.find?_eq_none]
  simp

theorem mem_of_target? (h : batch.target? key = some target) :
    target ∈ batch.targets ∧ target.key = some key :=
  ⟨List.mem_of_find?_eq_some h, by simpa using List.find?_some h⟩

theorem mem_push : other ∈ (batch.push target).targets ↔ other ∈ batch.targets ∨ other = target := by
  rw [push, List.mem_append, List.mem_singleton]

theorem mem_newRecords {r : Record} :
    r ∈ batch.newRecords ↔ ∃ t ∈ batch.targets, t.isNew = true ∧ t.record = r := by
  simp only [newRecords, List.mem_map, List.mem_filter, and_assoc]

theorem mem_changedRecords {r : Record} :
    r ∈ batch.changedRecords ↔
      ∃ t ∈ batch.targets, t.isNew = false ∧ t.isChanged = true ∧ t.record = r := by
  simp only [changedRecords, List.mem_map, List.mem_filter, Bool.and_eq_true, Bool.not_eq_true',
    and_assoc]

theorem target?_push :
    (batch.push target).target? key =
      (batch.target? key).or (if target.key = some key then some target else none) := by
  rw [target?, push, List.find?_append, List.find?_singleton, target?]
  simp only [decide_eq_true_eq]

theorem Distinct.eq_of_key (h : batch.Distinct) (htarget : target ∈ batch.targets)
    (hother : other ∈ batch.targets) (hkey : target.key = some key) (hkey' : other.key = some key) :
    other = target :=
  eq_of_pairwise h hother htarget (fun hne => hne key hkey' hkey) fun hne => hne key hkey hkey'

theorem Distinct.push (h : batch.Distinct)
    (htarget : ∀ t ∈ batch.targets, ∀ key, t.key = some key → target.key ≠ some key) :
    (batch.push target).Distinct := by
  refine List.pairwise_append.2 ⟨h, List.pairwise_singleton _ _, fun t ht t' ht' => ?_⟩
  rw [List.mem_singleton.1 ht']
  exact htarget t ht

/-- What is set under a key has this key. -/
theorem key_setTarget (hkey : target.key = some key) (t : UpsertTarget) :
    (if t.key = some key then target else t).key = t.key := by
  split
  · next ht => rw [ht, hkey]
  · rfl

theorem mem_setTarget {t : UpsertTarget} (h : t ∈ (batch.setTarget key target).targets) :
    t = target ∨ t ∈ batch.targets ∧ t.key ≠ some key := by
  obtain ⟨t', ht', rfl⟩ := List.mem_map.1 h
  split
  · exact .inl rfl
  · next hne => exact .inr ⟨ht', hne⟩

theorem target?_setTarget (hkey : target.key = some key) (hother : batch.target? key = some other)
    (k : UpsertKey) :
    (batch.setTarget key target).target? k = if k = key then some target else batch.target? k := by
  have found : (batch.setTarget key target).target? k =
      (batch.target? k).map fun t => if t.key = some key then target else t := by
    rw [target?, UpsertBatch.setTarget, List.find?_map, target?]
    congr 2
    funext t
    rw [Function.comp_apply, key_setTarget hkey]
  rw [found]
  split
  · next hk => rw [hk, hother, Option.map_some, if_pos (mem_of_target? hother).2]
  · next hk =>
    cases ht : batch.target? k with
    | none => rfl
    | some t =>
      rw [Option.map_some, (mem_of_target? ht).2, if_neg fun heq => hk (Option.some.inj heq)]

theorem Distinct.setTarget (h : batch.Distinct) (hkey : target.key = some key) :
    (batch.setTarget key target).Distinct := by
  refine List.pairwise_map.2 (h.imp fun {a b} hab k hk => ?_)
  rw [key_setTarget hkey] at hk ⊢
  exact hab k hk

/-- What the new target has in common with the old one is not changed. -/
theorem Distinct.map_setTarget (h : batch.Distinct) (htarget : batch.target? key = some target)
    {α : Type} {f : UpsertTarget → α} (hf : f other = f target) :
    (batch.setTarget key other).targets.map f = batch.targets.map f := by
  obtain ⟨hmem, hkey⟩ := mem_of_target? htarget
  refine (List.map_map ..).trans (List.map_congr_left fun t ht => ?_)
  rw [Function.comp_apply]
  split
  · next hsame => rw [hf, h.eq_of_key hmem ht hkey hsame]
  · rfl

/-- A target that has just been added is set in place. -/
theorem setTarget_push (hnone : batch.target? key = none) (hkey : target.key = some key)
    (other : UpsertTarget) : (batch.push target).setTarget key other = batch.push other := by
  have others : batch.targets.map (fun t => if t.key = some key then other else t) =
      batch.targets :=
    (List.map_congr_left fun t ht => if_neg (target?_eq_none_iff.1 hnone t ht)).trans
      (List.map_id _)
  rw [UpsertBatch.setTarget, UpsertBatch.push, UpsertBatch.push, List.map_append, others,
    List.map_singleton, if_pos hkey]

/-! ## What holds of a batch -/

section

variable {records : Collection} {options : UpsertOptions} {keys : List Path} {now : Instant}
  {result : UpsertResult} {start : IdSource}

/-- What holds of no drafts and is kept by each further one holds of a batch. -/
theorem ofDrafts_induction {motive : List Draft → UpsertBatch × IdSource → Prop}
    (hstart : motive [] (⟨[], result⟩, start))
    (hnext : ∀ done batch ids draft, motive done (batch, ids) →
      motive (done ++ [draft]) (next records options keys now (batch, ids) draft))
    (drafts : List Draft) : motive drafts (ofDrafts records options keys now result start drafts) := by
  induction drafts using List.reverseRecOn with
  | nil => exact hstart
  | append_singleton done draft ih =>
    rw [ofDrafts, List.foldl_append]
    exact hnext done _ _ draft ih

variable {P : UpsertTarget → Prop} {draft : Draft} {drafts : List Draft} {ids : IdSource}

theorem forall_mem_push (hbatch : ∀ t ∈ batch.targets, P t) (htarget : P target) :
    ∀ t ∈ (batch.push target).targets, P t := by
  intro t ht
  rcases mem_push.1 ht with hold | rfl
  · exact hbatch t hold
  · exact htarget

theorem forall_mem_meet (hbatch : ∀ t ∈ batch.targets, P t)
    (hcombine : ∀ way, options.onConflict = .combine way →
      P (target.combine way draft now options.actor)) :
    ∀ t ∈ (batch.meet options now key target draft).targets, P t := by
  rw [meet]
  cases hconflict : options.onConflict with
  | combine way =>
    intro t ht
    rcases mem_setTarget ht with rfl | ⟨hold, -⟩
    · exact hcombine way hconflict
    · exact hbatch t hold
  | ignore => exact hbatch
  | fail => exact hbatch

theorem forall_mem_next (hbatch : ∀ t ∈ batch.targets, P t)
    (hnew : ∀ key id, P ⟨key, .ofDraft draft id now options.actor, true, true⟩)
    (hfound : ∀ key r, records.first? (key.clause keys) = some r → P (.found key r))
    (hcombine : ∀ way, options.onConflict = .combine way → ∀ target, P target →
      P (target.combine way draft now options.actor)) :
    ∀ t ∈ (next records options keys now (batch, ids) draft).1.targets, P t := by
  rw [next]
  dsimp only
  cases draft.upsertKey? keys with
  | none => exact forall_mem_push hbatch (hnew none _)
  | some key =>
    dsimp only
    cases htarget : batch.count.target? key with
    | some target =>
      exact forall_mem_meet hbatch fun way hway =>
        hcombine way hway target (hbatch target (mem_of_target? htarget).1)
    | none =>
      cases hr : records.first? (key.clause keys) with
      | none => exact forall_mem_push hbatch (hnew (some key) _)
      | some r =>
        have found := hfound key r hr
        exact forall_mem_meet (forall_mem_push hbatch found) fun way hway =>
          hcombine way hway _ found

/-- What holds of the targets that drafts become and of those that are found, and is kept by what
drafts are combined with, holds of all targets of a batch. -/
theorem forall_mem_ofDrafts
    (hnew : ∀ draft ∈ drafts, ∀ key id, P ⟨key, .ofDraft draft id now options.actor, true, true⟩)
    (hfound : ∀ key r, records.first? (key.clause keys) = some r → P (.found key r))
    (hcombine : ∀ draft ∈ drafts, ∀ way, options.onConflict = .combine way → ∀ target, P target →
      P (target.combine way draft now options.actor)) :
    ∀ t ∈ (ofDrafts records options keys now result start drafts).1.targets, P t := by
  refine ofDrafts_induction (motive := fun done state => (∀ draft ∈ done, draft ∈ drafts) →
    ∀ t ∈ state.1.targets, P t) (fun _ _ ht => absurd ht List.not_mem_nil)
    (fun done batch ids draft ih hdone => ?_) drafts fun _ => id
  have mem : draft ∈ drafts := hdone draft (List.mem_append_right _ List.mem_cons_self)
  exact forall_mem_next (ih fun d hd => hdone d (List.mem_append_left _ hd)) (hnew draft mem) hfound
    (hcombine draft mem)

end

end UpsertBatch

namespace Store

variable (store : Store collectionBackend) (options : UpsertOptions) (keys : List Path)
  (w : World collectionBackend)

theorem result_upsertNew (key : Option UpsertKey) (draft : Draft) (batch : UpsertBatch) :
    (upsertNew (B := collectionBackend) options key draft batch).result w =
      (.ok (batch.add options w.clock key draft w.ids).1,
        { w with ids := (batch.add options w.clock key draft w.ids).2 }) := rfl

theorem result_upsertConflict (key : UpsertKey) (target : UpsertTarget) (draft : Draft)
    (batch : UpsertBatch) :
    (upsertConflict (B := collectionBackend) options key target draft batch).result w =
      (.ok (batch.meet options w.clock key target draft), w) := rfl

theorem result_upsertItem (batch : UpsertBatch) (draft : Draft) :
    (store.upsertItem options keys batch draft).result w =
      let next := UpsertBatch.next w.records options keys w.clock (batch, w.ids) draft
      (.ok next.1, { w with ids := next.2 }) := by
  have counted : { batch with result :=
      { batch.result with totalProcessed := batch.result.totalProcessed + 1 } } = batch.count := rfl
  rw [upsertItem, UpsertBatch.next, Draft.upsertKey?]
  simp only [counted]
  cases draft.keyValues? keys with
  | none => exact result_upsertNew options w none draft batch.count
  | some values =>
    dsimp only [Option.map_some]
    cases batch.count.target? ⟨draft.partition, values⟩ with
    | some target => exact result_upsertConflict options w _ target draft batch.count
    | none =>
      dsimp only
      rw [Effect.result_bind_ok (store.result_first? _ w)]
      cases w.records.first? (UpsertKey.clause ⟨draft.partition, values⟩ keys) with
      | none => exact result_upsertNew options w _ draft batch.count
      | some r => exact result_upsertConflict options w _ _ draft _

theorem result_upsertItems (drafts : List Draft) (batch : UpsertBatch) :
    (drafts.foldlM (store.upsertItem options keys) batch).result w =
      let final := drafts.foldl (UpsertBatch.next w.records options keys w.clock) (batch, w.ids)
      (.ok final.1, { w with ids := final.2 }) := by
  induction drafts generalizing batch w with
  | nil => rfl
  | cons draft rest ih =>
    rw [List.foldlM_cons, Effect.result_bind_ok (store.result_upsertItem options keys w batch draft)]
    exact ih _ _

/-- An insertion that is left out where there is nothing to insert. -/
theorem result_insert_unless_empty {α : Type} (batch : List Record)
    (rest : Action collectionBackend α) :
    Effect.result (if batch.isEmpty then rest else store.insert batch >>= fun _ => rest) w =
      match w.records.insert batch with
      | .error e => (.error e, w)
      | .ok records => rest.result (w.withRecords records) := by
  cases batch with
  | nil => rfl
  | cons first others =>
    have inserted := store.result_insert w (first :: others)
    rw [List.isEmpty_cons, if_neg Bool.false_ne_true, Effect.result_bind, inserted]
    cases w.records.insert (first :: others) <;> rfl

/-- A replacement that is left out where there is nothing to replace. -/
theorem result_replace_unless_empty {α : Type} (batch : List Record)
    (rest : Action collectionBackend α) :
    Effect.result (if batch.isEmpty then rest else store.replace batch >>= fun _ => rest) w =
      rest.result (w.withRecords (Collection.replace batch w.records).2) := by
  cases batch <;> rfl

/-- What a batch writes once it is put together. -/
theorem result_upsertBatch (result : UpsertResult) (drafts : List Draft) :
    (store.upsertBatch options keys result drafts).result w =
      let final := UpsertBatch.ofDrafts w.records options keys w.clock result w.ids drafts
      let w := { w with ids := final.2 }
      match w.records.insert final.1.newRecords with
      | .error e => (.error e, w)
      | .ok records =>
        (.ok final.1.finish, w.withRecords (Collection.replace final.1.changedRecords records).2) := by
  have items := store.result_upsertItems options keys w drafts ⟨[], result⟩
  rw [upsertBatch, Effect.result_bind_ok items, UpsertBatch.ofDrafts]
  generalize drafts.foldl (UpsertBatch.next w.records options keys w.clock) (⟨[], result⟩, w.ids) =
    final
  refine (store.result_insert_unless_empty _ final.1.newRecords _).trans ?_
  dsimp only
  cases World.records { w with ids := final.2 } |>.insert final.1.newRecords with
  | error e => rfl
  | ok records => exact store.result_replace_unless_empty _ final.1.changedRecords _

/-- What a batch has written if it succeeds. -/
theorem of_upsertBatch_ok {w w' : World collectionBackend} {options : UpsertOptions}
    {keys : List Path} {drafts : List Draft} {before after : UpsertResult}
    (h : (store.upsertBatch options keys before drafts).result w = (.ok after, w')) :
    let final := UpsertBatch.ofDrafts w.records options keys w.clock before w.ids drafts
    ∃ inserted, Collection.insert w.records final.1.newRecords = .ok inserted ∧
      after = final.1.finish ∧
      w' = { w with ids := final.2 }.withRecords
        (Collection.replace final.1.changedRecords inserted).2 := by
  rw [result_upsertBatch] at h
  dsimp only at h
  generalize UpsertBatch.ofDrafts w.records options keys w.clock before w.ids drafts = final at h ⊢
  cases hinsert : World.records { w with ids := final.2 } |>.insert final.1.newRecords with
  | error e => rw [hinsert] at h; cases h
  | ok inserted =>
    rw [hinsert] at h
    cases h
    exact ⟨inserted, hinsert, rfl, rfl⟩

end Store

end RecordStore
