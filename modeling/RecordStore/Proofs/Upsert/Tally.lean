import Mathlib.Data.List.Forall2
import RecordStore.Proofs.Outcome
import RecordStore.Proofs.Upsert.Run

/-!
# What a batch makes of its drafts

A draft becomes a record of its own, or it meets a target (`UpsertBatch.next_cases`). So every draft is
counted once, the new records have the next ids of the source, and a draft that nothing identifies
becomes a record that later drafts leave alone (`UpsertBatch.Tracks`). A policy that combines nothing
leaves each other draft to be reported (`UpsertResult.Splits`).
-/

namespace RecordStore

variable {records : Collection} {options : UpsertOptions} {keys : List Path} {now : Instant}
  {actor : Actor} {draft : Draft} {done : List Draft}

/-! ## Drafts and their records -/

/-- Whether nothing identifies a draft: there are no conflict keys, or the value at one of them is
missing or null. -/
def Draft.isUnkeyed (draft : Draft) (keys : List Path) : Bool :=
  keys.isEmpty || keys.any fun path => (path.get? draft.payload).all (· = .null)

theorem Draft.upsertKey?_eq_none_iff :
    draft.upsertKey? keys = none ↔ draft.isUnkeyed keys = true := by
  rw [upsertKey?, Option.map_eq_none_iff, keyValues?, isUnkeyed]
  split
  · next hempty => simp [hempty]
  · next hempty =>
    rw [Bool.eq_false_iff.2 hempty, Bool.false_or, List.any_eq_true]
    refine mapM_eq_none_iff.trans (exists_congr fun path => and_congr_right fun _ => ?_)
    split
    · next hnull => simp [hnull]
    · next hnull =>
      cases hvalue : path.get? draft.payload with
      | none => simp
      | some v =>
        have present : v ≠ .null := fun heq => hnull (heq ▸ hvalue)
        simp [present]

/-- Whether a record is what a draft has become. -/
def Record.IsOf (now : Instant) (actor : Actor) (draft : Draft) (r : Record) : Prop :=
  r = .ofDraft draft r.id now actor

theorem Record.isOf_ofDraft (now : Instant) (actor : Actor) (draft : Draft) (id : String) :
    Record.IsOf now actor draft (.ofDraft draft id now actor) := rfl

/-! ## What reports say of drafts -/

/-- The drafts that are reported as left alone. -/
def UpsertResult.leftDrafts (result : UpsertResult) : List Draft :=
  result.ignoredItems ++ result.failedItems.map FailedItem.item

/-- Each draft has become a record or has been left alone, and no record has been changed. -/
structure UpsertResult.Splits (result : UpsertResult) (now : Instant) (actor : Actor)
    (drafts : List Draft) : Prop where
  updatedRecords : result.updatedRecords = []
  drafts : ∃ items, items.Sublist drafts ∧ drafts.Perm (items ++ result.leftDrafts) ∧
    List.Forall₂ (Record.IsOf now actor) items result.newRecords

namespace UpsertResult.Splits

variable {result new : UpsertResult}

theorem length (h : result.Splits now actor done) :
    result.newRecords.length + result.ignoredItems.length + result.failedItems.length =
      done.length := by
  obtain ⟨items, -, hperm, hitems⟩ := h.drafts
  rw [hperm.length_eq, List.length_append, hitems.length_eq, leftDrafts, List.length_append,
    List.length_map, Nat.add_assoc]

/-- One more draft has become a record. -/
theorem add (h : result.Splits now actor done) {r : Record} (hr : Record.IsOf now actor draft r)
    (hupdated : new.updatedRecords = result.updatedRecords)
    (hleft : new.leftDrafts = result.leftDrafts) (hnew : new.newRecords = result.newRecords ++ [r]) :
    new.Splits now actor (done ++ [draft]) := by
  obtain ⟨items, hsub, hperm, hitems⟩ := h.drafts
  refine ⟨hupdated.trans h.updatedRecords, items ++ [draft], hsub.append_right [draft], ?_, ?_⟩
  · rw [hleft, List.append_assoc]
    calc done ++ [draft]
      _ |>.Perm ((items ++ result.leftDrafts) ++ [draft]) := hperm.append_right [draft]
      _ |>.Perm (items ++ ([draft] ++ result.leftDrafts)) := by
        rw [List.append_assoc]
        exact List.perm_append_comm.append_left items
  · rw [hnew]
    exact List.rel_append hitems (.cons hr .nil)

/-- One more draft has been left alone. -/
theorem leave (h : result.Splits now actor done)
    (hupdated : new.updatedRecords = result.updatedRecords)
    (hleft : new.leftDrafts.Perm (result.leftDrafts ++ [draft]))
    (hnew : new.newRecords = result.newRecords) : new.Splits now actor (done ++ [draft]) := by
  obtain ⟨items, hsub, hperm, hitems⟩ := h.drafts
  refine ⟨hupdated.trans h.updatedRecords, items, hsub.trans (List.sublist_append_left _ _), ?_,
    hnew ▸ hitems⟩
  calc done ++ [draft]
    _ |>.Perm ((items ++ result.leftDrafts) ++ [draft]) := hperm.append_right [draft]
    _ |>.Perm (items ++ new.leftDrafts) := by
      rw [List.append_assoc]
      exact hleft.symm.append_left items

end UpsertResult.Splits

/-! ## What a draft does to a batch -/

theorem UpsertTarget.id_combine (target : UpsertTarget) (way : UpdateWay) (draft : Draft)
    (now : Instant) (actor : Actor) :
    (target.combine way draft now actor).record.id = target.record.id := by
  rw [UpsertTarget.combine]
  dsimp only
  split <;> rfl

namespace UpsertBatch

variable {batch others : UpsertBatch} {target : UpsertTarget} {key : UpsertKey}
  {ids start : IdSource}

/-- The new records of a batch that nothing identifies. -/
def ownRecords (batch : UpsertBatch) : List Record :=
  ((batch.targets.filter UpsertTarget.isNew).filter fun target => target.key.isNone).map
    UpsertTarget.record

theorem ownRecords_sublist (batch : UpsertBatch) : batch.ownRecords.Sublist batch.newRecords :=
  List.filter_sublist.map _

/-- A batch in which a stored record may have been looked up in addition. -/
structure Loads (batch others : UpsertBatch) : Prop where
  result : others.result = batch.result
  newRecords : others.newRecords = batch.newRecords
  changedRecords : others.changedRecords = batch.changedRecords
  ownRecords : others.ownRecords = batch.ownRecords
  distinct : batch.Distinct → others.Distinct

theorem Loads.refl (batch : UpsertBatch) : batch.Loads batch := ⟨rfl, rfl, rfl, rfl, id⟩

theorem loads_push_found (h : batch.target? key = none) (r : Record) :
    batch.Loads (batch.push (.found key r)) where
  result := rfl
  newRecords := by simp [UpsertBatch.newRecords, push, UpsertTarget.found]
  changedRecords := by simp [UpsertBatch.changedRecords, push, UpsertTarget.found]
  ownRecords := by simp [UpsertBatch.ownRecords, push, UpsertTarget.found]
  distinct hdistinct := hdistinct.push fun t ht k hk hk' =>
    target?_eq_none_iff.1 h t ht (hk.trans hk'.symm)

/-- A draft becomes a record, or it meets a target under its key. -/
theorem next_cases (records : Collection) (options : UpsertOptions) (keys : List Path)
    (now : Instant) (batch : UpsertBatch) (ids : IdSource) (draft : Draft) :
    (next records options keys now (batch, ids) draft =
        batch.count.add options now (draft.upsertKey? keys) draft ids ∧
      ∀ key, draft.upsertKey? keys = some key → batch.count.target? key = none) ∨
    ∃ key target others, draft.upsertKey? keys = some key ∧ batch.count.Loads others ∧
      others.target? key = some target ∧
      next records options keys now (batch, ids) draft =
        (others.meet options now key target draft, ids) := by
  rw [next]
  dsimp only
  cases hkey : draft.upsertKey? keys with
  | none => exact .inl ⟨rfl, fun key h => absurd h (Option.some_ne_none key).symm⟩
  | some key =>
    dsimp only
    cases htarget : batch.count.target? key with
    | some target => exact .inr ⟨key, target, batch.count, rfl, .refl _, htarget, rfl⟩
    | none =>
      cases records.first? (key.clause keys) with
      | none =>
        refine .inl ⟨rfl, fun k hk => ?_⟩
        cases hk
        exact htarget
      | some r =>
        refine .inr ⟨key, .found key r, _, rfl, loads_push_found htarget r, ?_, rfl⟩
        rw [target?_push, htarget, Option.none_or]
        exact if_pos rfl

/-! ### Meeting a target -/

theorem count_meet (batch : UpsertBatch) (options : UpsertOptions) (now : Instant)
    (key : UpsertKey) (target : UpsertTarget) (draft : Draft) :
    (batch.meet options now key target draft).result.totalProcessed = batch.result.totalProcessed ∧
      (batch.meet options now key target draft).result.newRecords = batch.result.newRecords := by
  rw [meet]
  cases options.onConflict <;> exact ⟨rfl, rfl⟩

theorem distinct_meet (h : batch.Distinct) (htarget : batch.target? key = some target)
    (options : UpsertOptions) (now : Instant) (draft : Draft) :
    (batch.meet options now key target draft).Distinct := by
  rw [meet]
  cases options.onConflict with
  | combine way => exact h.setTarget (mem_of_target? htarget).2
  | ignore => exact h
  | fail => exact h

/-- To combine a target does not change which records are new. -/
theorem map_id_newRecords_meet (h : batch.Distinct) (htarget : batch.target? key = some target)
    (options : UpsertOptions) (now : Instant) (draft : Draft) :
    (batch.meet options now key target draft).newRecords.map Record.id =
      batch.newRecords.map Record.id := by
  have ids : ∀ batch : UpsertBatch, batch.newRecords.map Record.id =
      ((batch.targets.map fun t => (t.isNew, t.record.id)).filter Prod.fst).map Prod.snd := by
    intro batch
    rw [List.filter_map, List.map_map, newRecords, List.map_map]
    rfl
  rw [meet]
  cases options.onConflict with
  | combine way =>
    have same : ((target.combine way draft now options.actor).isNew,
        (target.combine way draft now options.actor).record.id) = (target.isNew, target.record.id) :=
      congrArg _ (UpsertTarget.id_combine target way draft now options.actor)
    rw [ids, ids, h.map_setTarget htarget same]
  | ignore => rfl
  | fail => rfl

/-- A draft that is identified leaves the records alone that are not. -/
theorem ownRecords_meet (htarget : batch.target? key = some target) (options : UpsertOptions)
    (now : Instant) (draft : Draft) :
    (batch.meet options now key target draft).ownRecords = batch.ownRecords := by
  rw [meet]
  cases options.onConflict with
  | ignore => rfl
  | fail => rfl
  | combine way =>
    have hkey : (target.combine way draft now options.actor).key = some key :=
      (mem_of_target? htarget).2
    dsimp only
    generalize target.combine way draft now options.actor = combined at hkey ⊢
    simp only [ownRecords, setTarget, List.filter_filter]
    induction batch.targets with
    | nil => rfl
    | cons t rest ih =>
      rw [List.map_cons, List.filter_cons, List.filter_cons]
      by_cases ht : t.key = some key
      · simp [ht, hkey, ih]
      · simp [ht, ih, apply_ite]

/-! ### Every policy -/

/-- How far a batch has come since something was reported: every draft is counted, drafts that nothing
identifies have become records, and the new records have the next ids of the source. -/
structure Tracks (batch : UpsertBatch) (ids : IdSource) (before : UpsertResult) (start : IdSource)
    (keys : List Path) (now : Instant) (actor : Actor) (done : List Draft) : Prop where
  totalProcessed : batch.result.totalProcessed = before.totalProcessed + done.length
  newRecords : batch.result.newRecords = before.newRecords
  distinct : batch.Distinct
  own : List.Forall₂ (Record.IsOf now actor) (done.filter (·.isUnkeyed keys)) batch.ownRecords
  ids : ∃ n ≤ done.length, batch.newRecords.map Record.id = (List.range n).map start.nth ∧
    ids = start.drop n

variable {before : UpsertResult}

/-- A draft with no target becomes a record, which is its own if nothing identifies the draft. -/
theorem Tracks.add (h : batch.Tracks ids before start keys now options.actor done)
    (hnone : ∀ key, draft.upsertKey? keys = some key → batch.count.target? key = none) :
    (batch.count.add options now (draft.upsertKey? keys) draft ids).1.Tracks
      (batch.count.add options now (draft.upsertKey? keys) draft ids).2 before start keys now
      options.actor (done ++ [draft]) := by
  obtain ⟨n, hn, hids, rfl⟩ := h.ids
  let r := Record.ofDraft draft (start.drop n).take.1 now options.actor
  refine {
    totalProcessed := by
      rw [List.length_append, ← Nat.add_assoc, ← h.totalProcessed]
      rfl
    newRecords := h.newRecords
    distinct := h.distinct.push fun t ht k hk hk' =>
      target?_eq_none_iff.1 (hnone k hk') t ht hk
    own := ?_
    ids := ⟨n + 1, ?_, ?_, (start.drop_add n 1).symm⟩ }
  · have own : (batch.push ⟨draft.upsertKey? keys, r, true, true⟩).ownRecords =
        batch.ownRecords ++ if draft.isUnkeyed keys then [r] else [] := by
      rw [ownRecords, push, List.filter_append, List.filter_append, List.map_append]
      refine congrArg (batch.ownRecords ++ ·) ?_
      cases hkey : draft.upsertKey? keys with
      | none => simp [Draft.upsertKey?_eq_none_iff.1 hkey]
      | some key => simp [← Draft.upsertKey?_eq_none_iff, hkey]
    refine own ▸ ?_
    rw [List.filter_append, List.filter_singleton]
    refine List.rel_append h.own ?_
    cases draft.isUnkeyed keys with
    | false => exact .nil
    | true => exact .cons rfl .nil
  · rw [List.length_append]
    exact Nat.succ_le_succ hn
  · have new : (batch.push ⟨draft.upsertKey? keys, r, true, true⟩).newRecords =
        batch.newRecords ++ [r] := by simp [UpsertBatch.newRecords, push]
    have next : r.id = start.nth n := (start.nth_add n 0).symm
    refine (congrArg (List.map Record.id) new).trans ?_
    rw [List.map_append, hids, List.range_succ, List.map_append, List.map_singleton, next]
    rfl

/-- A draft that meets a target makes no record. -/
theorem Tracks.meet (h : batch.Tracks ids before start keys now options.actor done)
    (hkey : draft.upsertKey? keys = some key) (hloads : batch.count.Loads others)
    (htarget : others.target? key = some target) :
    (others.meet options now key target draft).Tracks ids before start keys now options.actor
      (done ++ [draft]) := by
  obtain ⟨counted, newRecords⟩ := count_meet others options now key target draft
  have distinct : others.Distinct := hloads.distinct h.distinct
  have keyed : [draft].filter (·.isUnkeyed keys) = [] := by
    refine List.filter_eq_nil_iff.2 fun d hd => ?_
    rw [List.mem_singleton.1 hd, ← Draft.upsertKey?_eq_none_iff, hkey]
    exact Option.some_ne_none key
  refine {
    totalProcessed := ?_
    newRecords := by rw [newRecords, hloads.result]; exact h.newRecords
    distinct := distinct_meet distinct htarget options now draft
    own := ?_
    ids := ?_ }
  · rw [counted, hloads.result, List.length_append, ← Nat.add_assoc, ← h.totalProcessed]
    rfl
  · rw [List.filter_append, keyed, List.append_nil, ownRecords_meet htarget, hloads.ownRecords]
    exact h.own
  · obtain ⟨n, hn, hids, hdrop⟩ := h.ids
    refine ⟨n, Nat.le_trans hn (by simp), ?_, hdrop⟩
    rw [map_id_newRecords_meet distinct htarget, hloads.newRecords]
    exact hids

theorem Tracks.next (h : batch.Tracks ids before start keys now options.actor done)
    (records : Collection) (draft : Draft) :
    (UpsertBatch.next records options keys now (batch, ids) draft).1.Tracks
      (UpsertBatch.next records options keys now (batch, ids) draft).2 before start keys now
      options.actor (done ++ [draft]) := by
  rcases next_cases records options keys now batch ids draft with
    ⟨added, hnone⟩ | ⟨key, target, others, hkey, hloads, htarget, met⟩
  · rw [added]
    exact h.add hnone
  · rw [met]
    exact h.meet hkey hloads htarget

theorem tracks_ofDrafts (records : Collection) (options : UpsertOptions) (keys : List Path)
    (now : Instant) (before : UpsertResult) (start : IdSource) (drafts : List Draft) :
    let final := ofDrafts records options keys now before start drafts
    final.1.Tracks final.2 before start keys now options.actor drafts :=
  ofDrafts_induction (motive := fun done state =>
      state.1.Tracks state.2 before start keys now options.actor done)
    ⟨rfl, rfl, List.Pairwise.nil, .nil, 0, Nat.le_refl 0, rfl, rfl⟩
    (fun _ _ _ draft h => h.next records draft) drafts

/-! ### Policies that combine nothing -/

/-- A target that a draft meets stays as it is. -/
theorem splits_meet (h : batch.finish.Splits now options.actor done)
    (hpolicy : ∀ way, options.onConflict ≠ .combine way) (hloads : batch.count.Loads others)
    (key : UpsertKey) (target : UpsertTarget) (draft : Draft) :
    (others.meet options now key target draft).finish.Splits now options.actor (done ++ [draft]) := by
  have result : others.result = { batch.result with
      totalProcessed := batch.result.totalProcessed + 1 } := hloads.result
  have updated : others.result.updatedRecords ++ others.changedRecords =
      batch.finish.updatedRecords := by
    rw [hloads.changedRecords, result]
    rfl
  have new : others.result.newRecords ++ others.newRecords = batch.finish.newRecords := by
    rw [hloads.newRecords, result]
    rfl
  have left : others.result.leftDrafts = batch.finish.leftDrafts := by
    rw [result]
    rfl
  rw [meet]
  cases hconflict : options.onConflict with
  | combine way => exact absurd hconflict (hpolicy way)
  | ignore =>
    refine h.leave updated ?_ new
    have ignored : (others.ignore draft).finish.leftDrafts =
        others.result.ignoredItems ++ [draft] ++ others.result.failedItems.map FailedItem.item := rfl
    rw [ignored, ← left, UpsertResult.leftDrafts, List.append_assoc, List.append_assoc]
    exact List.perm_append_comm.append_left _
  | fail =>
    refine h.leave updated (List.Perm.of_eq ?_) new
    have failed : (others.fail draft target.record).finish.leftDrafts =
        others.result.ignoredItems ++ (others.result.failedItems ++
          [FailedItem.mk draft ("conflicts with record " ++ target.record.id)]).map FailedItem.item :=
      rfl
    rw [failed, ← left, UpsertResult.leftDrafts, List.map_append, List.append_assoc]
    rfl

theorem splits_next (h : batch.finish.Splits now options.actor done)
    (hpolicy : ∀ way, options.onConflict ≠ .combine way) (records : Collection) (keys : List Path)
    (ids : IdSource) (draft : Draft) :
    (next records options keys now (batch, ids) draft).1.finish.Splits now options.actor
      (done ++ [draft]) := by
  rcases next_cases records options keys now batch ids draft with
    ⟨added, -⟩ | ⟨key, target, others, -, hloads, -, met⟩
  · rw [added]
    refine h.add (Record.isOf_ofDraft now options.actor draft ids.take.1) ?_ rfl ?_
    · simp [finish, add, count, push, changedRecords]
    · simp [finish, add, count, push, newRecords]
  · rw [met]
    exact splits_meet h hpolicy hloads key target draft

/-- A batch under a policy that combines nothing goes on splitting the drafts. -/
theorem splits_ofDrafts {before : UpsertResult} (h : before.Splits now options.actor done)
    (hpolicy : ∀ way, options.onConflict ≠ .combine way) (records : Collection) (keys : List Path)
    (start : IdSource) (drafts : List Draft) :
    (ofDrafts records options keys now before start drafts).1.finish.Splits now options.actor
      (done ++ drafts) := by
  refine ofDrafts_induction (motive := fun drafts state =>
    state.1.finish.Splits now options.actor (done ++ drafts)) ?_ ?_ drafts
  · rw [List.append_nil]
    simpa [finish, newRecords, changedRecords] using h
  · intro drafts batch ids draft h
    rw [← List.append_assoc]
    exact splits_next h hpolicy records keys ids draft

/-! ### Policies that combine -/

/-- A draft that is combined with a target is not reported as left alone. -/
theorem leftDrafts_next {way : UpdateWay} (hway : options.onConflict = .combine way)
    (records : Collection) (keys : List Path) (now : Instant) (batch : UpsertBatch) (ids : IdSource)
    (draft : Draft) :
    (next records options keys now (batch, ids) draft).1.result.ignoredItems =
        batch.result.ignoredItems ∧
      (next records options keys now (batch, ids) draft).1.result.failedItems =
        batch.result.failedItems := by
  rcases next_cases records options keys now batch ids draft with
    ⟨added, -⟩ | ⟨key, target, others, -, hloads, -, met⟩
  · rw [added]
    exact ⟨rfl, rfl⟩
  · rw [met, meet, hway]
    dsimp only [setTarget]
    rw [hloads.result]
    exact ⟨rfl, rfl⟩

theorem leftDrafts_ofDrafts {way : UpdateWay} (hway : options.onConflict = .combine way)
    (records : Collection) (keys : List Path) (now : Instant) (before : UpsertResult)
    (start : IdSource) (drafts : List Draft) :
    (ofDrafts records options keys now before start drafts).1.result.ignoredItems =
        before.ignoredItems ∧
      (ofDrafts records options keys now before start drafts).1.result.failedItems =
        before.failedItems := by
  refine ofDrafts_induction (motive := fun _ state =>
    state.1.result.ignoredItems = before.ignoredItems ∧
      state.1.result.failedItems = before.failedItems) ⟨rfl, rfl⟩ ?_ drafts
  intro _ batch ids draft h
  obtain ⟨ignored, failed⟩ := leftDrafts_next hway records keys now batch ids draft
  exact ⟨ignored.trans h.1, failed.trans h.2⟩

end UpsertBatch

end RecordStore
