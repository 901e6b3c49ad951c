import RecordStore.Proofs.Upsert.Key
import RecordStore.Proofs.Upsert.Run

/-!
# Upserts do not depend on their batches

Where all conflict keys are read as strings, an upsert does what a run over its drafts does. For the
targets of a batch are at any time the records in which the run differs from what is stored
(`UpsertBatch.Simulates`). So it does not matter how the drafts are cut into batches
(`Store.upsert_eq_of_batchSize`).
-/

namespace RecordStore

open Collection

/-! ## Targets -/

/-- A new record carries the marks of the present, and an unchanged one is as it is stored. -/
structure UpsertTarget.Stems (target : UpsertTarget) (stored : Collection) (now : Instant)
    (actor : Actor) : Prop where
  new : target.isNew = true → Keyed.get? target.record.id stored = none ∧
    target.record.updatedAt = now ∧ target.record.updatedBy = actor
  old : target.isNew = false → ∃ r, stored.Stores r ∧ r.id = target.record.id ∧
    (target.isChanged = false → target.record = r)

/-- The record that a batch finds under a key: that of a target, or else a stored one. -/
def UpsertBatch.lookup? (batch : UpsertBatch) (stored : Collection) (keys : List Path)
    (key : UpsertKey) : Option Record :=
  match batch.target? key with
  | some target => some target.record
  | none => stored.first? (key.clause keys)

/-- The targets of a batch are the records in which a run differs from what is stored, and the batch
finds what the run finds. -/
structure UpsertBatch.Simulates (batch : UpsertBatch) (stored : Collection)
    (options : UpsertOptions) (keys : List Path) (now : Instant) (run : UpsertRun) : Prop where
  wellFormed : run.records.WellFormed
  distinct : batch.Distinct
  nodup : (batch.targets.map fun target => target.record.id).Nodup
  stores : ∀ target ∈ batch.targets, run.records.Stores target.record
  others : ∀ k, (∀ target ∈ batch.targets, target.record.id ≠ k) →
    Keyed.get? k run.records = Keyed.get? k stored
  stems : ∀ target ∈ batch.targets, target.Stems stored now options.actor
  key : ∀ target ∈ batch.targets, target.record.upsertKey? keys = target.key
  lookup : ∀ key : UpsertKey, key.IsPlain keys →
    run.records.first? (key.clause keys) = batch.lookup? stored keys key
  ignoredItems : batch.result.ignoredItems = run.ignoredItems
  failedItems : batch.result.failedItems = run.failedItems
  totalProcessed : batch.result.totalProcessed = run.totalProcessed

variable {stored : Collection} {options : UpsertOptions} {keys : List Path} {now : Instant}
  {batch : UpsertBatch} {target : UpsertTarget} {run : UpsertRun} {draft : Draft} {key : UpsertKey}
  {r : Record}

/-- A new record that is combined with a draft has the marks that it would have been given. -/
theorem UpsertTarget.Stems.record_combine {actor : Actor} (h : target.Stems stored now actor)
    (draft : Draft) (way : UpdateWay) :
    (target.combine way draft now actor).record =
      Store.updated draft.payload way now actor target.record := by
  rw [combine, Store.updated]
  split
  · next hnew =>
    obtain ⟨-, hat, hby⟩ := h.new hnew
    subst hat hby
    rfl
  · rfl

theorem UpsertTarget.Stems.combine {actor : Actor} (h : target.Stems stored now actor)
    (way : UpdateWay) : (target.combine way draft now actor).Stems stored now actor := by
  have record := h.record_combine draft way
  refine ⟨fun hnew => ?_, fun hold => ?_⟩
  · rw [record]
    exact ⟨(h.new hnew).1, rfl, rfl⟩
  · obtain ⟨r, hr, hid, -⟩ := h.old hold
    exact ⟨r, hr, by rw [record]; exact hid, nofun⟩

namespace UpsertBatch

theorem Simulates.count (h : batch.Simulates stored options keys now run) :
    batch.count.Simulates stored options keys now run.count :=
  ⟨h.wellFormed, h.distinct, h.nodup, h.stores, h.others, h.stems, h.key, h.lookup, h.ignoredItems,
    h.failedItems, congrArg (· + 1) h.totalProcessed⟩

/-- Records of targets that are stored under the same id are the same. -/
theorem Simulates.record_eq (h : batch.Simulates stored options keys now run)
    (htarget : target ∈ batch.targets) (hr : run.records.Stores r) (hid : target.record.id = r.id) :
    target.record = r := by
  have found := h.stores target htarget
  rw [Stores, hid, hr] at found
  exact (Option.some.inj found).symm

theorem Simulates.upsertKey?_of_id (h : batch.Simulates stored options keys now run)
    (htarget : target ∈ batch.targets) (hr : run.records.Stores r) (hid : target.record.id = r.id) :
    r.upsertKey? keys = target.key :=
  h.record_eq htarget hr hid ▸ h.key target htarget

theorem nodup_push (h : (batch.targets.map fun target => target.record.id).Nodup)
    (htarget : ∀ other ∈ batch.targets, other.record.id ≠ target.record.id) :
    ((batch.push target).targets.map fun target => target.record.id).Nodup := by
  rw [push, List.map_append, List.map_singleton]
  refine List.nodup_append.2 ⟨h, List.nodup_cons.2 ⟨List.not_mem_nil, List.nodup_nil⟩,
    fun id hid id' hid' => ?_⟩
  obtain ⟨other, hother, rfl⟩ := List.mem_map.1 hid
  rw [List.mem_singleton.1 hid']
  exact htarget other hother

/-- A target under a new key is found under its key, and nothing else is found otherwise. -/
theorem lookup?_push (hnone : ∀ k, target.key = some k → batch.target? k = none) :
    (batch.push target).lookup? stored keys key =
      if target.key = some key then some target.record else batch.lookup? stored keys key := by
  rw [lookup?, lookup?, target?_push]
  split_ifs with hkey
  · rw [hnone key hkey]
    rfl
  · rw [Option.or_none]

/-- A draft that is in conflict with no record is added where a run adds it. -/
theorem Simulates.add (h : batch.Simulates stored options keys now run)
    (hkeys : ∀ path ∈ keys, path.IsKeys) (hplain : draft.IsPlain keys)
    (hfresh : Keyed.get? run.ids.take.1 run.records = none)
    (hnone : ∀ key, draft.upsertKey? keys = some key →
      batch.target? key = none ∧ run.records.first? (key.clause keys) = none) :
    (batch.add options now (draft.upsertKey? keys) draft run.ids).1.Simulates stored options keys now
      (run.add options now draft) := by
  have key : (Record.ofDraft draft run.ids.take.1 now options.actor).upsertKey? keys =
      draft.upsertKey? keys := Record.upsertKey?_ofDraft hplain _ _ _
  have differs : ∀ target ∈ batch.targets, target.record.id ≠ run.ids.take.1 := by
    intro target htarget hid
    have found := h.stores target htarget
    rw [Stores, hid, hfresh] at found
    cases found
  rw [UpsertBatch.add, UpsertRun.add]
  dsimp only
  generalize hr : Record.ofDraft draft run.ids.take.1 now options.actor = r at key
  have hid : r.id = run.ids.take.1 := hr ▸ rfl
  rw [← hid] at hfresh differs
  refine {
    wellFormed := h.wellFormed.insertOne r
    distinct := h.distinct.push fun target htarget k hk hk' =>
      target?_eq_none_iff.1 (hnone k hk').1 target htarget hk
    nodup := nodup_push h.nodup differs
    stores := forall_mem_push (fun target htarget => ?_) (Keyed.get?_insert_self _ _ _)
    others := fun k hk => ?_
    stems := forall_mem_push h.stems
      ⟨fun _ => ⟨h.others r.id differs ▸ hfresh, hr ▸ rfl, hr ▸ rfl⟩, fun hold => by cases hold⟩
    key := forall_mem_push h.key key
    lookup := fun k hk => ?_
    ignoredItems := h.ignoredItems
    failedItems := h.failedItems
    totalProcessed := h.totalProcessed }
  · rw [Stores, Keyed.get?_insert_of_ne (differs target htarget)]
    exact h.stores target htarget
  · have hrk : k ≠ r.id := (hk _ (mem_push.2 (Or.inr rfl))).symm
    rw [Keyed.get?_insert_of_ne hrk]
    exact h.others k fun target htarget => hk target (mem_push.2 (Or.inl htarget))
  · rw [lookup?_push fun k hk' => (hnone k hk').1]
    split_ifs with hdraft
    · exact first?_key_insert_of_none h.wellFormed hkeys hk hfresh (hnone k hdraft).2
        (key.trans hdraft)
    · rw [first?_key_insert_of_ne h.wellFormed hkeys hk hfresh (key ▸ hdraft)]
      exact h.lookup k hk

/-- A record that is found becomes a target. -/
theorem Simulates.push_found (h : batch.Simulates stored options keys now run)
    (hstored : stored.WellFormed) (hkeys : ∀ path ∈ keys, path.IsKeys) (hkey : key.IsPlain keys)
    (hnone : batch.target? key = none) (hfound : stored.first? (key.clause keys) = some r) :
    (batch.push (.found key r)).Simulates stored options keys now run := by
  have first : run.records.first? (key.clause keys) = some r := by
    rw [h.lookup key hkey, lookup?, hnone]
    exact hfound
  obtain ⟨runs, hr⟩ := stores_of_first?_key h.wellFormed hkeys hkey first
  have fresh := target?_eq_none_iff.1 hnone
  have differs : ∀ target ∈ batch.targets, target.record.id ≠ r.id := fun target htarget hid =>
    fresh target htarget ((h.upsertKey?_of_id htarget runs hid).symm.trans hr)
  refine { h with
    distinct := h.distinct.push fun target htarget k hk hk' => fresh target htarget (hk.trans hk'.symm)
    nodup := nodup_push h.nodup differs
    stores := forall_mem_push h.stores runs
    others := fun k hk => h.others k fun target htarget => hk target (mem_push.2 (Or.inl htarget))
    stems := forall_mem_push h.stems
      ⟨nofun, fun _ => ⟨r, (stores_of_first? hstored hfound).1, rfl, fun _ => rfl⟩⟩
    key := forall_mem_push h.key hr
    lookup := fun k hk => ?_ }
  rw [lookup?_push fun k hk' => Option.some.inj hk' ▸ hnone]
  split_ifs with hsame
  · obtain rfl : key = k := Option.some.inj hsame
    exact first
  · exact h.lookup k hk

/-- What is found under the keys is what a run finds when it rewrites the record of a target. -/
theorem Simulates.lookup_setTarget (h : batch.Simulates stored options keys now run)
    (hkeys : ∀ path ∈ keys, path.IsKeys) (htarget : batch.target? key = some target)
    {other : UpsertTarget} (hkey : other.key = some key) (hid : other.record.id = target.record.id)
    (hcreated : other.record.createdAt = target.record.createdAt)
    (hrecord : other.record.upsertKey? keys = some key) {k : UpsertKey} (hk : k.IsPlain keys) :
    Collection.first? (k.clause keys) (Keyed.insert other.record.id other.record run.records) =
      (batch.setTarget key other).lookup? stored keys k := by
  obtain ⟨hmem, htkey⟩ := mem_of_target? htarget
  have sameKey : other.record.upsertKey? keys = target.record.upsertKey? keys := by
    rw [hrecord, h.key target hmem, htkey]
  rw [first?_key_insert_of_stores h.wellFormed hkeys hk (h.stores target hmem) hid hcreated sameKey,
    h.lookup k hk, lookup?, lookup?, target?_setTarget hkey htarget]
  by_cases hsame : k = key
  · subst hsame
    rw [htarget, if_pos rfl]
    exact congrArg some (if_pos hid.symm)
  · have found := h.lookup k hk
    rw [lookup?] at found
    rw [if_neg hsame, ← found]
    cases hfound : run.records.first? (k.clause keys) with
    | none => rfl
    | some r =>
      obtain ⟨hr, hrkey⟩ := stores_of_first?_key h.wellFormed hkeys hk hfound
      -- A record that is found under another key is not the one that is rewritten.
      have differs : r.id ≠ other.record.id := by
        intro heq
        have rkey := h.upsertKey?_of_id hmem hr (heq.trans hid).symm
        exact hsame (Option.some.inj (hrkey.symm.trans (rkey.trans htkey)))
      rw [Option.map_some, if_neg differs]

/-- A target that is rewritten under its key is rewritten as by a run. -/
theorem Simulates.setTarget (h : batch.Simulates stored options keys now run)
    (hkeys : ∀ path ∈ keys, path.IsKeys) (htarget : batch.target? key = some target)
    {other : UpsertTarget} (hother : other.Stems stored now options.actor)
    (hkey : other.key = some key) (hid : other.record.id = target.record.id)
    (hcreated : other.record.createdAt = target.record.createdAt)
    (hrecord : other.record.upsertKey? keys = some key) :
    (batch.setTarget key other).Simulates stored options keys now
      { run with records := Keyed.insert other.record.id other.record run.records } := by
  obtain ⟨hmem, htkey⟩ := mem_of_target? htarget
  have ids : (batch.setTarget key other).targets.map (fun t => t.record.id) =
      batch.targets.map fun t => t.record.id := h.distinct.map_setTarget htarget hid
  refine { h with
    wellFormed := h.wellFormed.insertOne other.record
    distinct := h.distinct.setTarget hkey
    nodup := ids ▸ h.nodup
    stores := fun t ht => ?_
    others := fun k hk => ?_
    stems := fun t ht => ?_
    key := fun t ht => ?_
    lookup := fun k hk => h.lookup_setTarget hkeys htarget hkey hid hcreated hrecord hk }
  · rcases mem_setTarget ht with rfl | ⟨ht, hne⟩
    · exact Keyed.get?_insert_self _ _ _
    · have differs : t.record.id ≠ other.record.id := by
        intro heq
        have sameKey := h.upsertKey?_of_id hmem (h.stores t ht) (heq.trans hid).symm
        exact hne ((h.key t ht).symm.trans (sameKey.trans htkey))
      rw [Stores, Keyed.get?_insert_of_ne differs]
      exact h.stores t ht
  · have unwritten : ∀ t ∈ batch.targets, t.record.id ≠ k := by
      intro t ht heq
      have kept : t.record.id ∈ (batch.setTarget key other).targets.map fun t => t.record.id :=
        ids ▸ List.mem_map_of_mem ht
      obtain ⟨t', ht', same⟩ := List.mem_map.1 kept
      exact hk t' ht' (same.trans heq)
    rw [Keyed.get?_insert_of_ne (hid ▸ (unwritten target hmem).symm)]
    exact h.others k unwritten
  · rcases mem_setTarget ht with rfl | ⟨ht, -⟩
    · exact hother
    · exact h.stems t ht
  · rcases mem_setTarget ht with rfl | ⟨ht, -⟩
    · exact hrecord.trans hkey.symm
    · exact h.key t ht

/-- A draft that meets a target is dealt with as by a run. -/
theorem Simulates.meet (h : batch.Simulates stored options keys now run)
    (hkeys : ∀ path ∈ keys, path.IsKeys) (hplain : draft.IsPlain keys)
    (hdraft : draft.upsertKey? keys = some key) (htarget : batch.target? key = some target) :
    (batch.meet options now key target draft).Simulates stored options keys now
      (run.meet options now draft target.record) := by
  obtain ⟨hmem, htkey⟩ := mem_of_target? htarget
  rw [UpsertBatch.meet, UpsertRun.meet]
  cases options.onConflict with
  | ignore => exact { h with ignoredItems := congrArg (· ++ [draft]) h.ignoredItems }
  | fail => exact { h with failedItems := congrArg (· ++ [_]) h.failedItems }
  | combine way =>
    have stems := h.stems target hmem
    have record := stems.record_combine draft way
    dsimp only
    rw [← record]
    refine h.setTarget hkeys htarget (stems.combine way) htkey ?_ ?_ ?_
    · rw [record]
      rfl
    · rw [record]
      rfl
    · rw [record]
      exact Record.upsertKey?_updated hkeys hplain ((h.key target hmem).trans htkey) hdraft way now _

/-- A batch deals with a draft as a run does. -/
theorem Simulates.next (h : batch.Simulates stored options keys now run)
    (hstored : stored.WellFormed) (hkeys : ∀ path ∈ keys, path.IsKeys)
    (hplain : draft.IsPlain keys) (hfresh : Keyed.get? run.ids.take.1 run.records = none) :
    (UpsertBatch.next stored options keys now (batch, run.ids) draft).1.Simulates stored options keys
        now (run.next options keys now draft) ∧
      (UpsertBatch.next stored options keys now (batch, run.ids) draft).2 =
        (run.next options keys now draft).ids := by
  have counted := h.count
  rw [UpsertBatch.next, UpsertRun.next, Draft.conflict?]
  dsimp only
  cases hkey : draft.upsertKey? keys with
  | none =>
    have added := counted.add hkeys hplain hfresh fun k hk => by rw [hkey] at hk; cases hk
    rw [hkey] at added
    exact ⟨added, rfl⟩
  | some key =>
    have plain := hplain.upsertKey hkey
    have lookup : run.records.first? (key.clause keys) = batch.count.lookup? stored keys key :=
      counted.lookup key plain
    rw [Option.bind_some, lookup]
    rw [lookup?] at lookup ⊢
    dsimp only
    cases htarget : batch.count.target? key with
    | some target => exact ⟨counted.meet hkeys hplain hkey htarget,
        (run.count.ids_meet draft target.record).symm⟩
    | none =>
      rw [htarget] at lookup
      dsimp only
      cases hfound : stored.first? (key.clause keys) with
      | none =>
        have added := counted.add hkeys hplain hfresh fun k hk => by
          rw [hkey] at hk
          cases hk
          exact ⟨htarget, lookup.trans hfound⟩
        rw [hkey] at added
        exact ⟨added, rfl⟩
      | some r =>
        have pushed := counted.push_found hstored hkeys plain htarget hfound
        have found : (batch.count.push (.found key r)).target? key = some (.found key r) := by
          rw [target?_push, htarget, Option.none_or]
          exact if_pos rfl
        exact ⟨pushed.meet hkeys hplain hkey found, (run.count.ids_meet draft r).symm⟩

/-- A batch deals with its drafts as a run does. -/
theorem simulates_ofDrafts (hstored : stored.WellFormed) (hkeys : ∀ path ∈ keys, path.IsKeys)
    {drafts : List Draft} (hplain : ∀ draft ∈ drafts, draft.IsPlain keys) {ids : IdSource}
    (hfresh : ids.Fresh drafts.length stored) (options : UpsertOptions) (now : Instant)
    (result : UpsertResult) :
    let final := ofDrafts stored options keys now result ids drafts
    let run := (UpsertRun.start stored ids result).ofDrafts options keys now drafts
    final.1.Simulates stored options keys now run ∧ final.2 = run.ids := by
  have start : Simulates ⟨[], result⟩ stored options keys now (.start stored ids result) := by
    refine ⟨hstored, List.Pairwise.nil, List.Pairwise.nil, ?_, fun _ _ => rfl, ?_, ?_, fun _ _ => rfl,
      rfl, rfl, rfl⟩
    · exact fun _ h => absurd h List.not_mem_nil
    · exact fun _ h => absurd h List.not_mem_nil
    · exact fun _ h => absurd h List.not_mem_nil
  -- The invariant is the simulation, with as many fresh ids left as there are drafts.
  have steps : ∀ (drafts : List Draft) (batch : UpsertBatch) (run : UpsertRun),
      (∀ draft ∈ drafts, draft.IsPlain keys) → run.ids.Fresh drafts.length run.records →
      batch.Simulates stored options keys now run →
      let final := drafts.foldl (UpsertBatch.next stored options keys now) (batch, run.ids)
      let last := drafts.foldl (UpsertRun.next options keys now) run
      final.1.Simulates stored options keys now last ∧ final.2 = last.ids := by
    intro drafts
    induction drafts with
    | nil => exact fun _ _ _ _ h => ⟨h, rfl⟩
    | cons draft rest ih =>
      intro batch run hplain hfresh h
      obtain ⟨simulates, ids⟩ := h.next hstored hkeys (hplain draft List.mem_cons_self)
        hfresh.unused_take
      have next := ih _ _ (fun d hd => hplain d (List.mem_cons_of_mem _ hd))
        (UpsertRun.fresh_next h.wellFormed hfresh) simulates
      rw [← ids] at next
      exact next
  exact steps drafts _ _ hplain hfresh start

theorem Simulates.nodup_ids (h : batch.Simulates stored options keys now run)
    (p : UpsertTarget → Bool) :
    (((batch.targets.filter p).map UpsertTarget.record).map Record.id).Nodup := by
  rw [List.map_map]
  exact h.nodup.sublist (List.filter_sublist.map _)

/-- The new records of a batch can be inserted. -/
theorem Simulates.exists_inserted (h : batch.Simulates stored options keys now run) :
    ∃ inserted, stored.insert batch.newRecords = .ok inserted := by
  refine exists_insert (fun r hr => ?_) (h.nodup_ids _)
  obtain ⟨t, ht, hnew, rfl⟩ := mem_newRecords.1 hr
  exact ((h.stems t ht).new hnew).1

/-- What is written again under the id of a target is the target, if it is old and changed. -/
theorem Simulates.ne_of_mem_changedRecords (h : batch.Simulates stored options keys now run)
    (htarget : target ∈ batch.targets) (hkept : target.isNew = true ∨ target.isChanged = false) :
    ∀ s ∈ batch.changedRecords, s.id ≠ target.record.id := by
  intro s hs hid
  obtain ⟨t, ht, hold, hchanged, rfl⟩ := mem_changedRecords.1 hs
  have same : t = target := eq_of_pairwise (List.pairwise_map.1 h.nodup) ht htarget
    (fun hne => hne hid) fun hne => hne hid.symm
  subst same
  rcases hkept with hnew | hkept
  · exact absurd (hold.symm.trans hnew) Bool.false_ne_true
  · exact absurd (hkept.symm.trans hchanged) Bool.false_ne_true

/-- What is written for a target is its record. -/
theorem Simulates.get?_written (h : batch.Simulates stored options keys now run)
    {inserted : Collection} (hinsert : stored.insert batch.newRecords = .ok inserted)
    (htarget : target ∈ batch.targets) :
    Keyed.get? target.record.id (replace batch.changedRecords inserted).2 = some target.record := by
  cases hnew : target.isNew with
  | true =>
    rw [get?_replace_of_not_mem (h.ne_of_mem_changedRecords htarget (.inl hnew))]
    exact stores_of_insert hinsert _ (mem_newRecords.2 ⟨target, htarget, hnew, rfl⟩)
  | false =>
    cases hchanged : target.isChanged with
    | true =>
      have replaced : ∀ r ∈ batch.changedRecords, Keyed.contains r.id inserted = true := by
        intro r hr
        obtain ⟨t, ht, hold, -, rfl⟩ := mem_changedRecords.1 hr
        obtain ⟨s, hs, hid, -⟩ := (h.stems t ht).old hold
        have kept : Keyed.get? s.id inserted = some s := get?_of_insert hinsert hs
        rw [Keyed.contains, ← hid, kept]
        rfl
      exact stores_of_replace (h.nodup_ids _) replaced _
        (mem_changedRecords.2 ⟨target, htarget, hnew, hchanged, rfl⟩)
    | false =>
      obtain ⟨r, hr, -, hsame⟩ := (h.stems target htarget).old hnew
      rw [get?_replace_of_not_mem (h.ne_of_mem_changedRecords htarget (.inr hchanged)),
        hsame hchanged]
      exact get?_of_insert hinsert hr

/-- A record that is no target is not written. -/
theorem get?_written_of_not_target {inserted : Collection}
    (hinsert : stored.insert batch.newRecords = .ok inserted) {k : String}
    (hk : ∀ target ∈ batch.targets, target.record.id ≠ k) :
    Keyed.get? k (replace batch.changedRecords inserted).2 = Keyed.get? k stored := by
  have unchanged : ∀ s ∈ batch.changedRecords, s.id ≠ k := by
    intro s hs
    obtain ⟨t, ht, -, -, rfl⟩ := mem_changedRecords.1 hs
    exact hk t ht
  have old : ∀ s ∈ batch.newRecords, s.id ≠ k := by
    intro s hs
    obtain ⟨t, ht, -, rfl⟩ := mem_newRecords.1 hs
    exact hk t ht
  rw [get?_replace_of_not_mem unchanged, get?_insert_of_not_mem hinsert old]

/-- What a batch writes are the records of the run. -/
theorem Simulates.written (h : batch.Simulates stored options keys now run)
    (hstored : stored.WellFormed) :
    ∃ inserted, stored.insert batch.newRecords = .ok inserted ∧
      (replace batch.changedRecords inserted).2 = run.records := by
  obtain ⟨inserted, hinsert⟩ := h.exists_inserted
  refine ⟨inserted, hinsert, ?_⟩
  -- Both sides are sorted, so that it is enough to compare them id by id.
  refine ((hstored.insert hinsert).replace _).sorted.ext h.wellFormed.sorted fun k => ?_
  by_cases htarget : ∃ target ∈ batch.targets, target.record.id = k
  · obtain ⟨target, htarget, rfl⟩ := htarget
    exact (h.get?_written hinsert htarget).trans (h.stores target htarget).symm
  · have others : ∀ target ∈ batch.targets, target.record.id ≠ k :=
      fun target ht hid => htarget ⟨target, ht, hid⟩
    exact (get?_written_of_not_target hinsert others).trans (h.others k others).symm

end UpsertBatch

/-! ## Upserts -/

/-- A world in which a run has come to its end. -/
def World.reached (w : World collectionBackend) (run : UpsertRun) : World collectionBackend :=
  { w with ids := run.ids }.withRecords run.records

/-- The reports of an upsert are those of a run. -/
structure UpsertResult.Reports (result : UpsertResult) (run : UpsertRun) : Prop where
  ignoredItems : result.ignoredItems = run.ignoredItems
  failedItems : result.failedItems = run.failedItems
  totalProcessed : result.totalProcessed = run.totalProcessed

namespace Store

variable (store : Store collectionBackend) {w : World collectionBackend}

/-- A batch does what a run over its drafts does. -/
theorem result_upsertBatch_eq_run (hw : w.records.WellFormed)
    (hkeys : ∀ path ∈ keys, path.IsKeys) {drafts : List Draft}
    (hplain : ∀ draft ∈ drafts, draft.IsPlain keys)
    (hfresh : w.ids.Fresh drafts.length w.records) (options : UpsertOptions)
    (before : UpsertResult) :
    let run := (UpsertRun.start w.records w.ids before).ofDrafts options keys w.clock drafts
    ∃ after, (store.upsertBatch options keys before drafts).result w = (.ok after, w.reached run) ∧
      after.Reports run := by
  obtain ⟨simulates, ids⟩ :=
    UpsertBatch.simulates_ofDrafts hw hkeys hplain hfresh options w.clock before
  obtain ⟨inserted, hinsert, hreplace⟩ := simulates.written hw
  have written := store.result_upsertBatch options keys w before drafts
  dsimp only at written
  generalize UpsertBatch.ofDrafts w.records options keys w.clock before w.ids drafts = final
    at simulates ids hinsert hreplace written
  have insert : ({ w with ids := final.2 } : World collectionBackend).records.insert
      final.1.newRecords = .ok inserted := hinsert
  rw [insert] at written
  dsimp only at written
  rw [hreplace, ids] at written
  exact ⟨final.1.finish, written,
    ⟨simulates.ignoredItems, simulates.failedItems, simulates.totalProcessed⟩⟩

/-- So do batches one after the other. -/
theorem result_upsertBatches (hw : w.records.WellFormed) (hkeys : ∀ path ∈ keys, path.IsKeys)
    {batches : List (List Draft)} (hplain : ∀ draft ∈ batches.flatten, draft.IsPlain keys)
    (hfresh : w.ids.Fresh batches.flatten.length w.records) (options : UpsertOptions)
    (before : UpsertResult) :
    let run :=
      (UpsertRun.start w.records w.ids before).ofDrafts options keys w.clock batches.flatten
    ∃ after, (batches.foldlM (store.upsertBatch options keys) before).result w =
        (.ok after, w.reached run) ∧ after.Reports run := by
  induction batches generalizing w before with
  | nil => exact ⟨before, rfl, rfl, rfl, rfl⟩
  | cons drafts rest ih =>
    rw [List.flatten_cons] at hplain hfresh
    rw [List.length_append] at hfresh
    have start : (UpsertRun.start w.records w.ids before).records.WellFormed := hw
    obtain ⟨middle, first, ⟨ignored, failed, processed⟩⟩ := store.result_upsertBatch_eq_run hw hkeys
      (fun draft hdraft => hplain draft (List.mem_append_left _ hdraft))
      (hfresh.mono (Nat.le_add_right _ _) fun _ => id) options before
    have split : (UpsertRun.start w.records w.ids before).ofDrafts options keys w.clock
        (drafts ++ rest.flatten) =
          ((UpsertRun.start w.records w.ids before).ofDrafts options keys w.clock drafts).ofDrafts
            options keys w.clock rest.flatten := List.foldl_append
    have wellFormed : ((UpsertRun.start w.records w.ids before).ofDrafts options keys w.clock
        drafts).records.WellFormed := UpsertRun.wellFormed_ofDrafts start drafts
    have fresh : ((UpsertRun.start w.records w.ids before).ofDrafts options keys w.clock
        drafts).ids.Fresh rest.flatten.length
          ((UpsertRun.start w.records w.ids before).ofDrafts options keys w.clock drafts).records :=
      UpsertRun.fresh_ofDrafts start hfresh
    rw [List.foldlM_cons, Effect.result_bind_ok first, List.flatten_cons, split]
    generalize (UpsertRun.start w.records w.ids before).ofDrafts options keys w.clock drafts = run
      at *
    have again : UpsertRun.start run.records run.ids middle = run := by
      rw [UpsertRun.start, ignored, failed, processed]
    obtain ⟨after, others, reports⟩ := ih (w := w.reached run) wellFormed
      (fun draft hdraft => hplain draft (List.mem_append_right _ hdraft)) fresh middle
    have reached : (UpsertRun.start (w.reached run).records (w.reached run).ids middle) = run := again
    rw [reached] at others reports
    exact ⟨after, others, reports⟩

/-- An upsert does what a run over its drafts does, whatever its batches are. -/
theorem result_upsert (hw : w.records.WellFormed) (options : UpsertOptions)
    (hoptions : options.conflictKeys.mapM conflictKey = .ok keys)
    {size : Nat} (hsize : batchSize options.batchSize store.config.upsertBatch = .ok size)
    (hkeys : ∀ path ∈ keys, path.IsKeys) {drafts : List Draft}
    (hplain : ∀ draft ∈ drafts, draft.IsPlain keys)
    (hfresh : w.ids.Fresh drafts.length w.records) :
    let run := (UpsertRun.start w.records w.ids .empty).ofDrafts options keys w.clock drafts
    ∃ result, (store.upsert drafts options).result w = (.ok result, w.reached run) ∧
      result.Reports run := by
  have batches := flatten_pieces size drafts
  rw [← batches] at hplain hfresh
  have written := store.result_upsertBatches hw hkeys hplain hfresh options .empty
  rw [batches] at written
  rw [upsert, hoptions, hsize]
  exact written

/-- Upserts of the same drafts that differ in their batch sizes only succeed both, lead to the same
world, and report the same items. -/
theorem upsert_eq_of_batchSize (hw : w.records.WellFormed) {options : UpsertOptions}
    (hoptions : options.conflictKeys.mapM conflictKey = .ok keys)
    (hkeys : ∀ path ∈ keys, path.IsKeys) {drafts : List Draft}
    (hplain : ∀ draft ∈ drafts, draft.IsPlain keys)
    (hfresh : w.ids.Fresh drafts.length w.records) {first second : Nat} (hfirst : 1 ≤ first)
    (hsecond : 1 ≤ second) :
    ∃ result result' w',
      (store.upsert drafts { options with batchSize := some first }).result w = (.ok result, w') ∧
      (store.upsert drafts { options with batchSize := some second }).result w = (.ok result', w') ∧
      result.totalProcessed = result'.totalProcessed ∧
      result.ignoredItems = result'.ignoredItems ∧ result.failedItems = result'.failedItems := by
  let run := (UpsertRun.start w.records w.ids .empty).ofDrafts options keys w.clock drafts
  -- Nothing that a run does with a draft depends on the batch size.
  have reach : ∀ size, 1 ≤ size → ∃ result,
      (store.upsert drafts { options with batchSize := some size }).result w =
        (.ok result, w.reached run) ∧ result.Reports run := by
    intro size hsize
    have accepted : batchSize (some size) store.config.upsertBatch = .ok size := by
      obtain ⟨n, rfl⟩ := Nat.exists_eq_add_of_le' hsize
      rfl
    exact store.result_upsert hw { options with batchSize := some size } hoptions accepted hkeys hplain
      hfresh
  obtain ⟨result, hresult, reports⟩ := reach first hfirst
  obtain ⟨result', hresult', reports'⟩ := reach second hsecond
  exact ⟨result, result', w.reached run, hresult, hresult',
    reports.totalProcessed.trans reports'.totalProcessed.symm,
    reports.ignoredItems.trans reports'.ignoredItems.symm,
    reports.failedItems.trans reports'.failedItems.symm⟩

/-- With batches of one draft, the second draft for a new key finds a record that is stored, and with
batches of three it meets a target. A draft without a key is inserted each time. -/
theorem upsert_eq_of_batchSize_new_key :
    let draft (fields : Fields) : Draft := ⟨"app", "g", "t", .object fields, true, none⟩
    let drafts := [draft [("a", .int 1), ("k", .string "x")], draft [("b", .int 2), ("k", .string "x")],
      draft [("c", .int 3), ("k", .null)], draft [("d", .int 4), ("k", .string "y")]]
    let r := Record.ofDraft (draft [("k", .string "y")]) "r" 1 default
    let keys : List Path := [⟨[.key "k"]⟩]
    let options : UpsertOptions := ⟨["k"], .combine .merge, none, default⟩
    let w : World collectionBackend := ⟨⟨[("r", r)], []⟩, 2, ⟨[], "s", 1⟩, none⟩
    let store : Store collectionBackend := ⟨(), .default⟩
    w.records.WellFormed ∧ options.conflictKeys.mapM conflictKey = .ok keys ∧
      (∀ path ∈ keys, path.IsKeys) ∧ (∀ draft ∈ drafts, draft.IsPlain keys) ∧
      w.ids.Fresh drafts.length w.records ∧
      ∃ result result' w',
        (store.upsert drafts { options with batchSize := some 1 }).result w = (.ok result, w') ∧
        (store.upsert drafts { options with batchSize := some 3 }).result w = (.ok result', w') ∧
        result.totalProcessed = result'.totalProcessed ∧
        result.ignoredItems = result'.ignoredItems ∧ result.failedItems = result'.failedItems := by
  intro draft drafts r keys options w store
  have wellFormed : w.records.WellFormed := wellFormed_nil.insertOne r
  have parsed : options.conflictKeys.mapM conflictKey = .ok keys := by rfl
  have areKeys : ∀ path ∈ keys, path.IsKeys := by decide
  have plain : ∀ draft ∈ drafts, draft.IsPlain keys := by decide +kernel
  have fresh : w.ids.Fresh drafts.length w.records := ⟨by decide +kernel, by decide +kernel⟩
  exact ⟨wellFormed, parsed, areKeys, plain, fresh, upsert_eq_of_batchSize store wellFormed parsed
    areKeys plain fresh (by decide) (by decide)⟩

end Store

end RecordStore
