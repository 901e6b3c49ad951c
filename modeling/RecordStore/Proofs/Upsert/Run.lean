import RecordStore.Proofs.Upsert.Batch

/-!
# Upserts one draft at a time

An upsert that looks each draft up in the records as they are after all drafts before it
(`UpsertRun.next`). It needs as many fresh ids as it has drafts (`IdSource.Fresh`).
-/

namespace RecordStore

open Collection

/-! ## Fresh ids -/

/-- The next ids that a source gives are different, and no record has one of them. -/
structure IdSource.Fresh (ids : IdSource) (count : Nat) (records : Collection) : Prop where
  unused : ∀ n < count, Keyed.get? (ids.nth n) records = none
  distinct : ∀ n < count, ∀ m < n, ids.nth m ≠ ids.nth n

namespace IdSource.Fresh

variable {ids : IdSource} {count : Nat} {records new : Collection} {r : Record}

theorem unused_take (h : ids.Fresh (count + 1) records) : Keyed.get? ids.take.1 records = none :=
  h.unused 0 (Nat.succ_pos count)

theorem mono (h : ids.Fresh count records) {n : Nat} (hn : n ≤ count)
    (hnew : ∀ k, Keyed.get? k records = none → Keyed.get? k new = none) : ids.Fresh n new :=
  ⟨fun m hm => hnew _ (h.unused m (Nat.lt_of_lt_of_le hm hn)),
    fun m hm => h.distinct m (Nat.lt_of_lt_of_le hm hn)⟩

theorem insert (h : ids.Fresh (count + 1) records) (hid : r.id = ids.take.1) :
    ids.take.2.Fresh count (Keyed.insert r.id r records) := by
  refine ⟨fun n hn => ?_, fun n hn m hm => ?_⟩
  · have differs : ids.take.2.nth n ≠ r.id :=
      hid ▸ (h.distinct (n + 1) (Nat.succ_lt_succ hn) 0 (Nat.succ_pos n)).symm
    rw [Keyed.get?_insert_of_ne differs]
    exact h.unused (n + 1) (Nat.succ_lt_succ hn)
  · exact h.distinct (n + 1) (Nat.succ_lt_succ hn) (m + 1) (Nat.succ_lt_succ hm)

end IdSource.Fresh

/-! ## One draft at a time -/

/-- How far an upsert has come: the records, the source of ids, and what it has reported. -/
structure UpsertRun where
  records : Collection
  ids : IdSource
  ignoredItems : List Draft
  failedItems : List FailedItem
  totalProcessed : Nat

namespace UpsertRun

variable (options : UpsertOptions) (keys : List Path) (now : Instant)

/-- Nothing has been done since something was reported. -/
def start (records : Collection) (ids : IdSource) (result : UpsertResult) : UpsertRun :=
  ⟨records, ids, result.ignoredItems, result.failedItems, result.totalProcessed⟩

/-- Counts an item. -/
def count (run : UpsertRun) : UpsertRun := { run with totalProcessed := run.totalProcessed + 1 }

/-- Inserts the record that a draft becomes. -/
def add (draft : Draft) (run : UpsertRun) : UpsertRun :=
  let r := Record.ofDraft draft run.ids.take.1 now options.actor
  { run with records := Keyed.insert r.id r run.records, ids := run.ids.take.2 }

/-- Deals with a draft that is in conflict with a record. -/
def meet (draft : Draft) (r : Record) (run : UpsertRun) : UpsertRun :=
  match options.onConflict with
  | .combine way =>
    let s := Store.updated draft.payload way now options.actor r
    { run with records := Keyed.insert s.id s run.records }
  | .ignore => { run with ignoredItems := run.ignoredItems ++ [draft] }
  | .fail =>
    { run with failedItems := run.failedItems ++ [⟨draft, "conflicts with record " ++ r.id⟩] }

/-- Deals with a draft. -/
def next (run : UpsertRun) (draft : Draft) : UpsertRun :=
  match draft.conflict? keys run.records with
  | none => run.count.add options now draft
  | some r => run.count.meet options now draft r

/-- Deals with some drafts, one at a time. -/
def ofDrafts (start : UpsertRun) (drafts : List Draft) : UpsertRun :=
  drafts.foldl (next options keys now) start

variable {options keys now} {run : UpsertRun} {draft : Draft} {r : Record} {n : Nat}

theorem wellFormed_add (h : run.records.WellFormed) : (run.add options now draft).records.WellFormed :=
  h.insertOne _

theorem wellFormed_meet (h : run.records.WellFormed) :
    (run.meet options now draft r).records.WellFormed := by
  rw [meet]
  cases options.onConflict with
  | combine way => exact h.insertOne _
  | ignore => exact h
  | fail => exact h

theorem ids_meet (run : UpsertRun) (draft : Draft) (r : Record) :
    (run.meet options now draft r).ids = run.ids := by
  rw [meet]
  cases options.onConflict <;> rfl

theorem wellFormed_next (h : run.records.WellFormed) :
    (run.next options keys now draft).records.WellFormed := by
  rw [next]
  split
  · exact wellFormed_add h
  · exact wellFormed_meet h

theorem fresh_next (h : run.records.WellFormed) (hfresh : run.ids.Fresh (n + 1) run.records) :
    (run.next options keys now draft).ids.Fresh n (run.next options keys now draft).records := by
  rw [next]
  cases hconflict : draft.conflict? keys run.records with
  | none => exact hfresh.insert rfl
  | some r =>
    obtain ⟨key, -, hfound⟩ := Option.bind_eq_some_iff.1 hconflict
    have stored : run.records.Stores r := (stores_of_first? h hfound).1
    dsimp only
    rw [meet]
    cases options.onConflict with
    | combine way =>
      refine hfresh.mono (Nat.le_succ n) fun k hk => ?_
      have differs : k ≠ r.id := by
        rintro rfl
        exact absurd (stored.symm.trans hk) nofun
      exact (Keyed.get?_insert_of_ne differs _ _).trans hk
    | ignore => exact hfresh.mono (Nat.le_succ n) fun _ => id
    | fail => exact hfresh.mono (Nat.le_succ n) fun _ => id

theorem wellFormed_ofDrafts (h : run.records.WellFormed) (drafts : List Draft) :
    (run.ofDrafts options keys now drafts).records.WellFormed := by
  induction drafts generalizing run with
  | nil => exact h
  | cons draft rest ih => exact ih (wellFormed_next h)

theorem fresh_ofDrafts (h : run.records.WellFormed) {drafts : List Draft}
    (hfresh : run.ids.Fresh (drafts.length + n) run.records) :
    (run.ofDrafts options keys now drafts).ids.Fresh n
      (run.ofDrafts options keys now drafts).records := by
  induction drafts generalizing run with
  | nil => rwa [List.length_nil, Nat.zero_add] at hfresh
  | cons draft rest ih =>
    rw [List.length_cons, Nat.add_right_comm] at hfresh
    exact ih (wellFormed_next h) (fresh_next h hfresh)

end UpsertRun

end RecordStore
