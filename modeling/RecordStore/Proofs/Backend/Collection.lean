import RecordStore.Backend.Collection
import RecordStore.Proofs.Document.Clause
import RecordStore.Proofs.Keyed

/-!
# Operations on a collection

A collection is well formed if its records stand in the order of their keys, which are their ids
(`Collection.WellFormed`). Every operation keeps it so. On a well-formed collection finding in the
order of ids is filtering (`Collection.find_byId`), and replacing records replaces them in place
(`Collection.replace_middle`). Nothing that is asked through a clause fails.
-/

namespace RecordStore

theorem compare_eq_gt_iff {a b : String} : compare a b = .gt ↔ b < a := by
  have shape : compare a b = compareOfLessAndEq a b := rfl
  rw [shape, compareOfLessAndEq]
  by_cases h : a < b
  · simp [h, String.lt_asymm h]
  · by_cases hab : a = b
    · simp [hab]
    · simp only [h, hab, if_false, true_iff]
      exact Std.lt_of_le_of_ne (String.not_lt.1 h) (Ne.symm hab)

namespace Collection

/-- The records stand in the order of their keys, and these are their ids. -/
structure WellFormed (records : Collection) : Prop where
  sorted : Keyed.Sorted records
  keyed : ∀ entry ∈ records, entry.1 = entry.2.id

theorem wellFormed_nil : WellFormed [] := ⟨List.Pairwise.nil, by simp⟩

variable {records : Collection}

/-- Whether a record is stored under its id. -/
def Stores (records : Collection) (r : Record) : Prop := Keyed.get? r.id records = some r

theorem WellFormed.id_of_get? (h : records.WellFormed) {k : String} {r : Record}
    (hr : Keyed.get? k records = some r) : r.id = k :=
  (h.keyed _ ((Keyed.mem_iff_get? h.sorted).2 hr)).symm

theorem WellFormed.mem_values_iff (h : records.WellFormed) {r : Record} :
    r ∈ Keyed.values records ↔ Keyed.get? r.id records = some r := by
  rw [← Keyed.mem_iff_get? h.sorted, Keyed.values, List.mem_map]
  constructor
  · rintro ⟨entry, hentry, rfl⟩
    rwa [← h.keyed entry hentry]
  · intro hr
    exact ⟨_, hr, rfl⟩

theorem WellFormed.map_id_values (h : records.WellFormed) :
    (Keyed.values records).map Record.id = Keyed.keys records := by
  rw [Keyed.values, Keyed.keys, List.map_map]
  exact List.map_congr_left fun entry hentry => (h.keyed entry hentry).symm

/-- The records stand in the order of their ids. -/
theorem WellFormed.pairwise_values (h : records.WellFormed) :
    (Keyed.values records).Pairwise fun a b => a.id < b.id := by
  have sorted : Keyed.Sorted records := h.sorted
  rw [Keyed.Sorted, ← h.map_id_values] at sorted
  exact List.pairwise_map.1 sorted

/-! ## Finding -/

theorem select_document (clause : Clause) (candidates : List Record) :
    select clause.document candidates = .ok (candidates.filter fun r => clause.holds r) := by
  induction candidates with
  | nil => rfl
  | cons r rest ih =>
    rw [select, satisfies, Document.satisfies_clause, ih, List.filter_cons]
    cases clause.holds r <;> rfl

theorem count_document (clause : Clause) (records : Collection) :
    count clause.document records =
      .ok ((Keyed.values records).filter fun r => clause.holds r).length := by
  rw [count, select_document]
  rfl

theorem find_document (clause : Clause) (order : List (String × SortDirection))
    (slice : Option Slice) (records : Collection) :
    ∃ found, find clause.document order slice records = .ok found ∧
      ∀ r ∈ found, r ∈ Keyed.values records ∧ clause.holds r = true := by
  rw [find, select_document]
  refine ⟨_, rfl, fun r hr => ?_⟩
  have sorted : r ∈ ((Keyed.values records).filter fun r => clause.holds r).mergeSort
      (precedes order) := by
    cases slice with
    | none => exact hr
    | some slice => exact List.mem_of_mem_drop (List.mem_of_mem_take hr)
  exact List.mem_filter.1 (List.mem_mergeSort.1 sorted)

theorem precedes_byId {a b : Record} (h : a.id < b.id) :
    precedes (SortKey.documentOrder [.byId]) a b = true := by
  have value : ∀ r : Record, r.toValue.lookup? Column.id.key = some (.string r.id) := fun r => rfl
  have order : Document.compareBy (SortKey.documentOrder [.byId]) a.toValue b.toValue =
      (compare a.id b.id).then .eq := by
    simp only [SortKey.documentOrder, SortKey.byId, SortKey.documentKey, List.map_cons,
      List.map_nil, Document.compareBy, value, Option.getD_some, Value.compare]
  have not_gt : compare a.id b.id ≠ .gt := fun hgt => String.lt_asymm h (compare_eq_gt_iff.1 hgt)
  rw [precedes, order, Ordering.then_eq, bne_iff_ne]
  exact not_gt

/-- In the order of ids, the first records that satisfy a clause are the first of those that do. -/
theorem find_byId (h : records.WellFormed) (clause : Clause) (limit : Nat) :
    find clause.document (SortKey.documentOrder [.byId]) (some (.first limit)) records =
      .ok (((Keyed.values records).filter fun r => clause.holds r).take limit) := by
  have sorted : ((Keyed.values records).filter fun r => clause.holds r).Pairwise
      fun a b => precedes (SortKey.documentOrder [.byId]) a b = true :=
    (h.pairwise_values.imp precedes_byId).filter _
  rw [find, select_document, ok_bind, List.mergeSort_of_pairwise sorted]
  rfl

/-! ## Writing -/

theorem WellFormed.insertOne (h : records.WellFormed) (r : Record) :
    WellFormed (Keyed.insert r.id r records) := by
  refine ⟨h.sorted.insert r.id r, fun entry hentry => ?_⟩
  rcases Keyed.mem_insert hentry with rfl | hentry
  · rfl
  · exact h.keyed entry hentry

theorem WellFormed.eraseOne (h : records.WellFormed) (id : String) :
    WellFormed (Keyed.erase id records) :=
  ⟨h.sorted.erase id, fun entry hentry =>
    h.keyed entry ((Keyed.erase_sublist id records).subset hentry)⟩

/-! ### Replacing -/

theorem WellFormed.mapValues (h : records.WellFormed) {f : Record → Record}
    (hf : ∀ r, (f r).id = r.id) : WellFormed (Keyed.mapValues f records) := by
  refine ⟨?_, fun entry hentry => ?_⟩
  · rw [Keyed.Sorted, Keyed.keys_mapValues]
    exact h.sorted
  · obtain ⟨old, hold, rfl⟩ := List.mem_map.1 hentry
    rw [hf]
    exact h.keyed old hold

theorem replaceOne_middle {before after : Collection} {k : String} {r : Record}
    (h : Keyed.Sorted (before ++ (k, r) :: after)) (n : Nat) {r' : Record} (hid : r'.id = k) :
    replaceOne (n, before ++ (k, r) :: after) r' = (n + 1, before ++ (k, r') :: after) := by
  have found : Keyed.contains k (before ++ (k, r) :: after) = true :=
    (Keyed.contains_iff_mem h).2 ⟨r, List.mem_append_right _ List.mem_cons_self⟩
  rw [replaceOne, hid, if_pos found, Keyed.insert_append_cons h]

/-- What putting each replacement in its place keeps, replacing them keeps. -/
theorem replace_induction {P : Collection → Prop} {replacements : List Record} (h : P records)
    (hstep : ∀ current, ∀ r ∈ replacements, Keyed.contains r.id current = true → P current →
      P (Keyed.insert r.id r current)) : P (replace replacements records).2 := by
  unfold replace
  generalize 0 = n
  induction replacements generalizing n records with
  | nil => exact h
  | cons r rest ih =>
    have others := fun current s hs => hstep current s (List.mem_cons_of_mem r hs)
    rw [List.foldl_cons, replaceOne]
    split
    · next hfound => exact ih (hstep records r List.mem_cons_self hfound h) others _
    · exact ih h others _

/-- The records of a part of a collection that pass a test. -/
def passing (p : Record → Bool) (entries : Collection) : List Record :=
  (Keyed.values entries).filter p

/-- A record changed if it passes a test. -/
def changeIf (p : Record → Bool) (f : Record → Record) (r : Record) : Record :=
  if p r then f r else r

theorem changeIf_id (p : Record → Bool) {f : Record → Record} (hf : ∀ r, (f r).id = r.id)
    (r : Record) : (changeIf p f r).id = r.id := by
  unfold changeIf
  split
  · exact hf r
  · rfl

theorem passing_nil (p : Record → Bool) : passing p [] = [] := rfl

theorem passing_cons (p : Record → Bool) (k : String) (r : Record) (rest : Collection) :
    passing p ((k, r) :: rest) = if p r then r :: passing p rest else passing p rest :=
  List.filter_cons

theorem WellFormed.change_middle {before after : Collection} {k : String} {r r' : Record}
    (h : (before ++ (k, r) :: after).WellFormed) (hid : r'.id = r.id) :
    (before ++ (k, r') :: after).WellFormed := by
  refine ⟨?_, fun entry hentry => ?_⟩
  · have sorted := h.sorted
    rw [Keyed.Sorted, Keyed.keys_append] at sorted ⊢
    exact sorted
  · rcases List.mem_append.1 hentry with hentry | hentry
    · exact h.keyed entry (List.mem_append_left _ hentry)
    · rcases List.mem_cons.1 hentry with rfl | hentry
      · have same : k = r.id := h.keyed (k, r) (List.mem_append_right _ List.mem_cons_self)
        exact same.trans hid.symm
      · exact h.keyed entry (List.mem_append_right _ (List.mem_cons_of_mem _ hentry))

/-- To replace the records of a part of a collection that pass a test changes nothing else. -/
theorem foldl_replaceOne_middle {p : Record → Bool} {f : Record → Record}
    (hf : ∀ r, (f r).id = r.id) (middle : Collection) :
    ∀ {before after : Collection} (n : Nat), (before ++ (middle ++ after)).WellFormed →
      (((passing p middle).map f).foldl replaceOne (n, before ++ (middle ++ after))).2 =
        before ++ (Keyed.mapValues (changeIf p f) middle ++ after) := by
  induction middle with
  | nil => exact fun _ _ => rfl
  | cons entry rest ih =>
    obtain ⟨k, r⟩ := entry
    intro before after n h
    have key : k = r.id :=
      h.keyed (k, r) (List.mem_append_right _ (List.mem_append_left _ List.mem_cons_self))
    have shift : ∀ (r : Record) (rest : Collection),
        before ++ ((k, r) :: rest ++ after) = (before ++ [(k, r)]) ++ (rest ++ after) := by simp
    have head : Keyed.mapValues (changeIf p f) ((k, r) :: rest) =
        (k, changeIf p f r) :: Keyed.mapValues (changeIf p f) rest := rfl
    rw [passing_cons, head]
    by_cases hr : p r = true
    · have step : replaceOne (n, before ++ ((k, r) :: rest ++ after)) (f r) =
          (n + 1, before ++ ((k, f r) :: rest ++ after)) :=
        replaceOne_middle h.sorted n ((hf r).trans key.symm)
      have next : (before ++ ((k, f r) :: rest ++ after)).WellFormed := h.change_middle (hf r)
      rw [if_pos hr, List.map_cons, List.foldl_cons, step, changeIf, if_pos hr, shift, shift]
      rw [shift] at next
      exact ih (n + 1) next
    · rw [if_neg hr, changeIf, if_neg hr, shift, shift]
      rw [shift] at h
      exact ih n h

theorem replace_middle {p : Record → Bool} {f : Record → Record} (hf : ∀ r, (f r).id = r.id)
    {before middle after : Collection} (h : (before ++ (middle ++ after)).WellFormed) :
    (replace ((passing p middle).map f) (before ++ (middle ++ after))).2 =
      before ++ (Keyed.mapValues (changeIf p f) middle ++ after) :=
  foldl_replaceOne_middle hf middle 0 h

end Collection

end RecordStore
