import RecordStore.Proofs.Backend.Evolution
import RecordStore.Proofs.Store

/-!
# Looking records up

The first record that satisfies a clause in the default order (`Collection.first?`), and what becomes
of this look-up when records are written: a new record does not change what clauses find that it does
not satisfy, and a record that is rewritten without changing its place in the order is found where it
was found before. What is stored under an id after an insertion or a replacement follows from the
records that are written.
-/

namespace RecordStore

namespace Collection

variable {records new : Collection} {clause : Clause} {r s : Record}

/-! ## The first record -/

/-- The order in which the most recent records come first. -/
def precedesByDefault : Record → Record → Bool :=
  precedes (SortKey.documentOrder (SortKey.complete []))

/-- The first record that satisfies a clause in the default order. -/
def first? (clause : Clause) (records : Collection) : Option Record :=
  ((passing (fun r => clause.holds r) records).mergeSort precedesByDefault).head?

theorem first?_eq_none_iff (h : records.WellFormed) :
    records.first? clause = none ↔ ∀ r, records.Stores r → clause.holds r = false := by
  rw [first?, List.head?_eq_none_iff, ← List.length_eq_zero_iff, List.length_mergeSort,
    List.length_eq_zero_iff, passing, List.filter_eq_nil_iff]
  refine forall_congr' fun r => ?_
  rw [h.mem_values_iff, Bool.not_eq_true]
  rfl

/-- What is found is stored and satisfies the clause. -/
theorem stores_of_first? (h : records.WellFormed) (hr : records.first? clause = some r) :
    records.Stores r ∧ clause.holds r = true := by
  have found := List.mem_mergeSort.1 (List.mem_of_head? hr)
  obtain ⟨hvalue, hholds⟩ := List.mem_filter.1 found
  exact ⟨h.mem_values_iff.1 hvalue, hholds⟩

theorem passing_insert (h : records.WellFormed) {p : Record → Bool}
    (hnew : Keyed.get? r.id records = none) :
    passing p (Keyed.insert r.id r records) =
      if p r then Keyed.values (Keyed.insert r.id r (Keyed.select p records))
      else passing p records := by
  rw [passing, ← Keyed.values_select,
    Keyed.select_insert h.sorted (fun s hs => by rw [hnew] at hs; cases hs)]
  split
  · rfl
  · rw [passing, Keyed.values_select]

/-- A new record that does not satisfy the clause is not found. -/
theorem first?_insert_of_not_holds (h : records.WellFormed) (hnew : Keyed.get? r.id records = none)
    (hr : clause.holds r = false) :
    Collection.first? clause (Keyed.insert r.id r records) = records.first? clause := by
  rw [first?, passing_insert h hnew, hr]
  rfl

/-- A new record is found if it is the only one to satisfy the clause. -/
theorem first?_insert_of_none (h : records.WellFormed) (hnew : Keyed.get? r.id records = none)
    (hnone : records.first? clause = none) (hr : clause.holds r = true) :
    Collection.first? clause (Keyed.insert r.id r records) = some r := by
  have empty : Keyed.select (fun r => clause.holds r) records = [] := by
    refine List.filter_eq_nil_iff.2 fun entry hentry => ?_
    have stored := h.mem_values_iff.1 (List.mem_map_of_mem hentry)
    exact Bool.not_eq_true _ ▸ (first?_eq_none_iff h).1 hnone _ stored
  rw [first?, passing_insert h hnew, if_pos hr, empty, Keyed.insert, Keyed.values, List.map_singleton,
    List.mergeSort_singleton, List.head?_singleton]

/-- The default order looks at the time of creation and the id only. -/
theorem precedesByDefault_congr {r' s' : Record} (hr : r'.id = r.id)
    (hrcreated : r'.createdAt = r.createdAt) (hs : s'.id = s.id)
    (hscreated : s'.createdAt = s.createdAt) :
    precedesByDefault r' s' = precedesByDefault r s := by
  have order : SortKey.documentOrder (SortKey.complete []) =
      [(Column.createdAt.key, .desc), (Column.id.key, .asc)] := rfl
  have created : ∀ r : Record,
      r.toValue.lookup? Column.createdAt.key = some (r.attribute .createdAt) := fun _ => rfl
  have id : ∀ r : Record, r.toValue.lookup? Column.id.key = some (r.attribute .id) := fun _ => rfl
  simp only [precedesByDefault, precedes, order, Document.compareBy, created, id,
    Record.attribute, hr, hrcreated, hs, hscreated]

/-- To insert a record under an id that is there rewrites one record. -/
theorem insert_eq_mapValues (h : records.WellFormed) (hr : records.Stores r) (hid : s.id = r.id) :
    Keyed.insert s.id s records =
      Keyed.mapValues (fun t => if t.id = s.id then s else t) records := by
  have sorted : Keyed.Sorted (Keyed.mapValues (fun t => if t.id = s.id then s else t) records) := by
    rw [Keyed.Sorted, Keyed.keys_mapValues]
    exact h.sorted
  refine (h.sorted.insert s.id s).ext sorted fun k => ?_
  rw [Keyed.get?_insert, Keyed.get?_mapValues]
  split
  · next hk =>
    have found : Keyed.get? k records = some r := by rw [hk, hid]; exact hr
    rw [found, Option.map_some, if_pos hid.symm]
  · next hk =>
    cases ht : Keyed.get? k records with
    | none => rfl
    | some t => rw [Option.map_some, if_neg (h.id_of_get? ht ▸ hk)]

/-- A record that is rewritten in place is found where it was found before. -/
theorem first?_insert_of_stores (h : records.WellFormed) (hr : records.Stores r)
    (hid : s.id = r.id) (hcreated : s.createdAt = r.createdAt)
    (hholds : clause.holds s = clause.holds r) :
    Collection.first? clause (Keyed.insert s.id s records) =
      (records.first? clause).map fun t => if t.id = s.id then s else t := by
  have same : ∀ t, records.Stores t → t.id = s.id → t = r := by
    intro t ht hts
    rw [Stores, hts, hid, hr] at ht
    exact (Option.some.inj ht).symm
  have values : passing (fun t => clause.holds t) (Keyed.insert s.id s records) =
      (passing (fun t => clause.holds t) records).map fun t => if t.id = s.id then s else t := by
    rw [insert_eq_mapValues h hr hid, passing, ← Keyed.values_select, Keyed.select_mapValues,
      passing, ← Keyed.values_select]
    · rw [Keyed.values, Keyed.values, Keyed.mapValues, List.map_map, List.map_map]
      rfl
    · intro t ht
      split
      · next hts => rw [same t (h.mem_values_iff.1 ht) hts, hholds]
      · rfl
  have place : ∀ t ∈ passing (fun t => clause.holds t) records,
      (if t.id = s.id then s else t).id = t.id ∧
        (if t.id = s.id then s else t).createdAt = t.createdAt := by
    intro t ht
    split
    · next hts =>
      obtain rfl := same t (h.mem_values_iff.1 (List.mem_filter.1 ht).1) hts
      exact ⟨hid, hcreated⟩
    · exact ⟨rfl, rfl⟩
  rw [first?, values, ← List.map_mergeSort, List.head?_map, first?]
  intro a ha b hb
  exact (precedesByDefault_congr (place a ha).1 (place a ha).2 (place b hb).1 (place b hb).2).symm

/-! ## Insertion -/

section

variable {batch : List Record}

theorem exists_insert (h : ∀ r ∈ batch, Keyed.get? r.id records = none)
    (hids : (batch.map Record.id).Nodup) : ∃ new, insert records batch = .ok new := by
  induction batch generalizing records with
  | nil => exact ⟨records, rfl⟩
  | cons first rest ih =>
    rw [List.map_cons, List.nodup_cons] at hids
    rw [insert, if_neg (by rw [Keyed.contains, h first List.mem_cons_self]; exact Bool.false_ne_true)]
    refine ih (fun r hr => ?_) hids.2
    have differs : r.id ≠ first.id := fun heq => hids.1 (heq ▸ List.mem_map_of_mem hr)
    rw [Keyed.get?_insert_of_ne differs]
    exact h r (List.mem_cons_of_mem _ hr)

/-- Insertion adds the new records and nothing else. -/
theorem perm_of_insert (h : insert records batch = .ok new) :
    new.Perm (records ++ batch.map fun r => (r.id, r)) := by
  induction batch generalizing records with
  | nil =>
    cases h
    rw [List.map_nil, List.append_nil]
  | cons first rest ih =>
    rw [insert] at h
    split at h
    · cases h
    · next habsent =>
      rw [Keyed.contains, Option.not_isSome_iff_eq_none] at habsent
      calc new
        _ |>.Perm (Keyed.insert first.id first records ++ rest.map fun r => (r.id, r)) := ih h
        _ |>.Perm (((first.id, first) :: records) ++ rest.map fun r => (r.id, r)) :=
          (Keyed.perm_insert habsent first).append_right _
        _ |>.Perm (records ++ (first.id, first) :: rest.map fun r => (r.id, r)) :=
          List.perm_middle.symm

theorem keys_perm_of_insert (h : insert records batch = .ok new) :
    (Keyed.keys new).Perm (Keyed.keys records ++ batch.map Record.id) := by
  have perm := (perm_of_insert h).map Prod.fst
  rwa [List.map_append, List.map_map] at perm

theorem values_perm_of_insert (h : insert records batch = .ok new) :
    (Keyed.values new).Perm (Keyed.values records ++ batch) := by
  have perm := (perm_of_insert h).map Prod.snd
  have same : (batch.map fun r => (r.id, r)).map Prod.snd = batch :=
    (List.map_map ..).trans (List.map_id batch)
  rwa [List.map_append, same] at perm

theorem get?_insert_of_not_mem (h : insert records batch = .ok new) {k : String}
    (hk : ∀ r ∈ batch, r.id ≠ k) : Keyed.get? k new = Keyed.get? k records := by
  induction batch generalizing records with
  | nil => cases h; rfl
  | cons first rest ih =>
    rw [insert] at h
    split at h
    · cases h
    · rw [ih h fun r hr => hk r (List.mem_cons_of_mem _ hr),
        Keyed.get?_insert_of_ne (hk first List.mem_cons_self).symm]

theorem stores_of_insert (h : insert records batch = .ok new) : ∀ r ∈ batch, new.Stores r := by
  induction batch generalizing records with
  | nil => exact fun _ hr => absurd hr List.not_mem_nil
  | cons first rest ih =>
    rw [insert] at h
    split at h
    · cases h
    · intro r hr
      rcases List.mem_cons.1 hr with rfl | hr
      · exact get?_of_insert h (Keyed.get?_insert_self _ _ _)
      · exact ih h r hr

end

/-! ## Replacement -/

section

variable {replacements : List Record}

/-- The number of replaced records does not matter to the others. -/
theorem snd_replace_cons (first : Record) (rest : List Record) (records : Collection) :
    (replace (first :: rest) records).2 =
      (replace rest (if Keyed.contains first.id records then Keyed.insert first.id first records
        else records)).2 := by
  have count : ∀ n m records, (rest.foldl replaceOne (n, records)).2 =
      (rest.foldl replaceOne (m, records)).2 := by
    induction rest with
    | nil => exact fun _ _ _ => rfl
    | cons r rest ih =>
      intro n m records
      rw [List.foldl_cons, List.foldl_cons, replaceOne, replaceOne]
      split
      · exact ih _ _ _
      · exact ih _ _ _
  rw [replace, List.foldl_cons, replaceOne, replace]
  split
  · exact count _ _ _
  · rfl

theorem get?_replace_of_not_mem {k : String} (hk : ∀ r ∈ replacements, r.id ≠ k) :
    Keyed.get? k (replace replacements records).2 = Keyed.get? k records :=
  replace_induction (P := fun current => Keyed.get? k current = Keyed.get? k records) rfl
    fun _ r hr _ hcurrent => (Keyed.get?_insert_of_ne (hk r hr).symm _ _).trans hcurrent

/-- Different records that replace stored ones are stored. -/
theorem stores_of_replace (hids : (replacements.map Record.id).Nodup)
    (h : ∀ r ∈ replacements, Keyed.contains r.id records = true) :
    ∀ r ∈ replacements, Collection.Stores (replace replacements records).2 r := by
  induction replacements generalizing records with
  | nil => exact fun _ hr => absurd hr List.not_mem_nil
  | cons first rest ih =>
    rw [List.map_cons, List.nodup_cons] at hids
    have differs : ∀ r ∈ rest, r.id ≠ first.id :=
      fun r hr heq => hids.1 (heq ▸ List.mem_map_of_mem hr)
    rw [snd_replace_cons, if_pos (h first List.mem_cons_self)]
    intro r hr
    rcases List.mem_cons.1 hr with rfl | hr
    · rw [Stores, get?_replace_of_not_mem differs, Keyed.get?_insert_self]
    · refine ih hids.2 (fun s hs => ?_) r hr
      rw [Keyed.contains, Keyed.get?_insert_of_ne (differs s hs)]
      exact h s (List.mem_cons_of_mem _ hs)

end

end Collection

theorem Store.result_first? (store : Store collectionBackend) (clause : Clause)
    (w : World collectionBackend) :
    (store.first? clause).result w = (.ok (w.records.first? clause), w) := by
  have found := store.result_find w clause (SortKey.complete []) (some (.first 1))
  rw [Collection.find, Collection.select_document, ok_bind] at found
  have head : ∀ items : List Record, (Slice.of (.first 1) items).head? = items.head? := by
    intro items
    rw [Slice.of, Slice.first, List.drop_zero, List.head?_take]
    rfl
  rw [first?, Effect.result_bind_ok found]
  exact congrArg (fun r => (Except.ok r, w)) (head _)

end RecordStore
