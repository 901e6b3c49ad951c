import RecordStore.Proofs.Payload.Again
import RecordStore.Proofs.Upsert.Key

/-!
# Upserting a draft again

A record that a draft has become, or into which it has been merged, is found again under the key of the
draft, if no index of a conflict key stands for a field of an object in the draft
(`Store.upsert_again`). If one does, then the record that the draft becomes is not found
(`UpsertKey.holds_clause_ofDraft`), and another one is made (`Store.upsert_again_duplicates`).
-/

namespace RecordStore

open Collection

variable {keys : List Path} {key : UpsertKey} {draft : Draft} {values : List Value} {r : Record}

/-! ## Values at conflict keys -/

theorem Path.splitAtWildcard?_of_follow? {segments : List Segment} {v w : Value}
    (h : follow? segments v = some w) : splitAtWildcard? segments = none := by
  induction segments generalizing v with
  | nil => rfl
  | cons segment rest ih =>
    obtain ⟨x, hx, hrest⟩ := Option.bind_eq_some_iff.1 h
    cases segment with
    | wildcard => cases hx
    | _ => exact congrArg (Option.map _) (ih hrest)

/-- A path without wildcards asks for one value. -/
theorem Clause.holds_payload_eq {path : Path} (h : Path.splitAtWildcard? path.segments = none)
    (v : Value) :
    (Clause.payload path (.eq v)).holds r =
      (Path.read Document.enter path.segments r.payload).equal v := by
  rw [holds_payload r path (by simp), Path.holds_of_splitAtWildcard?_none h]
  exact Bool.false_bne _

/-- A draft has values at all conflict keys, and none of them is null. -/
theorem Draft.values_of_keyValues? (h : draft.keyValues? keys = some values) :
    values.length = keys.length ∧ ∀ entry ∈ keys.zip values,
      entry.1.get? draft.payload = some entry.2 ∧ entry.2 ≠ .null := by
  rw [keyValues?] at h
  split at h
  · cases h
  · next hne =>
    clear hne
    induction keys generalizing values with
    | nil =>
      cases h
      exact ⟨rfl, by simp⟩
    | cons path keys ih =>
      rw [List.mapM_cons] at h
      obtain ⟨v, hv, h⟩ := Option.bind_eq_some_iff.1 h
      obtain ⟨rest, hrest, heq⟩ := Option.bind_eq_some_iff.1 h
      cases heq
      have present : path.get? draft.payload = some v ∧ v ≠ .null := by
        split at hv
        · cases hv
        · next hnull => exact ⟨hv, fun heq => hnull (heq ▸ hv)⟩
      obtain ⟨hlength, hall⟩ := ih hrest
      exact ⟨congrArg Nat.succ hlength, List.forall_mem_cons.2 ⟨present, hall⟩⟩

/-! ## Looking a key up -/

/-- The conditions under which a key of a draft selects a record. -/
theorem UpsertKey.holds_clause_of_keyValues? (h : draft.keyValues? keys = some values) :
    (UpsertKey.clause ⟨draft.partition, values⟩ keys).holds r = true ↔
      (Partition.ofRecord r = draft.partition ∧ r.isDeleted = false) ∧
        ∀ entry ∈ keys.zip values,
          (Path.read Document.enter entry.1.segments r.payload).equal entry.2 = true := by
  rw [holds_clause, Bool.and_eq_true, Partition.holds_clause_iff, List.all_eq_true]
  refine and_congr_right fun _ => forall₂_congr fun entry hentry => ?_
  have found := ((Draft.values_of_keyValues? h).2 entry hentry).1
  rw [Clause.holds_payload_eq (Path.splitAtWildcard?_of_follow? found)]

/-- The record that a draft becomes is found under the key of the draft exactly if no index of a
conflict key stands for a field of an object in the draft. -/
theorem UpsertKey.holds_clause_ofDraft (h : draft.keyValues? keys = some values)
    (harrays : draft.payload.ArraysWithin (2 ^ 63)) (id : String) (now : Instant) (actor : Actor) :
    (UpsertKey.clause ⟨draft.partition, values⟩ keys).holds (.ofDraft draft id now actor) = true ↔
      ∀ path ∈ keys, Path.indexesArrays path.segments draft.payload = true := by
  obtain ⟨hlength, hvalues⟩ := Draft.values_of_keyValues? h
  have entries : (∀ path ∈ keys, Path.indexesArrays path.segments draft.payload = true) ↔
      ∀ entry ∈ keys.zip values, Path.indexesArrays entry.1.segments draft.payload = true := by
    have firsts : (keys.zip values).map Prod.fst = keys := List.map_fst_zip (Nat.le_of_eq hlength.symm)
    refine ⟨fun h entry hentry => h _ (List.of_mem_zip hentry).1, fun h path hpath => ?_⟩
    rw [← firsts] at hpath
    obtain ⟨entry, hentry, rfl⟩ := List.mem_map.1 hpath
    exact h entry hentry
  rw [holds_clause_of_keyValues? h, entries]
  refine (and_iff_right ⟨rfl, rfl⟩).trans (forall₂_congr fun entry hentry => ?_)
  exact Path.equal_read_iff (hvalues entry hentry).2 harrays (hvalues entry hentry).1

/-- A record that has been found under the key of a draft is found again after the draft has been
merged into it. -/
theorem UpsertKey.holds_clause_updated (h : draft.keyValues? keys = some values)
    (harrays : draft.payload.ArraysWithin (2 ^ 63)) (hcanonical : draft.payload.Canonical)
    (hindexes : ∀ path ∈ keys, Path.indexesArrays path.segments draft.payload = true)
    (now : Instant) (actor : Actor)
    (hr : (UpsertKey.clause ⟨draft.partition, values⟩ keys).holds r = true) :
    (UpsertKey.clause ⟨draft.partition, values⟩ keys).holds
      (Store.updated draft.payload .merge now actor r) = true := by
  obtain ⟨hlength, hvalues⟩ := Draft.values_of_keyValues? h
  rw [holds_clause_of_keyValues? h] at hr ⊢
  refine ⟨hr.1, fun entry hentry => ?_⟩
  obtain ⟨hfound, hne⟩ := hvalues entry hentry
  exact Path.equal_read_mergeWith hne harrays hcanonical
    (hindexes entry.1 (List.of_mem_zip hentry).1) hfound (hr.2 entry hentry)

/-! ## Upserts of one draft -/

namespace UpsertBatch

variable (records : Collection) (options : UpsertOptions) (now : Instant) (ids : IdSource)

/-- A batch of one draft under whose key nothing is found. -/
theorem ofDrafts_singleton_new (h : draft.keyValues? keys = some values)
    (hfound : records.first? (UpsertKey.clause ⟨draft.partition, values⟩ keys) = none) :
    let final := (ofDrafts records options keys now .empty ids [draft]).1
    final.newRecords = [.ofDraft draft ids.take.1 now options.actor] ∧
      final.changedRecords = [] := by
  simp [ofDrafts, next, Draft.upsertKey?, h, target?, count, hfound, add, push, newRecords,
    changedRecords]

/-- A batch of one draft under whose key a record is found. -/
theorem ofDrafts_singleton_found (h : draft.keyValues? keys = some values)
    (hmerge : options.onConflict = .combine .merge)
    (hfound : records.first? (UpsertKey.clause ⟨draft.partition, values⟩ keys) = some r) :
    let final := (ofDrafts records options keys now .empty ids [draft]).1
    let updated := Store.updated draft.payload .merge now options.actor r
    (final.newRecords = [] ∧ final.changedRecords = [updated]) ∧
      final.finish.newRecords = [] ∧ final.finish.updatedRecords = [updated] := by
  simp [ofDrafts, next, finish, UpsertResult.empty, Draft.upsertKey?, h, target?, count, hfound,
    meet, hmerge, push, setTarget, UpsertTarget.found, UpsertTarget.combine, newRecords,
    changedRecords, Store.updated]

end UpsertBatch

namespace Store

variable (store : Store collectionBackend) {w w' : World collectionBackend}
  {options : UpsertOptions} {first : UpsertResult}

theorem result_upsert_singleton (hoptions : options.conflictKeys.mapM conflictKey = .ok keys)
    {size : Nat} (hsize : batchSize options.batchSize store.config.upsertBatch = .ok size)
    (draft : Draft) (w : World collectionBackend) :
    (store.upsert [draft] options).result w =
      (store.upsertBatch options keys .empty [draft]).result w := by
  have one : pieces size [draft] = [[draft]] := by simp [pieces]
  rw [upsert, hoptions, hsize]
  refine (Effect.result_bind_ok (Effect.result_ofExcept (.ok keys) w)).trans ?_
  refine (Effect.result_bind_ok (Effect.result_ofExcept (.ok size) w)).trans ?_
  rw [one, List.foldlM_cons, Effect.result_bind]
  simp only [List.foldlM_nil, Effect.result_pure]
  rcases (store.upsertBatch options keys .empty [draft]).result w with ⟨_ | _, _⟩ <;> rfl

/-- A draft whose batch has been written is found under its key. -/
theorem exists_stored_of_upsertBatch (hw : w.records.WellFormed)
    (hmerge : options.onConflict = .combine .merge) (h : draft.keyValues? keys = some values)
    (harrays : draft.payload.ArraysWithin (2 ^ 63)) (hcanonical : draft.payload.Canonical)
    (hindexes : ∀ path ∈ keys, Path.indexesArrays path.segments draft.payload = true)
    (hfirst : (store.upsertBatch options keys .empty [draft]).result w = (.ok first, w')) :
    w'.records.WellFormed ∧ ∃ r, w'.records.Stores r ∧
      (UpsertKey.clause ⟨draft.partition, values⟩ keys).holds r = true := by
  obtain ⟨records, hinsert, -, rfl⟩ := store.of_upsertBatch_ok hfirst
  rw [World.records_withRecords]
  cases hfound : w.records.first? (UpsertKey.clause ⟨draft.partition, values⟩ keys) with
  | none =>
    obtain ⟨hnew, hchanged⟩ := UpsertBatch.ofDrafts_singleton_new w.records options w.clock w.ids h
      hfound
    rw [hnew] at hinsert
    rw [hchanged]
    exact ⟨hw.insert hinsert, _, stores_of_insert hinsert _ List.mem_cons_self,
      (UpsertKey.holds_clause_ofDraft h harrays _ _ _).2 hindexes⟩
  | some r =>
    obtain ⟨⟨hnew, hchanged⟩, -⟩ := UpsertBatch.ofDrafts_singleton_found w.records options w.clock
      w.ids h hmerge hfound
    obtain ⟨stored, holds⟩ := stores_of_first? hw hfound
    rw [hnew] at hinsert
    cases hinsert
    rw [hchanged]
    refine ⟨hw.replace _, _, stores_of_replace (by simp) ?_ _ List.mem_cons_self,
      UpsertKey.holds_clause_updated h harrays hcanonical hindexes _ _ holds⟩
    intro s hs
    rw [List.mem_singleton.1 hs]
    exact Option.isSome_iff_exists.2 ⟨r, stored⟩

/-- After an upsert that merges one draft, another one of the same draft changes one record and makes
none, if no index of a conflict key stands for a field of an object in the draft. -/
theorem upsert_again (hw : w.records.WellFormed) (hmerge : options.onConflict = .combine .merge)
    (hoptions : options.conflictKeys.mapM conflictKey = .ok keys)
    (h : draft.keyValues? keys = some values) (hcanonical : draft.payload.Canonical)
    (harrays : draft.payload.ArraysWithin (2 ^ 63))
    (hindexes : ∀ path ∈ keys, Path.indexesArrays path.segments draft.payload = true)
    (hfirst : (store.upsert [draft] options).result w = (.ok first, w'))
    {v : World collectionBackend} (hv : v.records = w'.records) :
    ∃ second v' r, (store.upsert [draft] options).result v = (.ok second, v') ∧
      second.newRecords = [] ∧ second.updatedRecords = [r] := by
  cases hsize : batchSize options.batchSize store.config.upsertBatch with
  | error e =>
    rw [upsert, hoptions, hsize] at hfirst
    cases hfirst
  | ok size =>
    rw [store.result_upsert_singleton hoptions hsize] at hfirst
    obtain ⟨hw', r, hr, holds⟩ :=
      store.exists_stored_of_upsertBatch hw hmerge h harrays hcanonical hindexes hfirst
    cases hfound : v.records.first? (UpsertKey.clause ⟨draft.partition, values⟩ keys) with
    | none =>
      rw [hv, first?_eq_none_iff hw'] at hfound
      exact absurd holds (by rw [hfound r hr]; exact Bool.false_ne_true)
    | some s =>
      obtain ⟨⟨hnew, hchanged⟩, hreported, hupdated⟩ :=
        UpsertBatch.ofDrafts_singleton_found v.records options v.clock v.ids h hmerge hfound
      have written := store.result_upsertBatch options keys v .empty [draft]
      dsimp only at written
      rw [hnew] at written
      exact ⟨_, _, _, (store.result_upsert_singleton hoptions hsize draft v).trans written, hreported,
        hupdated⟩

/-- The index of the conflict key leads into an array. -/
theorem upsert_again_array :
    let draft : Draft := ⟨"app", "g", "t", .object [("a", .array [.string "x"])], true, none⟩
    let keys : List Path := [⟨[.key "a", .index 0]⟩]
    let options : UpsertOptions := ⟨["a.0"], .combine .merge, none, default⟩
    let w : World collectionBackend := ⟨.empty, 1, default, none⟩
    let store : Store collectionBackend := ⟨(), .default⟩
    options.conflictKeys.mapM conflictKey = .ok keys ∧
      draft.keyValues? keys = some [.string "x"] ∧
      (∀ path ∈ keys, Path.indexesArrays path.segments draft.payload = true) ∧
      ∃ first w' second v r, (store.upsert [draft] options).result w = (.ok first, w') ∧
        (store.upsert [draft] options).result w' = (.ok second, v) ∧
        second.newRecords = [] ∧ second.updatedRecords = [r] := by
  intro draft keys options w store
  have parsed : options.conflictKeys.mapM conflictKey = .ok keys := by rfl
  have found : draft.keyValues? keys = some [.string "x"] := by decide +kernel
  have indexes : ∀ path ∈ keys, Path.indexesArrays path.segments draft.payload = true := by
    decide +kernel
  have canonical : draft.payload.Canonical := by
    simp [draft, Value.Canonical, Value.CanonicalItems, Value.CanonicalFields, Keyed.Sorted,
      Keyed.keys]
  have arrays : draft.payload.ArraysWithin (2 ^ 63) := by
    simp [draft, Value.ArraysWithin, Value.Every, Value.EveryItem, Value.EveryField]
  have wellFormed : w.records.WellFormed := wellFormed_nil
  have succeeds : ((store.upsert [draft] options).result w).1.toOption.isSome := by decide +kernel
  refine ⟨parsed, found, indexes, ?_⟩
  cases hrun : (store.upsert [draft] options).result w with
  | mk outcome w' =>
    cases outcome with
    | error e => rw [hrun] at succeeds; cases succeeds
    | ok first =>
      obtain ⟨second, v, r, hsecond, hnew, hupdated⟩ := Store.upsert_again store wellFormed rfl
        parsed found canonical arrays indexes hrun rfl
      exact ⟨first, w', second, v, r, rfl, hsecond, hnew, hupdated⟩

/-- The index of the conflict key stands for a field of an object: the second upsert makes another
record. -/
theorem upsert_again_duplicates :
    let draft : Draft :=
      ⟨"app", "g", "t", .object [("a", .object [("0", .string "x")])], true, none⟩
    let keys : List Path := [⟨[.key "a", .index 0]⟩]
    let options : UpsertOptions := ⟨["a.0"], .combine .merge, none, default⟩
    let w : World collectionBackend := ⟨.empty, 1, ⟨[], "obj", 1⟩, none⟩
    let store : Store collectionBackend := ⟨(), .default⟩
    let first := (store.upsert [draft] options).result w
    let second := (store.upsert [draft] options).result first.2
    draft.keyValues? keys = some [.string "x"] ∧
      first.1.toOption.map (fun result => result.newRecords.map Record.id) = some ["obj-000001"] ∧
      second.1.toOption.map (fun result => result.newRecords.map Record.id) = some ["obj-000002"] ∧
      second.1.toOption.map UpsertResult.updatedRecords = some [] := by
  decide +kernel

end Store

end RecordStore
