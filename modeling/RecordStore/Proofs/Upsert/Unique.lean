import RecordStore.Proofs.Upsert.Sequence

/-!
# Unique keys

An upsert whose conflict keys are read as strings does not make two live records with the same key
out of records that differ in their keys (`Store.keysUnique_upsert`). A draft is inserted only where no
record has its key, and a record that a draft is merged into keeps its key.
-/

namespace RecordStore

open Collection

/-- No two records have the same key. -/
def Collection.KeysUnique (keys : List Path) (records : Collection) : Prop :=
  ∀ r s, records.Stores r → records.Stores s → ∀ key, r.upsertKey? keys = some key →
    s.upsertKey? keys = some key → r = s

variable {keys : List Path} {records : Collection} {r : Record}

namespace Collection

theorem keysUnique_nil : KeysUnique keys [] := fun _ _ hr => absurd hr nofun

/-- A record that takes its place has a key that no other record has. -/
theorem KeysUnique.insertOne (h : records.KeysUnique keys)
    (hr : ∀ s, records.Stores s → s.id ≠ r.id → ∀ key, r.upsertKey? keys = some key →
      s.upsertKey? keys ≠ some key) : KeysUnique keys (Keyed.insert r.id r records) := by
  have stored : ∀ s, Stores (Keyed.insert r.id r records) s →
      s = r ∨ records.Stores s ∧ s.id ≠ r.id := by
    intro s hs
    rw [Stores, Keyed.get?_insert] at hs
    split at hs
    · exact .inl (Option.some.inj hs).symm
    · next differs => exact .inr ⟨hs, differs⟩
  intro a b ha hb key hakey hbkey
  rcases stored a ha with rfl | ⟨hold, hne⟩ <;> rcases stored b hb with rfl | ⟨hold', hne'⟩
  · rfl
  · exact absurd hbkey (hr b hold' hne' key hakey)
  · exact absurd hakey (hr a hold hne key hbkey)
  · exact h a b hold hold' key hakey hbkey

end Collection

namespace UpsertRun

variable {options : UpsertOptions} {now : Instant} {run : UpsertRun} {draft : Draft}

theorem keysUnique_add (hw : run.records.WellFormed) (hkeys : ∀ path ∈ keys, path.IsKeys)
    (hplain : draft.IsPlain keys) (h : run.records.KeysUnique keys)
    (hnone : draft.conflict? keys run.records = none) :
    (run.add options now draft).records.KeysUnique keys := by
  refine h.insertOne fun s hs _ key hkey hskey => ?_
  rw [Record.upsertKey?_ofDraft hplain] at hkey
  rw [Draft.conflict?, hkey, Option.bind_some] at hnone
  exact upsertKey?_ne_of_first? hw hkeys (hplain.upsertKey hkey) hnone hs hskey

theorem keysUnique_meet (hkeys : ∀ path ∈ keys, path.IsKeys) (hplain : draft.IsPlain keys)
    (h : run.records.KeysUnique keys) {key : UpsertKey} (hdraft : draft.upsertKey? keys = some key)
    (hr : run.records.Stores r) (hkey : r.upsertKey? keys = some key) :
    (run.meet options now draft r).records.KeysUnique keys := by
  rw [meet]
  cases options.onConflict with
  | ignore => exact h
  | fail => exact h
  | combine way =>
    refine h.insertOne fun s hs differs key' hkey' hskey => ?_
    have kept := Record.upsertKey?_updated hkeys hplain hkey hdraft way now options.actor
    have same : s = r := h s r hs hr key' hskey (hkey.trans (kept.symm.trans hkey'))
    have hid : s.id = r.id := congrArg Record.id same
    exact differs hid

/-- A draft makes no second record with a key. -/
theorem keysUnique_next (hw : run.records.WellFormed) (hkeys : ∀ path ∈ keys, path.IsKeys)
    (hplain : draft.IsPlain keys) (h : run.records.KeysUnique keys) :
    (run.next options keys now draft).records.KeysUnique keys := by
  have counted : run.count.records.KeysUnique keys := h
  rw [next]
  cases hconflict : draft.conflict? keys run.records with
  | none => exact keysUnique_add hw hkeys hplain counted hconflict
  | some r =>
    obtain ⟨key, hdraft, hfound⟩ := Option.bind_eq_some_iff.1 hconflict
    obtain ⟨stored, hkey⟩ := stores_of_first?_key hw hkeys (hplain.upsertKey hdraft) hfound
    exact keysUnique_meet hkeys hplain counted hdraft stored hkey

theorem keysUnique_ofDrafts (hw : run.records.WellFormed) (hkeys : ∀ path ∈ keys, path.IsKeys)
    {drafts : List Draft} (hplain : ∀ draft ∈ drafts, draft.IsPlain keys)
    (h : run.records.KeysUnique keys) :
    (run.ofDrafts options keys now drafts).records.KeysUnique keys := by
  induction drafts generalizing run with
  | nil => exact h
  | cons draft rest ih =>
    exact ih (wellFormed_next hw) (fun d hd => hplain d (List.mem_cons_of_mem _ hd))
      (keysUnique_next hw hkeys (hplain draft List.mem_cons_self) h)

end UpsertRun

namespace Store

variable (store : Store collectionBackend) {w : World collectionBackend}

/-- An upsert of drafts with strings, nulls or nothing at its conflict keys succeeds, and if no two
live records of a partition have had the same strings there, no two have them afterwards. -/
theorem keysUnique_upsert (hw : w.records.WellFormed) (options : UpsertOptions)
    (hoptions : options.conflictKeys.mapM conflictKey = .ok keys)
    {size : Nat} (hsize : batchSize options.batchSize store.config.upsertBatch = .ok size)
    (hkeys : ∀ path ∈ keys, path.IsKeys) {drafts : List Draft}
    (hplain : ∀ draft ∈ drafts, draft.IsPlain keys)
    (hfresh : w.ids.Fresh drafts.length w.records) (hunique : w.records.KeysUnique keys) :
    ∃ result w', (store.upsert drafts options).result w = (.ok result, w') ∧
      w'.records.KeysUnique keys := by
  obtain ⟨result, reached, -⟩ :=
    store.result_upsert hw options hoptions hsize hkeys hplain hfresh
  exact ⟨result, _, reached, UpsertRun.keysUnique_ofDrafts hw hkeys hplain hunique⟩

/-- One draft has the key of a live record. Two others have the key of a deleted record, which does not
count, so that one of them is inserted. -/
theorem keysUnique_upsert_deleted :
    let draft (fields : Fields) : Draft := ⟨"app", "g", "t", .object fields, true, none⟩
    let drafts := [draft [("a", .int 1), ("k", .string "x")], draft [("k", .string "y")],
      draft [("b", .int 2), ("k", .string "y")]]
    let x := Record.ofDraft (draft [("k", .string "x")]) "r" 1 default
    let y := { Record.ofDraft (draft [("k", .string "y")]) "s" 1 default with deletedAt := some 1 }
    let keys : List Path := [⟨[.key "k"]⟩]
    let options : UpsertOptions := ⟨["k"], .combine .merge, some 2, default⟩
    let w : World collectionBackend := ⟨⟨[("r", x), ("s", y)], []⟩, 2, ⟨[], "t", 1⟩, none⟩
    let store : Store collectionBackend := ⟨(), .default⟩
    w.records.WellFormed ∧ options.conflictKeys.mapM conflictKey = .ok keys ∧
      batchSize options.batchSize store.config.upsertBatch = .ok 2 ∧
      (∀ path ∈ keys, path.IsKeys) ∧ (∀ draft ∈ drafts, draft.IsPlain keys) ∧
      w.ids.Fresh drafts.length w.records ∧ w.records.KeysUnique keys ∧
      ∃ result w', (store.upsert drafts options).result w = (.ok result, w') ∧
        w'.records.KeysUnique keys := by
  intro draft drafts x y keys options w store
  have one : WellFormed [("r", x)] ∧ KeysUnique keys [("r", x)] :=
    ⟨wellFormed_nil.insertOne x, keysUnique_nil.insertOne (r := x) fun _ hs => absurd hs nofun⟩
  have two : Keyed.insert y.id y [("r", x)] = w.records := by decide +kernel
  have wellFormed : w.records.WellFormed := two ▸ one.1.insertOne y
  have parsed : options.conflictKeys.mapM conflictKey = .ok keys := by rfl
  have size : batchSize options.batchSize store.config.upsertBatch = .ok 2 := by rfl
  have areKeys : ∀ path ∈ keys, path.IsKeys := by decide
  have plain : ∀ draft ∈ drafts, draft.IsPlain keys := by decide +kernel
  have fresh : w.ids.Fresh drafts.length w.records := ⟨by decide +kernel, by decide +kernel⟩
  have none_y : y.upsertKey? keys = none := by decide +kernel
  have unique : w.records.KeysUnique keys :=
    two ▸ one.2.insertOne fun _ _ _ _ hy => absurd (none_y.symm.trans hy) nofun
  exact ⟨wellFormed, parsed, size, areKeys, plain, fresh, unique,
    keysUnique_upsert store wellFormed options parsed size areKeys plain fresh unique⟩

end Store

end RecordStore
