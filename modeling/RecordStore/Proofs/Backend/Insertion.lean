import RecordStore.Proofs.Backend.Collection
import RecordStore.Proofs.Backend.Connection

/-!
# Insertions

New records can be inserted if their ids are fresh (`Fresh`). If they are not, a collection and a
database on which no transaction is open stay as they are. In an open transaction what stands before
the first clash stays, until the transaction is taken back (`insert_all_or_beginning`).
-/

namespace RecordStore

variable {batch kept rest : List Record} {r : Record}

/-! ## Fresh ids -/

/-- The ids of some records are not taken, and no two records have one id. -/
def Fresh (taken : String → Prop) (batch : List Record) : Prop :=
  (∀ r ∈ batch, ¬ taken r.id) ∧ (batch.map Record.id).Nodup

namespace Fresh

variable {taken : String → Prop}

theorem nil : Fresh taken [] := ⟨by simp, List.nodup_nil⟩

theorem cons_iff : Fresh taken (r :: rest) ↔
    ¬ taken r.id ∧ Fresh (fun id => taken id ∨ id = r.id) rest := by
  simp only [Fresh, List.forall_mem_cons, List.map_cons, List.nodup_cons, List.mem_map]
  constructor
  · rintro ⟨⟨hr, hrest⟩, hnot, hnodup⟩
    exact ⟨hr, fun s hs h => h.elim (hrest s hs) fun same => hnot ⟨s, hs, same⟩, hnodup⟩
  · rintro ⟨hr, hrest, hnodup⟩
    exact ⟨⟨hr, fun s hs h => hrest s hs (.inl h)⟩, fun ⟨s, hs, same⟩ => hrest s hs (.inr same), hnodup⟩

/-- Records whose ids are not fresh have a first one that clashes. -/
theorem exists_first_clash (h : ¬ Fresh taken batch) :
    ∃ kept r rest, batch = kept ++ r :: rest ∧ Fresh taken kept ∧
      (taken r.id ∨ r.id ∈ kept.map Record.id) := by
  induction batch generalizing taken with
  | nil => exact absurd nil h
  | cons first others ih =>
    by_cases hfirst : taken first.id
    · exact ⟨[], first, others, rfl, nil, .inl hfirst⟩
    · rw [cons_iff, not_and] at h
      obtain ⟨kept, r, rest, rfl, hkept, hr⟩ := ih (h hfirst)
      refine ⟨first :: kept, r, rest, rfl, cons_iff.2 ⟨hfirst, hkept⟩, ?_⟩
      rwa [List.map_cons, List.mem_cons, ← or_assoc]

end Fresh

/-! ## Collections -/

namespace Collection

variable {records : Collection}

/-- Whether a record is stored under an id. -/
abbrev Has (records : Collection) (id : String) : Prop := Keyed.contains id records = true

theorem has_insert (r : Record) : Has (Keyed.insert r.id r records) = fun id =>
    records.Has id ∨ id = r.id := by
  funext id
  simp only [Has, Keyed.contains, Keyed.get?_insert, eq_iff_iff]
  split <;> simp [*]

theorem insert_fresh (h : Fresh records.Has batch) :
    records.insert batch = .ok (batch.foldl (fun stored r => Keyed.insert r.id r stored) records) := by
  induction batch generalizing records with
  | nil => rfl
  | cons r rest ih =>
    rw [Fresh.cons_iff] at h
    rw [insert, if_neg h.1, ih (has_insert r ▸ h.2), List.foldl_cons]

theorem insert_clash (rest : List Record) (hkept : Fresh records.Has kept)
    (hr : records.Has r.id ∨ r.id ∈ kept.map Record.id) :
    records.insert (kept ++ r :: rest) = .error (.conflict (.duplicateId r.id)) := by
  induction kept generalizing records with
  | nil => exact if_pos (hr.resolve_right List.not_mem_nil)
  | cons first others ih =>
    rw [Fresh.cons_iff] at hkept
    rw [List.cons_append, insert, if_neg hkept.1]
    rw [List.map_cons, List.mem_cons, ← or_assoc] at hr
    exact ih (has_insert first ▸ hkept.2) (has_insert first ▸ hr)

end Collection

/-! ## Rows -/

namespace Rows

variable {rows : Rows} (table : String)

/-- Whether a row has an id. -/
abbrev Has (rows : Rows) (id : String) : Prop := ∃ row ∈ rows, row.id = id

theorem has_append (r : Record) : Has (rows ++ [r]) = fun id => rows.Has id ∨ id = r.id := by
  funext id
  simp [Has, or_and_right, exists_or, eq_comm]

theorem result_insertOne_new (h : ¬ rows.Has r.id) :
    (insertOne table r).result rows = (.ok (), rows ++ [r]) := by
  have unique : ¬ (rows.any fun row => row.id == r.id) = true := by
    simpa [List.any_eq_true] using h
  simp [insertOne, Effect.result, Effect.ofFunction, ExceptT.mk, unique]

theorem result_insertOne_clash (h : rows.Has r.id) :
    (insertOne table r).result rows =
      (.error (.conflict (.uniqueColumn table Column.id.sqlName)), rows) := by
  have clash : (rows.any fun row => row.id == r.id) = true := by
    simpa [List.any_eq_true] using h
  simp [insertOne, Effect.result, Effect.ofFunction, ExceptT.mk, clash]

theorem result_insert_fresh (h : Fresh rows.Has batch) :
    (insert table batch).result rows = (.ok (), rows ++ batch) := by
  induction batch generalizing rows with
  | nil => rw [List.append_nil]; rfl
  | cons r rest ih =>
    rw [Fresh.cons_iff] at h
    rw [insert, Effect.result_bind_ok (result_insertOne_new table h.1), ih (has_append r ▸ h.2),
      List.append_assoc, List.singleton_append]

/-- The rows before the first clash are inserted. -/
theorem result_insert_clash (rest : List Record) (hkept : Fresh rows.Has kept)
    (hr : rows.Has r.id ∨ r.id ∈ kept.map Record.id) :
    (insert table (kept ++ r :: rest)).result rows =
      (.error (.conflict (.uniqueColumn table Column.id.sqlName)), rows ++ kept) := by
  induction kept generalizing rows with
  | nil =>
    have clash := result_insertOne_clash table (hr.resolve_right List.not_mem_nil)
    rw [List.nil_append, insert, Effect.result_bind, clash, List.append_nil]
  | cons first others ih =>
    rw [Fresh.cons_iff] at hkept
    rw [List.cons_append, insert, Effect.result_bind_ok (result_insertOne_new table hkept.1)]
    rw [List.map_cons, List.mem_cons, ← or_assoc] at hr
    rw [ih (has_append first ▸ hkept.2) (has_append first ▸ hr), List.append_assoc,
      List.singleton_append]

theorem isConflict_of_insert {table : String} {e : StoreError}
    (h : ((insert table batch).result rows).1 = .error e) : e.isConflict = true := by
  by_cases hfresh : Fresh rows.Has batch
  · rw [result_insert_fresh table hfresh] at h
    cases h
  · obtain ⟨kept, r, rest, rfl, hkept, hr⟩ := Fresh.exists_first_clash hfresh
    rw [result_insert_clash table rest hkept hr] at h
    cases h
    rfl

end Rows

end RecordStore
