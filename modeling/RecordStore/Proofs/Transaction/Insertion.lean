import RecordStore.Proofs.Transaction.Atomic

/-!
# Insertions through every handle

What an insertion does through each of the handles that a backend can have: to a collection, to a
database on which no transaction is open, and in a transaction (`insert_all_or_beginning`). A caller that
goes on after a clash in a transaction commits a part of the batch (`withTransaction_keeps_beginning`).
-/

namespace RecordStore

variable {batch kept rest : List Record} {r : Record}

/-! ## Collections -/

section

variable {memory : Memory}

theorem collectionBackend_insert_fresh (h : Fresh memory.records.Has batch) :
    (collectionBackend.insert () batch).result memory = (.ok (), { memory with
      records := batch.foldl (fun stored r => Keyed.insert r.id r stored) memory.records }) := by
  have inserted := Collection.insert_fresh h
  simp [collectionBackend, Memory.onRecords, Memory.recordsPart, Effect.on, Effect.ofFunction,
    Effect.result, ExceptT.mk, inserted]

theorem collectionBackend_insert_clash (h : ¬ Fresh memory.records.Has batch) :
    ∃ r ∈ batch, (collectionBackend.insert () batch).result memory =
      (.error (.conflict (.duplicateId r.id)), memory) := by
  obtain ⟨kept, r, rest, rfl, hkept, hr⟩ := Fresh.exists_first_clash h
  have clash := Collection.insert_clash rest hkept hr
  refine ⟨r, List.mem_append_right _ List.mem_cons_self, ?_⟩
  simp [collectionBackend, Memory.onRecords, Memory.recordsPart, Effect.on, Effect.ofFunction,
    Effect.result, ExceptT.mk, clash]

end

/-! ## Databases -/

section

variable {db : Database}

theorem tableBackend_insert_of_ne_nil (connection : Connection) (hbatch : batch ≠ []) :
    (tableBackend.insert connection batch).result db =
      (Database.access Database.rowsPart connection (Rows.insert db.recordsTable batch)).result db := by
  rw [← Database.write_of_ne_nil connection () _ hbatch]
  rfl

theorem tableBackend_insert_fresh (connection : Connection) (husable : db.refusal? connection = none)
    (h : Fresh db.rows.Has batch) :
    (tableBackend.insert connection batch).result db =
      (.ok (), { db with rows := db.rows ++ batch }) := by
  by_cases hbatch : batch = []
  · subst hbatch
    rw [List.append_nil]
    rfl
  rw [tableBackend_insert_of_ne_nil connection hbatch]
  have inserted := Rows.result_insert_fresh db.recordsTable h
  cases connection with
  | direct =>
    have done := Database.result_access_direct_ok Database.rowsPart _ husable
      (congrArg Prod.fst inserted)
    exact done.trans (congrArg (fun rows => (_, { db with rows := rows.2 })) inserted)
  | bound n =>
    have done := Database.result_access_bound Database.rowsPart
      (Rows.insert db.recordsTable batch) husable
    exact done.trans (congrArg (fun rows => (rows.1, { db with rows := rows.2 })) inserted)

theorem tableBackend_insert_clash (hidle : db.found = none) (h : ¬ Fresh db.rows.Has batch) :
    (tableBackend.insert .direct batch).result db =
      (.error (.conflict (.uniqueColumn db.recordsTable "id")), db) := by
  obtain ⟨kept, r, rest, rfl, hkept, hr⟩ := Fresh.exists_first_clash h
  have clash := Rows.result_insert_clash db.recordsTable rest hkept hr
  rw [tableBackend_insert_of_ne_nil .direct (by simp)]
  exact Database.result_access_direct_error Database.rowsPart _
    (Database.refusal?_direct hidle) (congrArg Prod.fst clash)

theorem tableBackend_insert_clash_within (hopen : db.found.isSome) (hkept : Fresh db.rows.Has kept)
    (hr : db.rows.Has r.id ∨ r.id ∈ kept.map Record.id) :
    (tableBackend.insert (.bound db.opened) (kept ++ r :: rest)).result db =
      (.error (.conflict (.uniqueColumn db.recordsTable "id")),
        { db with rows := db.rows ++ kept }) := by
  have clash := Rows.result_insert_clash db.recordsTable rest hkept hr
  have done := Database.result_access_bound Database.rowsPart
    (Rows.insert db.recordsTable (kept ++ r :: rest)) (Database.refusal?_bound hopen rfl)
  rw [tableBackend_insert_of_ne_nil (.bound db.opened) (by simp)]
  exact done.trans (congrArg (fun rows => (rows.1, { db with rows := rows.2 })) clash)

end

/-! ## All handles -/

/-- If the ids of a batch are fresh, then all of it is inserted. If they are not, then the insertion
fails with a conflict. Then a collection is as before, and so is a database on which no transaction is
open. In an open transaction the records before the first clash have been inserted. -/
theorem insert_all_or_beginning (batch : List Record) :
    (∀ memory : Memory,
      (Fresh memory.records.Has batch →
        (collectionBackend.insert () batch).result memory = (.ok (), { memory with
          records := batch.foldl (fun stored r => Keyed.insert r.id r stored) memory.records })) ∧
      (¬ Fresh memory.records.Has batch → ∃ r ∈ batch,
        (collectionBackend.insert () batch).result memory =
          (.error (.conflict (.duplicateId r.id)), memory))) ∧
    (∀ db : Database, db.found = none →
      (Fresh db.rows.Has batch → (tableBackend.insert .direct batch).result db =
        (.ok (), { db with rows := db.rows ++ batch })) ∧
      (¬ Fresh db.rows.Has batch → (tableBackend.insert .direct batch).result db =
        (.error (.conflict (.uniqueColumn db.recordsTable "id")), db))) ∧
    ∀ db : Database, db.found.isSome →
      (Fresh db.rows.Has batch → (tableBackend.insert (.bound db.opened) batch).result db =
        (.ok (), { db with rows := db.rows ++ batch })) ∧
      (¬ Fresh db.rows.Has batch → ∃ kept r rest, batch = kept ++ r :: rest ∧
        Fresh db.rows.Has kept ∧ (db.rows.Has r.id ∨ r.id ∈ kept.map Record.id) ∧
        (tableBackend.insert (.bound db.opened) batch).result db =
          (.error (.conflict (.uniqueColumn db.recordsTable "id")),
            { db with rows := db.rows ++ kept })) := by
  refine ⟨fun memory => ⟨collectionBackend_insert_fresh, collectionBackend_insert_clash⟩,
    fun db hidle => ⟨?_, tableBackend_insert_clash hidle⟩, fun db hopen => ⟨?_, fun h => ?_⟩⟩
  · exact tableBackend_insert_fresh .direct (Database.refusal?_direct hidle)
  · exact tableBackend_insert_fresh (.bound db.opened) (Database.refusal?_bound hopen rfl)
  · obtain ⟨kept, r, rest, rfl, hkept, hr⟩ := Fresh.exists_first_clash h
    exact ⟨kept, r, rest, rfl, hkept, hr, tableBackend_insert_clash_within hopen hkept hr⟩

/-- The second of two records has the id of a row: in a transaction the first one is inserted. -/
theorem insert_all_or_beginning_second :
    let row (id : String) := Record.ofDraft ⟨"app", "g", "t", .object [], true, none⟩ id 1 default
    let db := (Database.mk "objs" "obj_fields" [row "a"] [] none 0).within [row "a"]
    ¬ Fresh db.rows.Has [row "b", row "a"] ∧
      ∃ kept r rest, [row "b", row "a"] = kept ++ r :: rest ∧
        ((tableBackend.insert (.bound db.opened) [row "b", row "a"]).result db).2.rows =
          [row "a"] ++ kept := by
  intro row db
  have stale : ¬ Fresh db.rows.Has [row "b", row "a"] := fun h =>
    h.1 (row "a") (by simp) ⟨row "a", by simp [db, Database.within], rfl⟩
  obtain ⟨kept, r, rest, hbatch, -, -, result⟩ :=
    ((insert_all_or_beginning [row "b", row "a"]).2.2 db rfl).2 stale
  exact ⟨stale, kept, r, rest, hbatch, congrArg (fun result => result.2.rows) result⟩

/-- A program that goes on after the second of two records has clashed commits the first one. -/
theorem withTransaction_keeps_beginning :
    let row (id : String) := Record.ofDraft ⟨"app", "g", "t", .object [], true, none⟩ id 1 default
    let store : Store tableBackend := ⟨Connection.direct, .default⟩
    let w : World tableBackend := ⟨⟨"objs", "obj_fields", [row "a"], [], none, 0⟩, 1, default, none⟩
    let p : Program Bool := .ask (.operation (.insert [row "b", row "a"])) fun answer =>
      .finish (.ok (match answer with
        | .error (.conflict _) => true
        | _ => false))
    ((store.withTransaction p.run).result w).1 = .ok true ∧
      ((store.withTransaction p.run).result w).2.storage.rows = [row "a", row "b"] := by
  intro row store w p
  exact ⟨rfl, rfl⟩

end RecordStore
