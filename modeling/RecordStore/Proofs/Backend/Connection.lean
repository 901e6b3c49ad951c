import RecordStore.Backend.Table
import RecordStore.Proofs.Effect

/-!
# Connections to a database

When a connection can be used, and what is done through one that can: all of it through a connection
that is bound to the open transaction, all or nothing on the database itself.
-/

namespace RecordStore

namespace Database

variable {α τ : Type} {db : Database} {n : Nat}

/-! ## Connections that can be used -/

theorem refusal?_direct (h : db.found = none) : db.refusal? .direct = none := by
  simp [refusal?, h]

theorem refusal?_bound (h : db.found.isSome) (hn : n = db.opened) :
    db.refusal? (.bound n) = none :=
  if_pos ⟨h, hn⟩

/-- A transaction that is over stays over. -/
theorem refusal?_bound_finished (h : db.found = none ∨ n ≠ db.opened) :
    db.refusal? (.bound n) = some (.backend "transaction already finished") := by
  refine if_neg fun ⟨hopen, hn⟩ => ?_
  rcases h with h | h
  · simp [h] at hopen
  · exact h hn

/-! ## What is done through a connection -/

section

variable (part : Part Database τ) (effect : Effect τ α)

theorem result_access_refused {connection : Connection} {e : StoreError}
    (h : db.refusal? connection = some e) :
    (access part connection effect).result db = (.error e, db) := by
  simp [access, Effect.ofFunction, Effect.result, ExceptT.mk, h]

theorem result_access_bound (h : db.refusal? (.bound n) = none) :
    (access part (.bound n) effect).result db =
      ((effect.result (part.get db)).1, part.put (effect.result (part.get db)).2 db) := by
  simp [access, Effect.ofFunction, Effect.result, ExceptT.mk, h]

theorem result_access_direct_ok (h : db.refusal? .direct = none) {a : α}
    (ha : (effect.result (part.get db)).1 = .ok a) :
    (access part .direct effect).result db =
      (.ok a, part.put (effect.result (part.get db)).2 db) := by
  rw [Effect.result] at ha
  simp [access, Effect.ofFunction, Effect.result, ExceptT.mk, h, ha]

theorem result_access_direct_error (h : db.refusal? .direct = none) {e : StoreError}
    (he : (effect.result (part.get db)).1 = .error e) :
    (access part .direct effect).result db = (.error e, db) := by
  rw [Effect.result] at he
  simp [access, Effect.ofFunction, Effect.result, ExceptT.mk, h, he]

end

/-! ## Batches of writes -/

section

variable {β : Type} (connection : Connection) (nothing : β) (effect : Effect Rows β)

theorem write_of_ne_nil {batch : List α} (h : batch ≠ []) :
    write connection batch nothing effect = access rowsPart connection effect :=
  if_neg (by simpa using h)

end

/-! ## Beginning and ending -/

/-- The database as it looks in a transaction, the next one to be opened, that has found some rows. -/
def within (found : Rows) (db : Database) : Database :=
  { db with found := some found, opened := db.opened + 1 }

theorem within_closed (found : Rows) (h : db.found = none) :
    { db.within found with found := none } = { db with opened := db.opened + 1 } := by
  rw [within, ← h]

theorem result_begin?_direct (h : db.found = none) :
    (begin? .direct).result db = (.ok (some (.bound (db.opened + 1))), db.within db.rows) := by
  simp [begin?, Effect.result, Effect.ofFunction, ExceptT.mk, refusal?_direct h, within]

theorem result_begin?_refused {e : StoreError} (h : db.refusal? .direct = some e) :
    (begin? .direct).result db = (.error e, db) := by
  simp [begin?, Effect.result, Effect.ofFunction, ExceptT.mk, h]

theorem result_close_open {found : Rows} (h : db.found = some found) (hn : n = db.opened)
    (final : Rows → Rows → Rows) :
    (close (.bound n) final).result db =
      (.ok (), { db with rows := final found db.rows, found := none }) := by
  have usable : db.refusal? (.bound n) = none := refusal?_bound (by rw [h]; rfl) hn
  simp [close, Effect.result, Effect.ofFunction, ExceptT.mk, usable, h]

theorem result_close_refused {e : StoreError} (h : db.refusal? (.bound n) = some e)
    (final : Rows → Rows → Rows) :
    (close (.bound n) final).result db = (.error e, db) := by
  simp [close, Effect.result, Effect.ofFunction, ExceptT.mk, h]

end Database

end RecordStore
