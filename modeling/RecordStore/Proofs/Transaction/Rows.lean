import RecordStore.Proofs.Backend.Insertion
import RecordStore.Proofs.Transaction.Program

/-!
# Records under transactions

Operations reach nothing of a database but its rows (`Coupling.couples_onlyRows`), through whichever
connection. Through the open transaction they do what they do on a database on which no transaction is
open, up to a clash of ids (`Coupling.couples_transaction`).
-/

namespace RecordStore

variable {α : Type}

/-! ## Results -/

theorem Effect.result_depending {σ : Type} (effect : σ → Effect σ α) (s : σ) :
    (depending effect).result s = (effect s).result s := rfl

theorem Action.result_onStorage {B : Backend} (effect : Effect B.State α) (w : World B) :
    (onStorage effect).result w =
      ((effect.result w.storage).1, { w with storage := (effect.result w.storage).2 }) := rfl

namespace Rows

variable {tables : List String} {statement : Sql.Statement} {f : Rows → α × Rows} {rows : Rows}

theorem result_run (h : statement.refusal? tables rows = none) :
    (run tables statement f).result rows = (.ok (f rows).1, (f rows).2) := by
  simp [run, Effect.result, Effect.ofFunction, ExceptT.mk, h]

theorem result_run_refused {e : StoreError} (h : statement.refusal? tables rows = some e) :
    (run tables statement f).result rows = (.error e, rows) := by
  simp [run, Effect.result, Effect.ofFunction, ExceptT.mk, h]

end Rows

/-! ## Databases that differ in their rows -/

namespace Database

variable {β : Type}

/-- What a computation does to a database, it does to its rows. -/
def ReachesRows (effect : Effect Database α) : Prop :=
  ∀ db, ∃ rows, (effect.result db).2 = { db with rows := rows }

theorem reachesRows_access (connection : Connection) (effect : Effect Rows α) :
    ReachesRows (access rowsPart connection effect) := by
  intro db
  cases hrefused : db.refusal? connection with
  | some e => exact ⟨db.rows, by rw [result_access_refused rowsPart effect hrefused]⟩
  | none =>
    cases connection with
    | bound n => exact ⟨_, by rw [result_access_bound rowsPart effect hrefused]; rfl⟩
    | direct =>
      cases hresult : (effect.result (rowsPart.get db)).1 with
      | ok a => exact ⟨_, by rw [result_access_direct_ok rowsPart effect hrefused hresult]; rfl⟩
      | error e => exact ⟨db.rows, by rw [result_access_direct_error rowsPart effect hrefused hresult]⟩

theorem reachesRows_run (connection : Connection) (statement : Sql.Statement) (f : Rows → α × Rows) :
    ReachesRows (run connection statement f) := fun db =>
  reachesRows_access connection (Rows.run db.tables statement f) db

theorem reachesRows_find (connection : Connection) (condition : Sql.Condition)
    (keys : List SortKey) (slice : Option Slice) :
    ReachesRows (find connection condition keys slice) := by
  intro db
  obtain ⟨rows, hrows⟩ := reachesRows_run connection (.finding condition keys slice)
    (fun rows => (rows.find condition keys slice, rows)) db
  refine ⟨rows, ?_⟩
  rw [find, Effect.result_bind]
  split
  · next heq => exact (congrArg Prod.snd heq).symm.trans hrows
  · next heq => exact (congrArg Prod.snd heq).symm.trans hrows

theorem reachesRows_write (connection : Connection) (batch : List α) (nothing : β)
    (effect : Effect Rows β) : ReachesRows (write connection batch nothing effect) := by
  by_cases hbatch : batch = []
  · subst hbatch
    exact fun db => ⟨db.rows, rfl⟩
  · rw [write_of_ne_nil connection nothing effect hbatch]
    exact reachesRows_access connection effect

end Database

namespace Coupling

/-- Worlds are coupled with themselves, as long as nothing of a database has changed but its rows. -/
def onlyRows (db : Database) : Coupling tableBackend tableBackend :=
  invariant (fun w => ∃ rows, w.storage = { db with rows := rows }) (fun _ => True) fun _ => True

variable (db : Database)

theorem onlyRows_onStorage {effect : Effect Database α} (h : Database.ReachesRows effect) :
    (onlyRows db).Matches (.onStorage effect) (.onStorage effect) fun _ => True := by
  refine matches_invariant fun w ⟨rows, hrows⟩ => ?_
  obtain ⟨written, hwritten⟩ := h w.storage
  exact ⟨⟨written, hwritten.trans (by rw [hrows])⟩, fun _ _ => trivial⟩

theorem couples_onlyRows (store : Store tableBackend) : (onlyRows db).Couples store store where
  config_eq := rfl
  size_eq := fun _ _ h => h.1 ▸ rfl
  now := matches_invariant fun _ h => ⟨h, fun _ _ => trivial⟩
  freshId := matches_invariant fun _ h => ⟨h, fun _ _ => trivial⟩
  find _ _ _ := onlyRows_onStorage db (Database.reachesRows_find _ _ _ _)
  countClause _ := onlyRows_onStorage db (Database.reachesRows_run _ _ _)
  insert _ _ := onlyRows_onStorage db fun db => Database.reachesRows_write _ _ _ _ db
  replace _ _ := onlyRows_onStorage db (Database.reachesRows_write _ _ _ _)
  markDeleted _ _ := onlyRows_onStorage db (Database.reachesRows_run _ _ _)
  remove _ := onlyRows_onStorage db (Database.reachesRows_write _ _ _ _)
  allows_ofDraft _ _ _ _ _ := trivial
  allows_updated _ _ _ _ _ _ := trivial
  allows_payload _ _ _ := trivial

end Coupling

/-! ## Databases on which a transaction is open -/

namespace Database

/-- A computation does the same to the rows in the next transaction to be opened as it does before
that is opened, unless it fails with a conflict. -/
def SameWithin (x : Connection → Effect Database α) : Prop :=
  ∀ found db, db.found = none →
    let inside := (x (.bound (db.opened + 1))).result (db.within found)
    let outside := (x .direct).result db
    (∃ e, e.isConflict = true ∧ inside.1 = .error e) ∨
      inside.1 = outside.1 ∧
        ∃ rows, inside.2 = { db.within found with rows := rows } ∧ outside.2 = { db with rows := rows }

/-- A computation that changes no rows if it fails, unless with a conflict. -/
theorem sameWithin_access {effect : Effect Rows α}
    (hfails : ∀ rows e, (effect.result rows).1 = .error e →
      e.isConflict = true ∨ (effect.result rows).2 = rows) :
    SameWithin (access rowsPart · effect) := by
  intro found db hidle
  have usable : (db.within found).refusal? (.bound (db.opened + 1)) = none := refusal?_bound rfl rfl
  have inside := result_access_bound rowsPart effect usable
  cases houtcome : (effect.result db.rows).1 with
  | ok a =>
    have outside := result_access_direct_ok rowsPart effect (refusal?_direct hidle) houtcome
    rw [inside, outside]
    exact .inr ⟨houtcome, (effect.result db.rows).2, rfl, rfl⟩
  | error e =>
    have outside := result_access_direct_error rowsPart effect (refusal?_direct hidle) houtcome
    rw [inside, outside]
    rcases hfails _ e houtcome with hconflict | hrows
    · exact .inl ⟨e, hconflict, houtcome⟩
    · exact .inr ⟨houtcome, db.rows, congrArg (fun rows => { db.within found with rows }) hrows, rfl⟩

theorem sameWithin_depending {effect : Database → Connection → Effect Database α}
    (h : ∀ db, SameWithin (effect db))
    (hsame : ∀ found db, effect (db.within found) = effect db) :
    SameWithin fun connection => .depending (effect · connection) := by
  intro found db hidle
  simp only [Effect.result_depending, hsame]
  exact h db found db hidle

theorem sameWithin_run (statement : Sql.Statement) (f : Rows → α × Rows) :
    SameWithin (run · statement f) := by
  refine sameWithin_depending (fun db => sameWithin_access fun rows e he => .inr ?_) fun _ _ => rfl
  cases hrefused : statement.refusal? db.tables rows with
  | some reason => rw [Rows.result_run_refused hrefused]
  | none =>
    rw [Rows.result_run hrefused] at he
    cases he

/-- The rows that are found are the same, and so are the records that are read from them. -/
theorem sameWithin_find (condition : Sql.Condition) (keys : List SortKey) (slice : Option Slice) :
    SameWithin (find · condition keys slice) := by
  intro found db hidle
  have ran := sameWithin_run (.finding condition keys slice)
    (fun rows => (rows.find condition keys slice, rows)) found db hidle
  simp only [find, Effect.result_bind]
  generalize (run (.bound (db.opened + 1)) _ _).result (db.within found) = inside at ran ⊢
  generalize (run .direct _ _).result db = outside at ran ⊢
  obtain ⟨inside, db₁⟩ := inside
  obtain ⟨outside, db₂⟩ := outside
  rcases ran with ⟨e, hconflict, rfl⟩ | ⟨rfl, states⟩
  · exact .inl ⟨e, hconflict, rfl⟩
  · cases inside with
    | ok rows => exact .inr ⟨rfl, states⟩
    | error e => exact .inr ⟨rfl, states⟩

theorem sameWithin_write {batch : List α} {nothing : β} {effect : Effect Rows β}
    (h : SameWithin (access rowsPart · effect)) :
    SameWithin (write · batch nothing effect) := by
  by_cases hbatch : batch = []
  · subst hbatch
    exact fun found db _ => .inr ⟨rfl, db.rows, rfl, rfl⟩
  · have ran : (write · batch nothing effect) = (access rowsPart · effect) :=
      funext fun connection => write_of_ne_nil connection nothing effect hbatch
    rwa [ran]

theorem sameWithin_total (batch : List α) (nothing : β) (f : Rows → β × Rows) :
    SameWithin (write · batch nothing (.total f)) :=
  sameWithin_write (sameWithin_access fun _ _ he => by cases he)

theorem sameWithin_insert (batch : List Record) : SameWithin fun connection =>
    .depending fun db => write connection batch () (Rows.insert db.recordsTable batch) :=
  sameWithin_depending (fun _ => sameWithin_write
    (sameWithin_access fun _ _ he => .inl (Rows.isConflict_of_insert he))) fun _ _ => rfl

end Database

namespace Coupling

/-- Worlds of the transaction with a number that has found some rows are coupled with worlds in which
it has not been opened. What a failed insertion leaves behind differs. -/
def transaction (found : Rows) (n : Nat) : Coupling tableBackend tableBackend where
  rel w v := v.storage.found = none ∧ n = v.storage.opened + 1 ∧
    w = { v with storage := v.storage.within found }
  excuses e := e.isConflict = true
  shows _ := True
  allows _ := True

variable (found : Rows) (n : Nat)

theorem transaction_onStorage {x : Connection → Effect Database α} (h : Database.SameWithin x) :
    (transaction found n).Matches (.onStorage (x (.bound n))) (.onStorage (x .direct))
      fun _ => True := by
  rintro _ v ⟨hidle, rfl, rfl⟩
  rcases h found v.storage hidle with hconflict | ⟨same, rows, hinside, houtside⟩
  · exact .inl hconflict
  · have hstorage := hinside.trans (congrArg (Database.within found) houtside).symm
    refine .inr ⟨same, ⟨?_, ?_, ?_⟩, fun _ _ => trivial⟩
    · exact (congrArg Database.found houtside).trans hidle
    · exact (congrArg (fun db : Database => db.opened + 1) houtside).symm
    · exact congrArg (fun db : Database => ({ v with storage := db } : World tableBackend)) hstorage

theorem couples_transaction (config : StoreConfig) :
    (transaction found n).Couples ⟨.bound n, config⟩ ⟨.direct, config⟩ where
  config_eq := rfl
  size_eq := by
    rintro _ v ⟨-, -, rfl⟩
    rfl
  now := by
    rintro _ v ⟨hidle, hn, rfl⟩
    exact .inr ⟨rfl, ⟨hidle, hn, rfl⟩, fun _ _ => trivial⟩
  freshId := by
    rintro _ v ⟨hidle, hn, rfl⟩
    exact .inr ⟨rfl, ⟨hidle, hn, rfl⟩, fun _ _ => trivial⟩
  find clause keys slice :=
    transaction_onStorage found n (Database.sameWithin_find clause.condition keys slice)
  countClause clause := transaction_onStorage found n (Database.sameWithin_run
    (.counting clause.condition) fun rows => (rows.countP clause.condition.selects, rows))
  insert batch _ := transaction_onStorage found n (Database.sameWithin_insert batch)
  replace batch _ :=
    transaction_onStorage found n (Database.sameWithin_total batch 0 (Rows.replace batch))
  markDeleted clause mark := transaction_onStorage found n (Database.sameWithin_run
    (.marking clause.condition) (Rows.markDeleted clause.condition mark))
  remove ids := transaction_onStorage found n (Database.sameWithin_total ids 0 (Rows.remove ids))
  allows_ofDraft _ _ _ _ _ := trivial
  allows_updated _ _ _ _ _ _ := trivial
  allows_payload _ _ _ := trivial

end Coupling

end RecordStore
