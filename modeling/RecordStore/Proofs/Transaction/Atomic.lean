import RecordStore.Proofs.Transaction.Rows

/-!
# Transactions are atomic

A program in a transaction either leaves the rows as they were, if it fails, or does what it does
outside of transactions, if it succeeds and no insertion in it has clashed. A transaction that is over
cannot be ended again, whatever comes later (`Store.withTransaction_atomic`).
-/

namespace RecordStore

variable {α : Type}

/-! ## Transactions that are over -/

/-- A transaction has been committed or rolled back. -/
def Database.Finished (n : Nat) (db : Database) : Prop :=
  n < db.opened ∨ n = db.opened ∧ db.found = none

namespace Database

variable {n : Nat} {db : Database}

theorem Finished.refusal? (h : Finished n db) :
    db.refusal? (.bound n) = some (.backend "transaction already finished") := by
  rcases h with h | ⟨-, h⟩
  · exact refusal?_bound_finished (.inr (Nat.ne_of_lt h))
  · exact refusal?_bound_finished (.inl h)

theorem Finished.result_close (h : Finished n db) (final : Rows → Rows → Rows) :
    (close (.bound n) final).result db =
      (.error (.backend "transaction already finished"), db) :=
  result_close_refused h.refusal? final

theorem Finished.begin? (h : Finished n db) (connection : Connection) :
    Finished n ((Database.begin? connection).result db).2 := by
  cases connection with
  | bound m => exact h
  | direct =>
    cases hfound : db.found with
    | some found =>
      have refused : db.refusal? .direct = some (.backend "connection in use") := by
        simp [Database.refusal?, hfound]
      rwa [result_begin?_refused refused]
    | none =>
      rw [result_begin?_direct hfound]
      exact .inl (by rcases h with h | ⟨h, -⟩ <;> simp only [within] <;> omega)

theorem Finished.close (h : Finished n db) (connection : Connection) (final : Rows → Rows → Rows) :
    Finished n ((Database.close connection final).result db).2 := by
  cases connection with
  | direct => exact h
  | bound m =>
    by_cases hopen : db.found.isSome ∧ m = db.opened
    · obtain ⟨found, hfound⟩ := Option.isSome_iff_exists.1 hopen.1
      rw [result_close_open hfound hopen.2]
      exact h.imp_right fun ⟨hn, _⟩ => ⟨hn, rfl⟩
    · have refused : db.refusal? (.bound m) = some (.backend "transaction already finished") :=
        if_neg hopen
      rwa [result_close_refused refused]

end Database

/-! ## Beginning and ending -/

namespace Store

/-- The store in the transaction with a number. -/
def inside (store : Store tableBackend) (n : Nat) : Store tableBackend :=
  { store with handle := Connection.bound n }

variable {store tx : Store tableBackend} {n : Nat} {w entered : World tableBackend} {a : α}
  {e : StoreError}

theorem storage_begin? (store : Store tableBackend) (w : World tableBackend) :
    ((store.begin?).result w).2.storage = ((Database.begin? store.handle).result w.storage).2 := by
  rw [begin?, Effect.result_bind, Action.result_onStorage]
  split
  · next heq => exact (congrArg (fun result => result.2.storage) heq).symm
  · next heq => exact (congrArg (fun result => result.2.storage) heq).symm

theorem result_begin?_inside (store : Store tableBackend) (n : Nat) (w : World tableBackend) :
    (store.inside n).begin?.result w = (.ok none, w) := rfl

theorem result_begin?_direct (h : store.handle = Connection.direct) (hidle : w.storage.found = none) :
    (store.begin?).result w = (.ok (some (store.inside (w.storage.opened + 1))),
      { w with storage := w.storage.within w.storage.rows }) := by
  have begun : (Action.onStorage (tableBackend.begin? store.handle)).result w =
      (.ok (some (Connection.bound (w.storage.opened + 1))),
        { w with storage := w.storage.within w.storage.rows }) := by
    rw [Action.result_onStorage, h]
    exact congrArg (fun result => (result.1, { w with storage := result.2 }))
      (Database.result_begin?_direct hidle)
  exact Effect.result_bind_ok begun

theorem result_withTransaction_begun (h : (store.begin?).result w = (.ok (some tx), entered))
    (body : Store tableBackend → Action tableBackend α) :
    (store.withTransaction body).result w =
      tx.conclude ((body tx).result entered).1 ((body tx).result entered).2 := by
  have begun : (store.begin? : Action tableBackend _) w = (.ok (some tx), entered) := h
  simp only [withTransaction, Effect.result, ExceptT.mk, ExceptT.run, bind, StateT.bind, begun]
  rfl

theorem conclude_ok (store : Store tableBackend) (a : α) (h : w.storage.found.isSome)
    (hn : n = w.storage.opened) :
    (store.inside n).conclude (.ok a) w =
      (.ok a, { w with storage := { w.storage with found := none } }) := by
  obtain ⟨found, hfound⟩ := Option.isSome_iff_exists.1 h
  have closed := Database.result_close_open hfound hn fun _ written => written
  have committed : (Action.onStorage (tableBackend.commit (store.inside n).handle)).result w =
      (.ok (), { w with storage := { w.storage with found := none } }) := by
    rw [Action.result_onStorage]
    exact congrArg (fun result => (result.1, { w with storage := result.2 })) closed
  exact Effect.result_bind_ok committed

theorem conclude_error (store : Store tableBackend) {found : Rows} (h : w.storage.found = some found)
    (hn : n = w.storage.opened) :
    (store.inside n).conclude (.error e : Except StoreError α) w =
      (.error e, { w with storage := { w.storage with rows := found, found := none } }) := by
  have closed := Database.result_close_open h hn fun found _ => found
  exact congrArg (fun result => (Except.error e, ({ w with storage := result.2 } : World _))) closed

end Store

/-! ## Programs in a transaction -/

theorem Program.run_inside_rows (p : Program α) (store : Store tableBackend) (n : Nat)
    (w : World tableBackend) :
    ∃ rows, ((p.run (store.inside n)).result w).2.storage = { w.storage with rows := rows } := by
  have couples := Coupling.couples_onlyRows w.storage (store.inside n)
  rw [← result_run_flatten (store.result_begin?_inside n)]
  rcases couples.flat (fun _ => trivial) p.isFlat_flatten ⟨rfl, w.storage.rows, rfl⟩ with
    ⟨_, hexcused, -⟩ | ⟨-, ⟨-, rows, hrows⟩, -⟩
  · exact hexcused.elim
  · exact ⟨rows, hrows⟩

/-- Unless a request fails with a conflict, a program does in the next transaction what it does, without
its nested transactions, before that is opened. -/
theorem Program.inside_or_clash (p : Program α) {store : Store tableBackend}
    {w : World tableBackend} (hdirect : store.handle = Connection.direct)
    (hidle : w.storage.found = none) :
    let tx := store.inside (w.storage.opened + 1)
    let entered := { w with storage := w.storage.within w.storage.rows }
    (∃ e, e.isConflict = true ∧ .error e ∈ p.answers tx entered) ∨
      ((p.run tx).result entered).1 = ((p.flatten.run store).result w).1 ∧
        p.answers tx entered = p.flatten.answers store w ∧
          (Coupling.transaction w.storage.rows (w.storage.opened + 1)).rel
            ((p.run tx).result entered).2 ((p.flatten.run store).result w).2 := by
  obtain ⟨_, config⟩ := store
  cases hdirect
  intro tx entered
  have joins := Store.result_begin?_inside ⟨.direct, config⟩ (w.storage.opened + 1)
  have couples := Coupling.couples_transaction w.storage.rows (w.storage.opened + 1) config
  rw [← result_run_flatten joins, ← answers_flatten joins]
  exact (couples.flat (fun _ => trivial) p.isFlat_flatten ⟨hidle, rfl, rfl⟩).imp_right
    fun ⟨same, related, answers⟩ => ⟨same, answers, related⟩

/-! ## What comes later -/

/-- What can come of a world: operations, transactions that begin, and transactions that end, through
whichever handles. -/
inductive Later (w : World tableBackend) : World tableBackend → Prop
  | refl : Later w w
  | ask {v : World tableBackend} (store : Store tableBackend) (request : Request) :
    Later w v → Later w ((request.run store).result v).2
  | begin {v : World tableBackend} (store : Store tableBackend) :
    Later w v → Later w ((store.begin?).result v).2
  | commit {v : World tableBackend} (handle : Connection) :
    Later w v → Later w ((Action.onStorage (tableBackend.commit handle)).result v).2
  | rollback {v : World tableBackend} (handle : Connection) :
    Later w v → Later w ((Action.onStorage (tableBackend.rollback handle)).result v).2

theorem Later.finished {w v : World tableBackend} {n : Nat} (h : Later w v)
    (hfinished : w.storage.Finished n) : v.storage.Finished n := by
  induction h with
  | refl => exact hfinished
  | @ask v store request _ ih =>
    have couples := Coupling.couples_onlyRows v.storage store
    have kept := (couples.request (fun _ => trivial) request).keeps ⟨v.storage.rows, rfl⟩
    obtain ⟨rows, hrows⟩ := kept
    rw [hrows]
    exact ih
  | begin store _ ih =>
    rw [Store.storage_begin?]
    exact ih.begin? store.handle
  | commit handle _ ih => exact ih.close handle fun _ written => written
  | rollback handle _ ih => exact ih.close handle fun found _ => found

theorem Later.result_close {w v : World tableBackend} {n : Nat} (h : Later w v)
    (hfinished : w.storage.Finished n) :
    (tableBackend.commit (.bound n)).result v.storage =
        (.error (.backend "transaction already finished"), v.storage) ∧
      (tableBackend.rollback (.bound n)).result v.storage =
        (.error (.backend "transaction already finished"), v.storage) :=
  have finished := h.finished hfinished
  ⟨finished.result_close fun _ written => written, finished.result_close fun found _ => found⟩

/-! ## Atomicity -/

/-- A program is run in a transaction of its own, which is opened on a database on which none is open.
Its outcome is the outcome of the transaction. If that is a failure, then the tables are as before.
If it is a success, and no request has failed with a conflict, as only an insertion does, then the
program without its nested transactions has the same outcome and answers outside of the transaction,
and leaves the same world, in which one transaction less has been opened. Afterwards the transaction
can neither be committed nor be rolled back, and the attempt changes nothing. -/
theorem Store.withTransaction_atomic (p : Program α) (store : Store tableBackend)
    (w : World tableBackend) (hdirect : store.handle = Connection.direct)
    (hidle : w.storage.found = none) :
    let n := w.storage.opened + 1
    let tx := store.inside n
    let entered := { w with storage := w.storage.within w.storage.rows }
    let own := ((p.run tx).result entered).1
    let after := (store.withTransaction p.run).result w
    (store.begin?).result w = (.ok (some tx), entered) ∧
    after.1 = own ∧
    (∀ e, own = .error e → after.2.storage = { w.storage with opened := n }) ∧
    (∀ a, own = .ok a → (∀ e, .error e ∈ p.answers tx entered → e.isConflict = false) →
      let outside := (p.flatten.run store).result w
      outside.1 = own ∧ p.flatten.answers store w = p.answers tx entered ∧
        after.2 = { outside.2 with storage := { outside.2.storage with opened := n } }) ∧
    ∀ v, Later after.2 v →
      (tableBackend.commit tx.handle).result v.storage =
          (.error (.backend "transaction already finished"), v.storage) ∧
        (tableBackend.rollback tx.handle).result v.storage =
          (.error (.backend "transaction already finished"), v.storage) := by
  intro n tx entered own after
  have begun : (store.begin?).result w = (.ok (some tx), entered) :=
    result_begin?_direct hdirect hidle
  have hafter : after = tx.conclude own ((p.run tx).result entered).2 :=
    result_withTransaction_begun begun p.run
  obtain ⟨rows, hrows⟩ := p.run_inside_rows store n entered
  have hfound : ((p.run tx).result entered).2.storage.found = some w.storage.rows :=
    congrArg Database.found hrows
  have hopened : n = ((p.run tx).result entered).2.storage.opened :=
    (congrArg Database.opened hrows).symm
  cases hown : own with
  | error e =>
    have undone : after.2.storage = { w.storage with opened := n } := by
      rw [hafter, hown, conclude_error store hfound hopened, hrows]
      exact congrArg (fun found => { w.storage with opened := n, found }) hidle.symm
    refine ⟨begun, ?_, fun _ _ => undone, fun _ h => (by cases h), fun v hv => hv.result_close ?_⟩
    · rw [hafter, hown, conclude_error store hfound hopened]
    · exact undone ▸ .inr ⟨rfl, hidle⟩
  | ok a =>
    have kept := conclude_ok store a (by rw [hfound]; rfl) hopened
    refine ⟨begun, ?_, fun _ h => (by cases h), fun _ _ hclean => ?_, fun v hv => hv.result_close ?_⟩
    · rw [hafter, hown, kept]
    · rcases p.inside_or_clash hdirect hidle with ⟨e, hconflict, he⟩ | outside
      · exact absurd hconflict (by simp [hclean e he])
      · obtain ⟨same, answers, hidle', hcount, hworld⟩ := outside
        refine ⟨same.symm.trans hown, answers.symm, ?_⟩
        rw [hafter, hown, kept, hworld]
        have closed := Database.within_closed w.storage.rows hidle'
        exact congrArg (fun db => { ((p.flatten.run store).result w).2 with storage := db })
          (closed.trans (by rw [← hcount]))
    · rw [hafter, hown, kept]
      exact .inr ⟨hopened, rfl⟩

/-- What a failed nested transaction has inserted stays, as the outer one succeeds. -/
theorem Store.withTransaction_atomic_nested :
    let r := Record.ofDraft ⟨"app", "g", "t", .object [], true, none⟩ "r" 1 default
    let store : Store tableBackend := ⟨Connection.direct, .default⟩
    let w : World tableBackend := ⟨.empty "objs" "obj_fields", 1, default, none⟩
    let failing : Program Unit :=
      .ask (.operation (.insert [r])) fun _ => .finish (refuse (.other "no"))
    let p : Program Unit := .nested failing fun _ => .finish (.ok ())
    ((store.withTransaction p.run).result w).1 = .ok () ∧
      ((store.withTransaction p.run).result w).2.storage.rows = [r] := by
  intro r store w failing p
  obtain ⟨-, outcome, -, succeeds, -⟩ := withTransaction_atomic p store w rfl rfl
  have clean : ∀ e, (.error e : Except StoreError Answer) ∈ [.ok .done] → e.isConflict = false := by
    simp
  obtain ⟨-, -, after⟩ := succeeds () rfl clean
  rw [after]
  exact ⟨outcome, rfl⟩

end RecordStore
