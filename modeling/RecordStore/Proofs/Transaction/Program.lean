import RecordStore.Proofs.Store.Coupling

/-!
# Programs in transactions

What a caller can run in a transaction is a `Program`: it asks for operations of the store that it is
given, one after the other, and sees what becomes of each, so that what it asks for next, and what it
returns, may depend on it. It may open transactions of its own. `Program.flatten` takes these out.

On a store whose transaction is open already both are the same (`Program.result_run_flatten`).
-/

namespace RecordStore

variable {α β : Type} {B C : Backend}

/-! ## Requests -/

/-- What can be asked of a store in a transaction: an operation, or a cleanup. The catalog is not
reached through the transaction. -/
inductive Request where
  | operation (op : Operation)
  | cleanup (request : CleanupRequest)

def Request.run (store : Store B) : Request → Action B Answer
  | operation op => op.run store
  | cleanup request => do
    let (result, reports) ← store.cleanup request false
    return .cleaned result reports

theorem Coupling.Couples.request {R : Coupling B C} {store : Store B} {other : Store C}
    (h : R.Couples store other) (hwrites : ∀ r, R.allows r) :
    ∀ request : Request, R.Matches (request.run store) (request.run other) fun _ => True
  | .operation op => h.operation op (by cases op <;> first | trivial | exact fun r _ => hwrites r)
  | .cleanup request => (h.cleanup request).bind fun _ _ => matches_pure trivial

/-! ## Programs -/

/-- Runs a computation and returns what has become of it. -/
def Effect.attempt {σ : Type} (x : Effect σ α) : Effect σ (Except StoreError α) := .total x.result

inductive Program : Type → Type 1 where
  | finish {α : Type} (outcome : Except StoreError α) : Program α
  /-- Asks for something and goes on with what has become of it. -/
  | ask {α : Type} (request : Request) (next : Except StoreError Answer → Program α) : Program α
  /-- Runs a program in a transaction and goes on with what has become of it. -/
  | nested {α β : Type} (body : Program β) (next : Except StoreError β → Program α) : Program α

namespace Program

def run : {α : Type} → Program α → Store B → Action B α
  | _, finish outcome, _ => .ofExcept outcome
  | _, ask request next, store => do run (next (← (request.run store).attempt)) store
  | _, nested body next, store => do
    run (next (← (store.withTransaction (run body)).attempt)) store

/-- What has become of the requests of a program, in order, if nested transactions join. -/
def answers : {α : Type} → Program α → Store B → World B → List (Except StoreError Answer)
  | _, finish _, _, _ => []
  | _, ask request next, store, w =>
    let (outcome, v) := (request.run store).result w
    outcome :: answers (next outcome) store v
  | _, nested body next, store, w =>
    let (outcome, v) := (body.run store).result w
    answers body store w ++ answers (next outcome) store v

/-- Runs a program and goes on with what has become of it. -/
def andThen : {α : Type} → Program α → (Except StoreError α → Program β) → Program β
  | _, finish outcome, next => next outcome
  | _, ask request rest, next => ask request fun answer => andThen (rest answer) next
  | _, nested body rest, next => nested body fun outcome => andThen (rest outcome) next

/-- The program with its nested transactions taken out: what they run is run without them. -/
def flatten : {α : Type} → Program α → Program α
  | _, finish outcome => finish outcome
  | _, ask request next => ask request fun answer => flatten (next answer)
  | _, nested body next => andThen (flatten body) fun outcome => flatten (next outcome)

/-! ## Running -/

section

variable (store : Store B) (w : World B)

theorem result_run_ask (request : Request) (next : Except StoreError Answer → Program α) :
    ((ask request next).run store).result w =
      ((next ((request.run store).result w).1).run store).result
        ((request.run store).result w).2 := rfl

theorem answers_ask (request : Request) (next : Except StoreError Answer → Program α) :
    (ask request next).answers store w =
      ((request.run store).result w).1 ::
        (next ((request.run store).result w).1).answers store ((request.run store).result w).2 :=
  rfl

theorem result_run_nested (body : Program β) (next : Except StoreError β → Program α) :
    ((nested body next).run store).result w =
      ((next ((store.withTransaction body.run).result w).1).run store).result
        ((store.withTransaction body.run).result w).2 := rfl

theorem result_run_andThen (p : Program α) (next : Except StoreError α → Program β) (w : World B) :
    ((p.andThen next).run store).result w =
      ((next ((p.run store).result w).1).run store).result ((p.run store).result w).2 := by
  induction p generalizing w with
  | finish outcome => rfl
  | ask request rest ih => exact ih _ next _
  | nested body rest _ ih => exact ih _ next _

end

/-! ## Nested transactions -/

section

variable {store : Store B} (joins : ∀ w, (store.begin?).result w = (.ok none, w))
include joins

theorem result_withTransaction_joined (body : Store B → Action B α) (w : World B) :
    (store.withTransaction body).result w = (body store).result w := by
  have begun : (store.begin? : Action B _) w = (.ok none, w) := joins w
  simp only [Store.withTransaction, Effect.result, ExceptT.mk, ExceptT.run, bind, StateT.bind, begun]

theorem result_run_flatten (p : Program α) (w : World B) :
    (p.flatten.run store).result w = (p.run store).result w := by
  induction p generalizing w with
  | finish outcome => rfl
  | ask request next ih => exact ih _ _
  | nested body next ihbody ih =>
    rw [flatten, result_run_andThen, ihbody, ih, result_run_nested,
      result_withTransaction_joined joins]

theorem answers_andThen (p : Program α) (next : Except StoreError α → Program β) (w : World B) :
    (p.andThen next).answers store w =
      p.answers store w ++
        (next ((p.run store).result w).1).answers store ((p.run store).result w).2 := by
  induction p generalizing w with
  | finish outcome => rfl
  | ask request rest ih => exact congrArg (_ :: ·) (ih _ next _)
  | nested body rest _ ih =>
    rw [result_run_nested, result_withTransaction_joined joins]
    have others := ih ((body.run store).result w).1 next ((body.run store).result w).2
    simpa only [andThen, answers, List.append_assoc] using congrArg (body.answers store w ++ ·) others

theorem answers_flatten (p : Program α) (w : World B) :
    p.flatten.answers store w = p.answers store w := by
  induction p generalizing w with
  | finish outcome => rfl
  | ask request next ih => exact congrArg (_ :: ·) (ih _ _)
  | nested body next ihbody ih =>
    rw [flatten, answers_andThen joins, ihbody, ih, result_run_flatten joins, answers]

end

/-! ## Programs without nested transactions -/

inductive IsFlat : {α : Type} → Program α → Prop
  | finish {α : Type} (outcome : Except StoreError α) : IsFlat (finish outcome)
  | ask {α : Type} {request : Request} {next : Except StoreError Answer → Program α} :
    (∀ answer, IsFlat (next answer)) → IsFlat (ask request next)

theorem IsFlat.andThen {p : Program α} {next : Except StoreError α → Program β} (hp : p.IsFlat)
    (hnext : ∀ outcome, (next outcome).IsFlat) : (p.andThen next).IsFlat := by
  induction hp with
  | finish outcome => exact hnext outcome
  | ask _ ih => exact .ask fun answer => ih answer

theorem isFlat_flatten (p : Program α) : p.flatten.IsFlat := by
  induction p with
  | finish outcome => exact .finish outcome
  | ask request next ih => exact .ask ih
  | nested body next ihbody ih => exact ihbody.andThen ih

end Program

/-- On coupled stores a program without nested transactions does the same, unless one of its requests
fails with an excused error. -/
theorem Coupling.Couples.flat {R : Coupling B C} {store : Store B} {other : Store C}
    (h : R.Couples store other) (hwrites : ∀ r, R.allows r) {p : Program α} (hp : p.IsFlat) {w : World B}
    {v : World C} (hwv : R.rel w v) :
    (∃ e, R.excuses e ∧ .error e ∈ p.answers store w) ∨
      ((p.run store).result w).1 = ((p.run other).result v).1 ∧
        R.rel ((p.run store).result w).2 ((p.run other).result v).2 ∧
          p.answers store w = p.answers other v := by
  induction hp generalizing w v with
  | finish outcome => exact .inr ⟨rfl, hwv, rfl⟩
  | @ask request next _ ih =>
    rcases h.request hwrites request w v hwv with ⟨e, hexcused, he⟩ | ⟨same, related, -⟩
    · exact .inl ⟨e, hexcused, List.mem_cons.2 (.inl he.symm)⟩
    · rcases ih ((request.run store).result w).1 related with ⟨e, hexcused, he⟩ | rest
      · exact .inl ⟨e, hexcused, List.mem_cons_of_mem _ he⟩
      · simp only [Program.result_run_ask, Program.answers_ask, ← same]
        exact .inr ⟨rest.1, rest.2.1, congrArg (_ :: ·) rest.2.2⟩

end RecordStore
