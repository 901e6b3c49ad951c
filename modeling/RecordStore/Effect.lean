import RecordStore.Error

/-!
# Computations on a state

An `Effect` is a computation on a state that may fail. One on a `Part` of a state is one on the
whole state, too: it leaves the rest as it is (`Effect.on`).
-/

namespace RecordStore

/-- A computation on a state that may fail. What it has changed before it fails stays changed. -/
abbrev Effect (σ : Type) : Type → Type := ExceptT StoreError (StateM σ)

structure Part (σ τ : Type) where
  get : σ → τ
  put : τ → σ → σ
  get_put : ∀ t s, get (put t s) = t := by intros; rfl
  put_get : ∀ s, put (get s) s = s := by intros; rfl

namespace Effect

variable {σ τ α : Type}

/-- The effect of a function from the state to a result and the next state. -/
def ofFunction (f : σ → Except StoreError α × σ) : Effect σ α := ExceptT.mk f

/-- A computation that only looks at the state. -/
def reading (f : σ → Except StoreError α) : Effect σ α := ofFunction fun s => (f s, s)

/-- A computation that cannot fail. -/
def total (f : σ → α × σ) : Effect σ α := ofFunction fun s => (.ok (f s).1, (f s).2)

/-- A result for which the state does not matter. -/
def ofExcept (result : Except StoreError α) : Effect σ α := reading fun _ => result

/-- Runs a computation on a state. -/
def result (effect : Effect σ α) (s : σ) : Except StoreError α × σ := effect s

/-- A computation that depends on the state on which it is run. -/
def depending (effect : σ → Effect σ α) : Effect σ α := ofFunction fun s => (effect s).result s

def on (part : Part σ τ) (effect : Effect τ α) : Effect σ α := ofFunction fun s =>
  let (result, t) := effect.result (part.get s)
  (result, part.put t s)

end Effect

end RecordStore
