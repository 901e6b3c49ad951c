import RecordStore.Effect

/-!
# Running computations

What a computation does to a state, one equation for each way to build computations.
-/

namespace RecordStore

namespace Effect

variable {σ τ α β : Type}

@[simp]
theorem result_pure (a : α) (s : σ) : (pure a : Effect σ α).result s = (.ok a, s) := rfl

theorem result_bind (x : Effect σ α) (f : α → Effect σ β) (s : σ) :
    (x >>= f).result s = match x.result s with
      | (.ok a, s') => (f a).result s'
      | (.error e, s') => (.error e, s') := by
  have unfolded : (x >>= f).result s =
      (ExceptT.bindCont f (x.result s).1).run (x.result s).2 := rfl
  rw [unfolded]
  rcases x.result s with ⟨_ | _, _⟩ <;> rfl

theorem result_bind_ok {x : Effect σ α} {f : α → Effect σ β} {s s' : σ} {a : α}
    (h : x.result s = (.ok a, s')) : (x >>= f).result s = (f a).result s' := by
  rw [result_bind, h]

@[simp]
theorem result_ofExcept (r : Except StoreError α) (s : σ) :
    (ofExcept r : Effect σ α).result s = (r, s) := rfl

end Effect

end RecordStore
