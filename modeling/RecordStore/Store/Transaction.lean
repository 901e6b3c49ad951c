import RecordStore.Store

/-!
# Transactions

A transaction runs operations through a store of its own and then keeps or takes back all that they
have done. Where a backend has no transactions, or one is open already, the operations just run: a
nested transaction is part of the outer one, whatever its own outcome.
-/

namespace RecordStore

namespace Store

variable {B : Backend} {α : Type}

/-- A store in a transaction of its own, if one can be opened. -/
def begin? (store : Store B) : Action B (Option (Store B)) :=
  return (← Action.onStorage (B.begin? store.handle)).map fun handle =>
    { store with handle := handle }

/-- Ends the transaction of a store: commits it after a success, and takes it back after a failure,
which stays the result. -/
def conclude (store : Store B) (result : Except StoreError α) :
    StateM (World B) (Except StoreError α) :=
  match result with
  | .ok a => (do Action.onStorage (B.commit store.handle); return a : Action B α).run
  | .error e => do
    let _ ← (Action.onStorage (B.rollback store.handle) : Action B Unit).run
    return .error e

/-- Runs operations in a transaction, if one can be opened. -/
def withTransaction (store : Store B) (body : Store B → Action B α) : Action B α :=
  ExceptT.mk (do
    match ← (store.begin? : Action B (Option (Store B))).run with
    | .error e => return .error e
    | .ok none => (body store).run
    | .ok (some bound) => bound.conclude (← (body bound).run))

end Store

end RecordStore
