import RecordStore.Catalog
import RecordStore.Query.Clause
import RecordStore.Query.Order

/-!
# Backends

A `Backend` keeps records: it inserts, finds, counts, replaces, marks and removes them. Its
operations act on a state of its own and go through a handle, which either stands for the backend
itself or is bound to a transaction. An operation that fails may have changed the state already;
what it guarantees then is said where the backend is defined. The field catalog is a part of the
same state, and no transaction is opened for it.
-/

namespace RecordStore

/-- What a store needs from the place where it keeps its records and its field catalog. -/
structure Backend where
  State : Type
  Handle : Type
  /-- Inserts new records, none of which may have the id of a record that is there. -/
  insert : Handle → List Record → Effect State Unit
  find : Handle → Clause → List SortKey → Option Slice → Effect State (List Record)
  /-- The number of records that satisfy a clause. -/
  count : Handle → Clause → Effect State Nat
  /-- Replaces records with the same ids, and returns how many there were. -/
  replace : Handle → List Record → Effect State Nat
  /-- Marks the records that satisfy a clause as deleted, and returns how many there were. -/
  markDeleted : Handle → Clause → DeletionMark → Effect State Nat
  /-- Removes records by id, and returns how many there were. -/
  remove : Handle → List String → Effect State Nat
  /-- A bound on the number of records that an operation can find. -/
  size : Handle → State → Nat
  /-- Opens a transaction; nothing if there are none, or the handle is bound to one. -/
  begin? : Handle → Effect State (Option Handle)
  /-- Makes the changes of a transaction permanent. -/
  commit : Handle → Effect State Unit
  /-- Takes back the changes of a transaction. -/
  rollback : Handle → Effect State Unit
  catalog : Catalog State

end RecordStore
