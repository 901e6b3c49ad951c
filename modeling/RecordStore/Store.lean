import RecordStore.Backend
import RecordStore.Config
import RecordStore.IndexSettings
import RecordStore.Request

/-!
# The store

A `Store` is a way to use a backend: a handle and a configuration. What its operations act on is a
`World`: what the backend keeps, a clock, a source of ids, and an indexing job. Operations
are scoped to one tag of one application and see live records only, unless they are asked for
deleted ones too. `Store.walk` visits records in pages; the batched operations are built on it.
-/

namespace RecordStore

/-! ## What operations act on -/

/-- A source of ids: some given ones first, then a text with a number. -/
structure IdSource where
  given : List String
  stem : String
  next : Nat
deriving DecidableEq, Inhabited

namespace IdSource

/-- A number with at least six digits. -/
def padded (n : Nat) : String :=
  let digits := Nat.toDigits 10 n
  String.ofList (List.replicate (6 - digits.length) '0' ++ digits)

def take (source : IdSource) : String × IdSource :=
  match source.given with
  | id :: rest => (id, { source with given := rest })
  | [] => (source.stem ++ "-" ++ padded source.next, { source with next := source.next + 1 })

end IdSource

/-- A backend as it is used: through a handle, and with a configuration. -/
structure Store (B : Backend) where
  handle : B.Handle
  config : StoreConfig

/-- Indexing runs that remember when the last successful one has started. -/
structure IndexingJob (B : Backend) where
  store : Store B
  settings : IndexSettings
  lastSuccessAt : Option Instant

/-- Everything that lasts from one operation to the next. -/
structure World (B : Backend) where
  /-- The records and the field catalog. -/
  storage : B.State
  clock : Instant
  ids : IdSource
  job : Option (IndexingJob B)

def World.storagePart (B : Backend) : Part (World B) B.State where
  get := storage
  put t w := { w with storage := t }

abbrev Action (B : Backend) : Type → Type := Effect (World B)

namespace Action

variable {B : Backend} {α : Type}

/-- An operation of the backend or of its catalog. -/
def onStorage (effect : Effect B.State α) : Action B α := effect.on (World.storagePart B)

def now : Action B Instant := .reading fun w => .ok w.clock

def freshId : Action B String := .total fun w =>
  let (id, ids) := w.ids.take
  (id, { w with ids := ids })

end Action

/-! ## Clauses -/

namespace Scope

def clause (scope : Scope) (includeDeleted : Bool) : Clause :=
  .all ([Clause.column .appId (.eq (.string scope.appId)),
      Clause.column .tag (.eq (.string scope.tag))] ++
    if includeDeleted then [] else [Clause.isNull .deletedAt true])

/-- The clause of the records in a scope that satisfy a query at a reference instant. -/
def queryClause (scope : Scope) (query : Query) (includeDeleted : Bool) (reference : Instant) :
    Except StoreError Clause :=
  return .all [scope.clause includeDeleted, ← query.clause reference]

end Scope

def Partition.clause (p : Partition) (includeDeleted : Bool) : Clause :=
  .all [Scope.clause ⟨p.appId, p.tag⟩ includeDeleted,
    .column .groupId (.eq (.string p.groupId))]

namespace Store

variable {B : Backend}

/-! ## Basic operations -/

def insert (store : Store B) (records : List Record) : Action B Unit :=
  .onStorage (B.insert store.handle records)

/-- The records that satisfy a clause, in an order, or a slice of them. -/
def find (store : Store B) (clause : Clause) (keys : List SortKey) (slice : Option Slice) :
    Action B (List Record) :=
  .onStorage (B.find store.handle clause keys slice)

/-- The number of records that satisfy a clause. -/
def countClause (store : Store B) (clause : Clause) : Action B Nat :=
  .onStorage (B.count store.handle clause)

def replace (store : Store B) (records : List Record) : Action B Nat :=
  .onStorage (B.replace store.handle records)

/-- Marks the records that satisfy a clause as deleted. -/
def markDeleted (store : Store B) (clause : Clause) (mark : DeletionMark) : Action B Nat :=
  .onStorage (B.markDeleted store.handle clause mark)

def remove (store : Store B) (ids : List String) : Action B Nat :=
  .onStorage (B.remove store.handle ids)

/-- The first record that satisfies a clause in the default order. -/
def first? (store : Store B) (clause : Clause) : Action B (Option Record) :=
  return (← store.find clause (SortKey.complete []) (some (.first 1))).head?

def all (store : Store B) : Action B (List Record) := store.find .always [.byId] none

def queryClause (scope : Scope) (query : Query) (includeDeleted : Bool) : Action B Clause := do
  Effect.ofExcept (scope.queryClause query includeDeleted (← Action.now))

/-! ## Pages -/

/-- The first records in the order of ids that satisfy a clause and come after a cursor. -/
def page (store : Store B) (base : Clause) (cursor : Option String) (limit : Nat) :
    Action B (List Record) :=
  let clause := match cursor with
    | some id => .all [base, .idAfter id]
    | none => base
  store.find clause [.byId] (some (.first limit))

/-- Visits pages of the records after a cursor that satisfy a clause, in the order of ids. The limit
of a page depends on what has been accumulated so far. A limit of zero, an empty page and a page
that is not full end the walk. -/
def walkFrom {σ : Type} (store : Store B) (base : Clause) (limit : σ → Nat)
    (visit : List Record → σ → Action B σ) :
    (fuel : Nat) → (cursor : Option String) → σ → Action B σ
  | 0, _, acc => pure acc
  | fuel + 1, cursor, acc =>
    if limit acc = 0 then pure acc
    else do
      let records ← store.page base cursor (limit acc)
      match records.getLast? with
      | none => pure acc
      | some last => do
        let next ← visit records acc
        if records.length < limit acc then pure next
        else walkFrom store base limit visit fuel (some last.id) next

/-- Visits pages of the records that satisfy a clause. Each page but the last has records, so that
there are no more pages than records. -/
def walk {σ : Type} (store : Store B) (base : Clause) (limit : σ → Nat)
    (visit : List Record → σ → Action B σ) (start : σ) : Action B σ := do
  let size ← Effect.reading fun w => .ok (B.size store.handle w.storage)
  store.walkFrom base limit visit (size + 1) none start

/-- The batch size that is asked for, or else that of the configuration, unless it is zero. -/
def batchSize (requested : Option Nat) (configured : Nat) : Except StoreError Nat :=
  match requested.getD configured with
  | 0 => refuse .zeroBatch
  | size => .ok size

end Store

end RecordStore
