import RecordStore.Backend
import RecordStore.Catalog.Memory
import RecordStore.Document.Filter
import RecordStore.Document.Match

/-!
# The collection backend

Records in memory, by id. They are seen as documents: clauses become query documents, which are
evaluated on each record in the order of ids up to the first error. There are no transactions.

A failed insertion changes nothing.
-/

namespace RecordStore

abbrev Collection := List (String × Record)

namespace Collection

/-! ## Finding -/

def satisfies (filter : Value) (r : Record) : Except StoreError Bool :=
  Document.satisfies r.toValue filter

/-- The records that satisfy a query document. -/
def select (filter : Value) : List Record → Except StoreError (List Record)
  | [] => .ok []
  | r :: rest => do
    let selected ← satisfies filter r
    let others ← select filter rest
    return if selected then r :: others else others

def precedes (order : List (String × SortDirection)) (a b : Record) : Bool :=
  Document.compareBy order a.toValue b.toValue != .gt

/-- The records that satisfy a query document, in an order, or a slice of them. -/
def find (filter : Value) (order : List (String × SortDirection)) (slice : Option Slice)
    (records : Collection) : Except StoreError (List Record) := do
  let sorted := (← select filter (Keyed.values records)).mergeSort (precedes order)
  return match slice with
    | some slice => slice.of sorted
    | none => sorted

/-- The number of records that satisfy a query document. -/
def count (filter : Value) (records : Collection) : Except StoreError Nat :=
  return (← select filter (Keyed.values records)).length

/-! ## Writing -/

/-- The records with some new ones, none of which may be there. -/
def insert (records : Collection) : List Record → Except StoreError Collection
  | [] => .ok records
  | r :: rest =>
    if Keyed.contains r.id records then .error (.conflict (.duplicateId r.id))
    else insert (Keyed.insert r.id r records) rest

def replaceOne (counted : Nat × Collection) (r : Record) : Nat × Collection :=
  if Keyed.contains r.id counted.2 then (counted.1 + 1, Keyed.insert r.id r counted.2)
  else counted

def replace (replacements : List Record) (records : Collection) : Nat × Collection :=
  replacements.foldl replaceOne (0, records)

/-- Marks the records that satisfy a query document, up to the first error. -/
def markDeleted (filter : Value) (mark : DeletionMark) :
    Collection → Except StoreError Nat × Collection
  | [] => (.ok 0, [])
  | (id, r) :: rest => match satisfies filter r with
    | .error e => (.error e, (id, r) :: rest)
    | .ok selected =>
      let (marked, rest) := markDeleted filter mark rest
      if selected then (marked.map (· + 1), (id, r.markDeleted mark) :: rest)
      else (marked, (id, r) :: rest)

/-- Removes a record if it is there, and counts it. -/
def removeOne (counted : Nat × Collection) (id : String) : Nat × Collection :=
  if Keyed.contains id counted.2 then (counted.1 + 1, Keyed.erase id counted.2) else counted

def remove (ids : List String) (records : Collection) : Nat × Collection :=
  ids.foldl removeOne (0, records)

end Collection

/-! ## The memory -/

structure Memory where
  records : Collection
  fields : CatalogMap

namespace Memory

def empty : Memory := ⟨[], []⟩

def recordsPart : Part Memory Collection where
  get := records
  put t memory := { memory with records := t }

def fieldsPart : Part Memory CatalogMap where
  get := fields
  put t memory := { memory with fields := t }

def onRecords {α : Type} (effect : Effect Collection α) : Effect Memory α := effect.on recordsPart

end Memory

/-- The backend that keeps its records in memory. -/
def collectionBackend : Backend where
  State := Memory
  Handle := Unit
  insert _ batch := Memory.onRecords (.ofFunction fun records =>
    match records.insert batch with
    | .ok records => (.ok (), records)
    | .error e => (.error e, records))
  find _ clause keys slice := Memory.onRecords
    (.reading (Collection.find clause.document (SortKey.documentOrder keys) slice))
  count _ clause := Memory.onRecords (.reading (Collection.count clause.document))
  replace _ batch := Memory.onRecords (.total (Collection.replace batch))
  markDeleted _ clause mark :=
    Memory.onRecords (.ofFunction (Collection.markDeleted clause.document mark))
  remove _ ids := Memory.onRecords (.total (Collection.remove ids))
  size _ memory := memory.records.length
  begin? _ := pure none
  commit _ := pure ()
  rollback _ := pure ()
  catalog := memoryCatalog.on Memory.fieldsPart

end RecordStore
