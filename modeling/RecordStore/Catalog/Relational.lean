import RecordStore.Catalog
import RecordStore.Pieces
import RecordStore.Value.Reader

/-!
# The catalog as a table

One table holds the rows of all partitions, with the partition and the path as their key. It has
types by their names and sets of types as JSON texts, so that a row is written by encoding it and
read by decoding it (`StoredRow`). Rows are selected and deleted by their paths, some hundred at a
time, and sorted when they are listed. What is done with a row whose key is there already is a
parameter of `CatalogTable.upsert`: such a row is updated (`write`), or left as it is (`writeNew`).
-/

namespace RecordStore

/-! ## Rows -/

namespace TypeSet

/-- The text of a set of types, a list of their names. -/
def text (types : TypeSet) : String := types.toValue.render

def ofText? (text : String) : Option TypeSet := (Value.read? text).bind ofValue?

end TypeSet

/-- A row as the table has it. -/
structure StoredRow where
  partition : Partition
  path : String
  type : String
  arrayTypes : Option String
  valueTypes : String
  isCompressed : Bool
  createdAt : Instant
  updatedAt : Instant
deriving DecidableEq, Inhabited

namespace StoredRow

def ofRow (row : FieldRow) : StoredRow where
  partition := row.partition
  path := row.path
  type := row.type.name
  arrayTypes := row.arrayTypes.map TypeSet.text
  valueTypes := row.valueTypes.text
  isCompressed := row.isCompressed
  createdAt := row.createdAt
  updatedAt := row.updatedAt

def readType (name : String) : Except StoreError LeafType :=
  match LeafType.ofName? name with
  | some t => .ok t
  | none => .error (.serialization ("unknown field type " ++ Text.quoted name))

def readTypes (text : String) : Except StoreError TypeSet :=
  match TypeSet.ofText? text with
  | some types => .ok types
  | none => .error (.serialization "no set of types")

/-- The row that is stored, if its types can be read. -/
def read (stored : StoredRow) : Except StoreError FieldRow := do
  let type ← readType stored.type
  let arrayTypes ← match stored.arrayTypes with
    | some text => (readTypes text).map some
    | none => .ok none
  let valueTypes ← readTypes stored.valueTypes
  return {
    partition := stored.partition
    path := stored.path
    type := type
    arrayTypes := arrayTypes
    valueTypes := valueTypes
    isCompressed := stored.isCompressed
    createdAt := stored.createdAt
    updatedAt := stored.updatedAt }

end StoredRow

/-! ## The table -/

/-- The rows of all partitions, in the order in which they were inserted. -/
abbrev CatalogTable := List StoredRow

namespace CatalogTable

/-- The greatest number of paths that a statement names. -/
def maxPaths : Nat := 500

/-- The paths of some descriptors, each once, in order. -/
def mentionedPaths (descriptors : List Descriptor) : List String :=
  Keyed.keys (Keyed.ofList (descriptors.map fun descriptor => (descriptor.path, ())))

def inPartition (partition : Partition) (table : CatalogTable) : List StoredRow :=
  table.filter fun row => row.partition = partition

/-- The rows of a partition at some paths. -/
def atPaths (partition : Partition) (paths : List String) (table : CatalogTable) :
    List StoredRow :=
  (table.inPartition partition).filter fun row => paths.contains row.path

/-- The rows of a partition at any number of paths, found with a few paths at a time. -/
def selected (partition : Partition) (paths : List String) (table : CatalogTable) :
    List StoredRow :=
  (pieces maxPaths paths).flatMap fun piece => table.atPaths partition piece

def sameKey (a b : StoredRow) : Bool := a.partition = b.partition && a.path == b.path

/-- A row as a write updates it: all but the time of creation is new. -/
def updated (row written : StoredRow) : StoredRow := { written with createdAt := row.createdAt }

/-- Writes a row: updates the row with its key, or inserts it. -/
def write (table : CatalogTable) (written : StoredRow) : CatalogTable :=
  if table.any (sameKey · written) then
    table.map fun row => if sameKey row written then updated row written else row
  else table ++ [written]

/-- Writes a row unless there is one with its key. -/
def writeNew (table : CatalogTable) (written : StoredRow) : CatalogTable :=
  if table.any (sameKey · written) then table else table ++ [written]

/-- Folds descriptors into the rows of a partition, and writes what they become. -/
def upsert (write : CatalogTable → StoredRow → CatalogTable) (partition : Partition)
    (descriptors : List Descriptor) (now : Instant) (table : CatalogTable) :
    Except StoreError (List FieldRow) × CatalogTable :=
  if descriptors.isEmpty then (.ok [], table)
  else
    match (table.selected partition (mentionedPaths descriptors)).mapM StoredRow.read with
    | .error e => (.error e, table)
    | .ok rows =>
      let current := Keyed.ofList (rows.map fun row => (row.path, row))
      let written := writtenRows partition now current descriptors
      (.ok written, (written.map StoredRow.ofRow).foldl write table)

/-- The rows of a partition in the order of their paths. -/
def listed (partition : Partition) (table : CatalogTable) : List StoredRow :=
  (table.inPartition partition).mergeSort fun a b => a.path ≤ b.path

/-- Deletes the rows of a partition at some paths, and counts them. -/
def deletePaths (partition : Partition) (counted : Nat × CatalogTable) (paths : List String) :
    Nat × CatalogTable :=
  let gone := fun (row : StoredRow) => row.partition = partition ∧ row.path ∈ paths
  (counted.1 + counted.2.countP (fun row => gone row), counted.2.filter fun row => ¬ gone row)

def deleteFields (partition : Partition) (paths : List String) (table : CatalogTable) :
    Nat × CatalogTable :=
  (pieces maxPaths paths).foldl (deletePaths partition) (0, table)

def deletePartition (partition : Partition) (table : CatalogTable) : Nat × CatalogTable :=
  ((table.inPartition partition).length, table.filter fun row => row.partition ≠ partition)

/-- The distinct partitions of the rows, in order, of one application or of all. -/
def partitions (appId : Option String) (table : CatalogTable) : List Partition :=
  Partition.distinct appId (table.map StoredRow.partition)

end CatalogTable

/-- The catalog that keeps its rows in a table. -/
def tableCatalog : Catalog CatalogTable where
  upsert p descriptors now := .ofFunction (CatalogTable.upsert CatalogTable.write p descriptors now)
  rows p := .reading fun table => (table.listed p).mapM StoredRow.read
  deleteFields p paths := .total (CatalogTable.deleteFields p paths)
  deletePartition p := .total (CatalogTable.deletePartition p)
  partitions appId := .reading fun table => .ok (table.partitions appId)

end RecordStore
