import RecordStore.Descriptor
import RecordStore.Effect
import RecordStore.Query.Order

/-!
# The field catalog

The catalog keeps, for every partition of the records, a row per path that has been observed in
payloads. Rows are made by folding descriptors into them (`FieldRow.fold`): observed types are only
ever added. `Catalog` is what an implementation offers; `Catalog.requireIndexed` is the test of
paths that a request may use.
-/

namespace RecordStore

/-! ## Partitions -/

/-- The records of one tag in a group of an application. -/
structure Partition where
  appId : String
  groupId : String
  tag : String
deriving DecidableEq, Inhabited

namespace Partition

def parts (p : Partition) : List String := [p.appId, p.groupId, p.tag]

instance : LT Partition := ⟨fun p q => p.parts < q.parts⟩

instance : DecidableLT Partition := fun p q => inferInstanceAs (Decidable (p.parts < q.parts))

def ofRecord (r : Record) : Partition := ⟨r.appId, r.groupId, r.tag⟩

/-- The different ones of some partitions, in order, of one application or of all. -/
def distinct (appId : Option String) (partitions : List Partition) : List Partition :=
  let selected := partitions.filter fun p => appId.all (p.appId == ·)
  Keyed.keys (Keyed.ofList (selected.map fun p => (p, ())))

def toValue (p : Partition) : Value :=
  .object [("appId", .string p.appId), ("groupId", .string p.groupId), ("tag", .string p.tag)]

def ofValue? (v : Value) : Option Partition := do
  let member ← Wire.members? ["appId", "groupId", "tag"] false v
  some {
    appId := ← Wire.required Value.string? (member "appId")
    groupId := ← Wire.required Value.string? (member "groupId")
    tag := ← Wire.required Value.string? (member "tag") }

end Partition

/-! ## Rows -/

/-- What is known of a path in a partition. -/
structure FieldRow where
  partition : Partition
  path : String
  type : LeafType
  /-- The types of all elements, if the path has a wildcard. -/
  arrayTypes : Option TypeSet
  valueTypes : TypeSet
  isCompressed : Bool
  createdAt : Instant
  updatedAt : Instant
deriving DecidableEq, Inhabited

namespace FieldRow

/-- The first row of a path. -/
def start (partition : Partition) (descriptor : Descriptor) (now : Instant) : FieldRow where
  partition := partition
  path := descriptor.path
  type := descriptor.type
  arrayTypes := descriptor.arrayTypes
  valueTypes := descriptor.types
  isCompressed := descriptor.isCompressed
  createdAt := now
  updatedAt := now

/-- The row after one more descriptor. A plain row keeps its type; a compressed descriptor makes the
row compressed and its type that of all element types together. -/
def add (row : FieldRow) (descriptor : Descriptor) (now : Instant) : FieldRow :=
  let row := { row with valueTypes := row.valueTypes.union descriptor.types, updatedAt := now }
  if descriptor.isCompressed then
    let arrayTypes := (row.arrayTypes.getD .empty).union descriptor.types
    { row with
      type := arrayTypes.representative
      arrayTypes := some arrayTypes
      isCompressed := true }
  else row

/-- Folds a descriptor into the row of its path, if there is one. -/
def fold (existing : Option FieldRow) (partition : Partition) (descriptor : Descriptor)
    (now : Instant) : FieldRow :=
  match existing with
  | some row => row.add descriptor now
  | none => start partition descriptor now

def toValue (row : FieldRow) : Value :=
  .object (
    ("appId", .string row.partition.appId) ::
    (Wire.present "arrayTypes" TypeSet.toValue row.arrayTypes ++ [
      ("createdAt", .int row.createdAt.toInt),
      ("groupId", .string row.partition.groupId),
      ("isArrayCompressed", .bool row.isCompressed),
      ("path", .string row.path),
      ("tag", .string row.partition.tag),
      ("type", row.type.toValue),
      ("updatedAt", .int row.updatedAt.toInt),
      ("valueTypes", row.valueTypes.toValue)]))

def memberNames : List String := [
  "appId", "groupId", "tag", "path", "type", "arrayTypes", "valueTypes", "isArrayCompressed",
  "createdAt", "updatedAt"]

def ofValue? (v : Value) : Option FieldRow := do
  let member ← Wire.members? memberNames false v
  some {
    partition := {
      appId := ← Wire.required Value.string? (member "appId")
      groupId := ← Wire.required Value.string? (member "groupId")
      tag := ← Wire.required Value.string? (member "tag") }
    path := ← Wire.required Value.string? (member "path")
    type := ← Wire.required LeafType.ofValue? (member "type")
    arrayTypes := ← Wire.optional TypeSet.ofValue? (member "arrayTypes")
    valueTypes := ← Wire.required TypeSet.ofValue? (member "valueTypes")
    isCompressed := ← Wire.required Value.bool? (member "isArrayCompressed")
    createdAt := ← Wire.required Wire.int64? (member "createdAt")
    updatedAt := ← Wire.required Wire.int64? (member "updatedAt") }

end FieldRow

/-! ## Folding a batch -/

/-- The rows of a partition by path after some descriptors, folded in order. -/
def foldDescriptors (partition : Partition) (now : Instant) (rows : List (String × FieldRow))
    (descriptors : List Descriptor) : List (String × FieldRow) :=
  descriptors.foldl (fun rows descriptor =>
    let path := descriptor.path
    Keyed.insert path (.fold (Keyed.get? path rows) partition descriptor now) rows) rows

/-- The paths of some descriptors, each once, in the order of their first occurrence. -/
def touchedPaths (descriptors : List Descriptor) : List String :=
  (descriptors.map Descriptor.path).foldl
    (fun seen path => if seen.contains path then seen else seen ++ [path]) []

/-- The rows that a batch of descriptors writes, in the order in which their paths first occur. -/
def writtenRows (partition : Partition) (now : Instant) (rows : List (String × FieldRow))
    (descriptors : List Descriptor) : List FieldRow :=
  let folded := foldDescriptors partition now rows descriptors
  (touchedPaths descriptors).filterMap fun path => Keyed.get? path folded

/-! ## Implementations -/

/-- What a catalog offers, on a state. -/
structure Catalog (σ : Type) where
  /-- Folds descriptors into the rows of a partition, and returns the rows written. -/
  upsert : Partition → List Descriptor → Instant → Effect σ (List FieldRow)
  rows : Partition → Effect σ (List FieldRow)
  /-- Deletes rows by path, and returns how many there were. -/
  deleteFields : Partition → List String → Effect σ Nat
  /-- Deletes all rows of a partition, and returns how many there were. -/
  deletePartition : Partition → Effect σ Nat
  /-- The partitions that have rows, in order, of one application or of all. -/
  partitions : Option String → Effect σ (List Partition)

namespace Catalog

variable {σ τ : Type}

def on (part : Part σ τ) (catalog : Catalog τ) : Catalog σ where
  upsert p descriptors now := (catalog.upsert p descriptors now).on part
  rows p := (catalog.rows p).on part
  deleteFields p paths := (catalog.deleteFields p paths).on part
  deletePartition p := (catalog.deletePartition p).on part
  partitions appId := (catalog.partitions appId).on part

/-- Refuses paths that have no row in a partition. -/
def requireIndexed (catalog : Catalog σ) (partition : Partition) (paths : List String) :
    Effect σ Unit := do
  unless paths.isEmpty do
    let known := (← catalog.rows partition).map FieldRow.path
    let missing := paths.filter fun path => !known.contains path
    unless missing.isEmpty do
      .ofExcept (refuse (.notIndexed partition.appId partition.groupId partition.tag missing))

/-- Refuses sort fields that are no attributes and have no row in a partition. -/
def validateSort (catalog : Catalog σ) (partition : Partition) (items : List SortItem) :
    Effect σ Unit := do
  let keys ← Effect.ofExcept (items.mapM SortKey.resolve)
  let paths := keys.filterMap fun key => match key.target with
    | .payload path => some path.text
    | .column _ => none
  catalog.requireIndexed partition paths

end Catalog

end RecordStore
