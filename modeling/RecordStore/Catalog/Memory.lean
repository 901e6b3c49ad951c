import RecordStore.Catalog

/-!
# The catalog as nested maps

The rows of every partition that has any, by path. A partition whose last row goes is forgotten.
-/

namespace RecordStore

abbrev CatalogMap := List (Partition × List (String × FieldRow))

namespace CatalogMap

def rowsOf (partition : Partition) (map : CatalogMap) : List (String × FieldRow) :=
  (Keyed.get? partition map).getD []

def upsert (partition : Partition) (descriptors : List Descriptor) (now : Instant)
    (map : CatalogMap) : List FieldRow × CatalogMap :=
  if descriptors.isEmpty then ([], map)
  else
    let current := map.rowsOf partition
    let written := writtenRows partition now current descriptors
    let current := written.foldl (fun rows row => Keyed.insert row.path row rows) current
    (written, Keyed.insert partition current map)

def deleteField (counted : Nat × List (String × FieldRow)) (path : String) :
    Nat × List (String × FieldRow) :=
  if Keyed.contains path counted.2 then (counted.1 + 1, Keyed.erase path counted.2) else counted

def deleteFields (partition : Partition) (paths : List String) (map : CatalogMap) :
    Nat × CatalogMap :=
  match Keyed.get? partition map with
  | none => (0, map)
  | some rows =>
    let (count, rows) := paths.foldl deleteField (0, rows)
    if rows.isEmpty then (count, Keyed.erase partition map)
    else (count, Keyed.insert partition rows map)

def deletePartition (partition : Partition) (map : CatalogMap) : Nat × CatalogMap :=
  ((map.rowsOf partition).length, Keyed.erase partition map)

def partitions (appId : Option String) (map : CatalogMap) : List Partition :=
  (Keyed.keys map).filter fun p => appId.all (p.appId == ·)

end CatalogMap

def memoryCatalog : Catalog CatalogMap where
  upsert p descriptors now := .total (CatalogMap.upsert p descriptors now)
  rows p := .reading fun map => .ok (Keyed.values (map.rowsOf p))
  deleteFields p paths := .total (CatalogMap.deleteFields p paths)
  deletePartition p := .total (CatalogMap.deletePartition p)
  partitions appId := .reading fun map => .ok (map.partitions appId)

end RecordStore
