import RecordStore.Record
import RecordStore.Sql.Condition
import RecordStore.Sql.Name

/-!
# Table schemas

The tables of records and of the field catalog, the statements that create them, and the one that
finds rows (`TableSchema.selection`). A table can be created if its name is free
(`TableSchema.creationRefusal?`).
-/

namespace RecordStore

namespace Sql

/-! ## Schemas -/

structure ColumnSchema where
  name : String
  type : String
  nullable : Bool
  primaryKey : Bool
  indexed : Bool
deriving DecidableEq, Inhabited

structure TableSchema where
  name : String
  columns : List ColumnSchema
  /-- Groups of columns that are unique together. -/
  unique : List (List String)
  compositeIndexes : List (List String)
deriving DecidableEq, Inhabited

namespace ColumnSchema

def ofType (type name : String) : ColumnSchema := ⟨name, type, false, false, false⟩

def text (name : String) : ColumnSchema := ofType "TEXT" name

def integer (name : String) : ColumnSchema := ofType "INTEGER" name

def orNull (column : ColumnSchema) : ColumnSchema := { column with nullable := true }

def withIndex (column : ColumnSchema) : ColumnSchema := { column with indexed := true }

def definition (column : ColumnSchema) : String :=
  column.name ++ " " ++ column.type ++ (if column.primaryKey then " PRIMARY KEY" else "") ++
    (if column.nullable then "" else " NOT NULL")

end ColumnSchema

namespace TableSchema

def createStatement (table : TableSchema) : String :=
  let groups := table.unique.map fun group => "UNIQUE (" ++ ", ".intercalate group ++ ")"
  "CREATE TABLE IF NOT EXISTS " ++ table.name ++ " (\n  " ++
    ",\n  ".intercalate (table.columns.map ColumnSchema.definition ++ groups) ++ "\n)"

def indexName (table : TableSchema) (group : List String) : String :=
  "idx_" ++ table.name ++ "_" ++ "_".intercalate group

/-- The statement that creates an index on a group of columns. -/
def indexStatement (table : TableSchema) (group : List String) : String :=
  "CREATE INDEX IF NOT EXISTS " ++ table.indexName group ++ " ON " ++ table.name ++ " (" ++
    ", ".intercalate group ++ ")"

/-- The groups of columns with an index: single ones first. A primary key needs none. -/
def indexGroups (table : TableSchema) : List (List String) :=
  (table.columns.filter fun column => column.indexed && !column.primaryKey).map
    (fun column => [column.name]) ++ table.compositeIndexes

def indexStatements (table : TableSchema) : List String :=
  table.indexGroups.map table.indexStatement

def columnNames (table : TableSchema) : List String := table.columns.map ColumnSchema.name

/-- How a statement that finds rows begins, up to their condition. -/
def selectionLead (table : TableSchema) : String :=
  "SELECT " ++ ", ".intercalate table.columnNames ++ " FROM " ++ table.name ++ " WHERE "

/-- The part of a statement that gives the order of the rows, if they have one. -/
def ordering (order : Fragment) : Fragment :=
  if order.sql.isEmpty then .ofText "" else Fragment.ofText " ORDER BY " ++ order

/-- The part of a statement that gives the page of the rows, if there is one. -/
def paging (page : Option Fragment) : Fragment :=
  match page with
  | some page => Fragment.ofText " " ++ page
  | none => .ofText ""

/-- The statement that finds the rows that satisfy a condition. -/
def selection (table : TableSchema) (condition order : Fragment) (page : Option Fragment) :
    Fragment :=
  Fragment.ofText table.selectionLead ++ condition ++ ordering order ++ paging page

/-- Why the table cannot be created beside some others, if it cannot: its name is no identifier, or
is reserved, or names an index. -/
def creationRefusal? (table : TableSchema) (others : List TableSchema) : Option StoreError :=
  if !isIdentifier table.name then some (.validation (.tableName table.name))
  else if isReserved table.name then some (.backend "name cannot name a table")
  else if others.any fun other =>
      (other.indexGroups.map other.indexName).any (sameName table.name) then
    some (.backend "name names an index")
  else none

end TableSchema

/-- The table of records: a column for every attribute, and the payload as text. -/
def recordsTable (name : String) : TableSchema where
  name := name
  columns := [
    { ColumnSchema.text Column.id.sqlName with primaryKey := true },
    .text Column.appId.sqlName, .text Column.groupId.sqlName, .text Column.tag.sqlName,
    .text payloadColumn,
    (ColumnSchema.integer Column.createdAt.sqlName).withIndex,
    (ColumnSchema.integer Column.updatedAt.sqlName).withIndex,
    .text Column.createdBy.sqlName, .text Column.createdByType.sqlName,
    .text Column.updatedBy.sqlName, .text Column.updatedByType.sqlName,
    (ColumnSchema.integer Column.deletedAt.sqlName).orNull.withIndex,
    (ColumnSchema.text Column.deletedBy.sqlName).orNull,
    (ColumnSchema.text Column.deletedByType.sqlName).orNull,
    .integer Column.shouldIndex.sqlName,
    (ColumnSchema.text Column.fieldsToIndex.sqlName).orNull]
  unique := []
  compositeIndexes := [[Column.appId.sqlName, Column.tag.sqlName]]

def fieldsTable (name : String) : TableSchema where
  name := name
  columns := [
    .text "app_id", .text "group_id", .text "tag", .text "path", .text "field_type",
    (ColumnSchema.text "array_types").orNull, .text "value_types",
    .integer "is_array_compressed", .integer "created_at", .integer "updated_at"]
  unique := [["app_id", "group_id", "tag", "path"]]
  compositeIndexes := []

end Sql

end RecordStore
