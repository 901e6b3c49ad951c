import RecordStore.Backend
import RecordStore.Catalog.Relational
import RecordStore.Config
import RecordStore.Sql.Statement
import RecordStore.Value.Reader

/-!
# The table backend

Records in a table of a database with one connection. Clauses become SQL conditions. A statement on
the rows that satisfy one may fail, and changes nothing then (`Rows.run`). A transaction holds the
connection until it is committed or rolled back, and takes back its changes by returning to the rows
that it has found.

The catalog is another table of the database, unless both have one name: then no table of its own is
created for it, and what it does it does to the records (`Database.catalog`).

A batch of writes on the database itself is a transaction of its own, so that a failed batch changes
nothing. In an open transaction the writes of a failed batch stay until the transaction ends.
-/

namespace RecordStore

/-! ## Rows -/

/-- The record of a row, whose payload is read from its text. -/
def Record.ofRow (row : Record) : Except StoreError Record :=
  match Value.read? row.payload.render with
  | some payload => .ok { row with payload := payload }
  | none => .error (.serialization "payload cannot be read")

/-- The rows of the table, in the order in which they were inserted. -/
abbrev Rows := List Record

namespace Rows

/-- Inserts a row, whose id has to be new. -/
def insertOne (table : String) (r : Record) : Effect Rows Unit := .ofFunction fun rows =>
  if rows.any fun row => row.id == r.id then
    (.error (.conflict (.uniqueColumn table Column.id.sqlName)), rows)
  else (.ok (), rows ++ [r])

def insert (table : String) : List Record → Effect Rows Unit
  | [] => pure ()
  | r :: rest => do
    insertOne table r
    insert table rest

/-- The selected rows in an order, or a slice of them. -/
def find (condition : Sql.Condition) (keys : List SortKey) (slice : Option Slice) (rows : Rows) :
    List Record :=
  let sorted := (rows.filter condition.selects).mergeSort fun a b =>
    SortKey.compareRows keys a b != .gt
  match slice with
  | some slice => slice.rows sorted
  | none => sorted

/-- Replaces the row with the id of a record, and counts it. -/
def replaceOne (counted : Nat × Rows) (r : Record) : Nat × Rows :=
  (counted.1 + counted.2.countP (fun row => row.id == r.id),
    counted.2.map fun row => if row.id == r.id then r else row)

def replace (replacements : List Record) (rows : Rows) : Nat × Rows :=
  replacements.foldl replaceOne (0, rows)

def markDeleted (condition : Sql.Condition) (mark : DeletionMark) (rows : Rows) : Nat × Rows :=
  (rows.countP condition.selects,
    rows.map fun row => if condition.selects row then row.markDeleted mark else row)

def remove (ids : List String) (rows : Rows) : Nat × Rows :=
  (rows.countP (fun row => ids.contains row.id), rows.filter fun row => !ids.contains row.id)

/-- What a statement does to the rows, in a database with some tables. If it fails it has changed
nothing. -/
def run {α : Type} (tables : List String) (statement : Sql.Statement) (f : Rows → α × Rows) :
    Effect Rows α :=
  .ofFunction fun rows => match statement.refusal? tables rows with
    | some e => (.error e, rows)
    | none => (.ok (f rows).1, (f rows).2)

/-- The partitions of the rows, in order, of one application or of all. -/
def partitions (appId : Option String) (rows : Rows) : List Partition :=
  Partition.distinct appId (rows.map Partition.ofRecord)

/-- Deletes the rows of a partition, and returns how many there were. -/
def deletePartition (p : Partition) (rows : Rows) : Nat × Rows :=
  (rows.countP fun row => Partition.ofRecord row = p,
    rows.filter fun row => Partition.ofRecord row ≠ p)

end Rows

/-! ## Statements -/

def Sql.Statement.finding (condition : Sql.Condition) (keys : List SortKey)
    (slice : Option Slice) : Sql.Statement := ⟨condition, keys, slice, 0⟩

def Sql.Statement.counting (condition : Sql.Condition) : Sql.Statement := ⟨condition, [], none, 0⟩

/-- The statement that marks rows, which brings the mark as parameters. -/
def Sql.Statement.marking (condition : Sql.Condition) : Sql.Statement := ⟨condition, [], none, 3⟩

/-! ## The database -/

/-- A database with a table of records and one of the catalog. -/
structure Database where
  recordsTable : String
  fieldsTable : String
  rows : Rows
  fields : CatalogTable
  /-- The rows of records as the open transaction has found them, if one is open. -/
  found : Option Rows
  /-- How many transactions have been opened so far. -/
  opened : Nat
deriving DecidableEq, Inhabited

/-- How a database is reached. -/
inductive Connection where
  | direct
  | bound (n : Nat)
deriving DecidableEq, Inhabited

namespace Database

def empty (recordsTable fieldsTable : String) : Database :=
  ⟨recordsTable, fieldsTable, [], [], none, 0⟩

/-- An empty database with the tables of a configuration, if they can be created. The table of
records comes first. -/
def ofConfig (config : StoreConfig) : Except StoreError Database :=
  let records := Sql.recordsTable config.recordsTable
  let fields := Sql.fieldsTable config.fieldsTable
  match (records.creationRefusal? []).or (fields.creationRefusal? [records]) with
  | some e => .error e
  | none => .ok (empty config.recordsTable config.fieldsTable)

def tables (db : Database) : List String := [db.recordsTable, db.fieldsTable]

def isShared (db : Database) : Bool := Sql.sameName db.recordsTable db.fieldsTable

def rowsPart : Part Database Rows where
  get := rows
  put t db := { db with rows := t }

/-- The rows of the catalog's own table are a part of the database. -/
def fieldsPart : Part Database CatalogTable where
  get := fields
  put t db := { db with fields := t }

/-! ### Connections -/

/-- Why a connection cannot be used, if it cannot. -/
def refusal? (db : Database) : Connection → Option StoreError
  | .direct => if db.found.isSome then some (.backend "connection in use") else none
  | .bound n =>
    if db.found.isSome ∧ n = db.opened then none
    else some (.backend "transaction already finished")

/-- A computation on a part of the database, through a connection that can be used. -/
def access {τ α : Type} (part : Part Database τ) (connection : Connection) (effect : Effect τ α) :
    Effect Database α :=
  .ofFunction fun db => match db.refusal? connection with
    | some e => (.error e, db)
    | none =>
      let (result, t) := effect.result (part.get db)
      match connection, result with
      | .direct, .error e => (.error e, db)
      | _, result => (result, part.put t db)

def run {α : Type} (connection : Connection) (statement : Sql.Statement) (f : Rows → α × Rows) :
    Effect Database α :=
  .depending fun db => access rowsPart connection (Rows.run db.tables statement f)

/-- The records that a statement finds. It has run when they are read. -/
def find (connection : Connection) (condition : Sql.Condition) (keys : List SortKey)
    (slice : Option Slice) : Effect Database (List Record) := do
  let rows ← run connection (.finding condition keys slice) fun rows =>
    (rows.find condition keys slice, rows)
  .ofExcept (rows.mapM Record.ofRow)

/-- A batch of writes. The connection is not used if there is nothing to write. -/
def write {α β : Type} (connection : Connection) (batch : List α) (nothing : β)
    (effect : Effect Rows β) : Effect Database β :=
  if batch.isEmpty then pure nothing else access rowsPart connection effect

def begin? (connection : Connection) : Effect Database (Option Connection) :=
  match connection with
  | .bound _ => pure none
  | .direct => .ofFunction fun db => match db.refusal? .direct with
    | some e => (.error e, db)
    | none => (.ok (some (.bound (db.opened + 1))),
        { db with found := some db.rows, opened := db.opened + 1 })

/-- Closes a transaction, which leaves the rows that `final` makes of those that it has found and
those that it has written. -/
def close (connection : Connection) (final : (found written : Rows) → Rows) :
    Effect Database Unit :=
  match connection with
  | .direct => pure ()
  | .bound n => .ofFunction fun db => match db.refusal? (.bound n), db.found with
    | none, some found => (.ok (), { db with rows := final found db.rows, found := none })
    | some e, _ => (.error e, db)
    | none, none => (.ok (), db)

/-! ### The catalog -/

/-- A computation on the table of the catalog: its own, or that of the records. -/
def onFields {α : Type} (own : Effect CatalogTable α) (shared : Effect Rows α) :
    Effect Database α :=
  .depending fun db =>
    if db.isShared then access rowsPart .direct shared else access fieldsPart .direct own

/-- What the statements that name a path do to the records, which have none. -/
def lackingPath {α : Type} : Effect Rows α := .ofExcept (.error (.backend "no such column: path"))

/-- The catalog's own table. If its name is what an insertion calls the new row then an update that
refers to the new row refers to the old one, and changes nothing. -/
def ownCatalog (name : String) : Catalog CatalogTable :=
  if Sql.sameName name Sql.insertedRow then
    { tableCatalog with
      upsert p descriptors now :=
        .ofFunction (CatalogTable.upsert CatalogTable.writeNew p descriptors now) }
  else tableCatalog

/-- The catalog in a database. If it has no table of its own it tells and deletes the partitions of
the records, and fails where paths are concerned. -/
def catalog : Catalog Database where
  upsert p descriptors now := .depending fun db =>
    if descriptors.isEmpty then pure []
    else onFields ((ownCatalog db.fieldsTable).upsert p descriptors now) lackingPath
  rows p := onFields (tableCatalog.rows p) lackingPath
  deleteFields p paths :=
    if paths.isEmpty then pure 0 else onFields (tableCatalog.deleteFields p paths) lackingPath
  deletePartition p := onFields (tableCatalog.deletePartition p) (.total (Rows.deletePartition p))
  partitions appId := onFields (tableCatalog.partitions appId)
    (.reading fun rows => .ok (rows.partitions appId))

end Database

/-- The backend that keeps its records in a table. -/
def tableBackend : Backend where
  State := Database
  Handle := Connection
  insert connection batch := .depending fun db =>
    Database.write connection batch () (Rows.insert db.recordsTable batch)
  find connection clause keys slice := Database.find connection clause.condition keys slice
  count connection clause := Database.run connection (.counting clause.condition) fun rows =>
    (rows.countP clause.condition.selects, rows)
  replace connection batch := Database.write connection batch 0 (.total (Rows.replace batch))
  markDeleted connection clause mark := Database.run connection (.marking clause.condition)
    (Rows.markDeleted clause.condition mark)
  remove connection ids := Database.write connection ids 0 (.total (Rows.remove ids))
  size _ db := db.rows.length
  begin? := Database.begin?
  commit connection := Database.close connection fun _ written => written
  rollback connection := Database.close connection fun found _ => found
  catalog := Database.catalog

end RecordStore
