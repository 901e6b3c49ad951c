import RecordStore.Sql.Schema
import RecordStore.Text.Occurrence
import RecordStore.Text.Quoted
import RecordStore.Wire

/-!
# Configuration

Batch sizes and table names of a store (`StoreConfig`), how its database is reached
(`DatabaseConfig`), and both together (`Config`). Every setting has a default. A store configuration
is acceptable if `StoreConfig.validate` says so: no batch size is zero, and tables are named by
identifiers.
-/

namespace RecordStore

/-- Why a configuration is refused. -/
inductive ConfigError where
  /-- The value of a variable cannot be read. -/
  | invalidValue (setting value : String)
  | tableName (name : String)
  | zeroSize (setting : String)
  | missingFile
  | malformedFile
deriving DecidableEq, Inhabited

def ConfigError.message : ConfigError → String
  | invalidValue setting value => "Invalid value for " ++ setting ++ ": " ++ Text.quoted value
  | tableName name => "Invalid table name: " ++ Text.quoted name
  | zeroSize setting => setting ++ " must be at least 1"
  | missingFile => "configuration file cannot be read"
  | malformedFile => "configuration file is malformed"

def requireIdentifier (name : String) : Except ConfigError Unit :=
  if Sql.isIdentifier name then .ok () else .error (.tableName name)

/-! ## The store -/

structure StoreConfig where
  upsertBatch : Nat
  updateBatch : Nat
  deleteBatch : Nat
  cleanupBatch : Nat
  indexBatch : Nat
  recordsTable : String
  fieldsTable : String
deriving DecidableEq, Inhabited

namespace StoreConfig

def default : StoreConfig := ⟨20, 1000, 1000, 1000, 500, "objs", "obj_fields"⟩

def sizes (config : StoreConfig) : List (String × Nat) := [
  ("upsert_batch_size", config.upsertBatch), ("update_batch_size", config.updateBatch),
  ("delete_batch_size", config.deleteBatch), ("cleanup_batch_size", config.cleanupBatch),
  ("index_batch_size", config.indexBatch)]

/-- Refuses the first batch size that is zero, or else the first table name that is no
identifier. -/
def validate (config : StoreConfig) : Except ConfigError Unit :=
  match config.sizes.find? fun entry => entry.2 == 0 with
  | some (setting, _) => .error (.zeroSize setting)
  | none => do
    requireIdentifier config.recordsTable
    requireIdentifier config.fieldsTable

def memberNames : List String := [
  "upsert_batch_size", "update_batch_size", "delete_batch_size", "cleanup_batch_size",
  "index_batch_size", "objs_table", "fields_table"]

def toValue (config : StoreConfig) : Value :=
  .object [
    ("cleanup_batch_size", .int config.cleanupBatch),
    ("delete_batch_size", .int config.deleteBatch),
    ("fields_table", .string config.fieldsTable),
    ("index_batch_size", .int config.indexBatch),
    ("objs_table", .string config.recordsTable),
    ("update_batch_size", .int config.updateBatch),
    ("upsert_batch_size", .int config.upsertBatch)]

def ofValue? (v : Value) : Option StoreConfig := do
  let member ← Wire.members? memberNames false v
  let size := fun name byDefault => Wire.defaulted byDefault Wire.size? (member name)
  let table := fun name byDefault => Wire.defaulted byDefault Value.string? (member name)
  some {
    upsertBatch := ← size "upsert_batch_size" default.upsertBatch
    updateBatch := ← size "update_batch_size" default.updateBatch
    deleteBatch := ← size "delete_batch_size" default.deleteBatch
    cleanupBatch := ← size "cleanup_batch_size" default.cleanupBatch
    indexBatch := ← size "index_batch_size" default.indexBatch
    recordsTable := ← table "objs_table" default.recordsTable
    fieldsTable := ← table "fields_table" default.fieldsTable }

end StoreConfig

/-! ## The database -/

structure DatabaseConfig where
  url : String
  maxConnections : Nat
  acquireTimeoutSeconds : Nat
deriving DecidableEq, Inhabited

namespace DatabaseConfig

def default : DatabaseConfig := ⟨"sqlite::memory:", 5, 30⟩

/-- Whether the database lives in memory, and no longer than its one connection. -/
def isInMemory (config : DatabaseConfig) : Bool :=
  Text.occursIn ":memory:".toList config.url.toList ||
    Text.occursIn "mode=memory".toList config.url.toList

def memberNames : List String := ["database_url", "max_connections", "acquire_timeout_secs"]

def toValue (config : DatabaseConfig) : Value :=
  .object [
    ("acquire_timeout_secs", .int config.acquireTimeoutSeconds),
    ("database_url", .string config.url),
    ("max_connections", .int config.maxConnections)]

def ofValue? (v : Value) : Option DatabaseConfig := do
  let member ← Wire.members? memberNames false v
  let url := member "database_url"
  let connections := member "max_connections"
  let timeout := member "acquire_timeout_secs"
  some {
    url := ← Wire.defaulted default.url Value.string? url
    maxConnections := ← Wire.defaulted default.maxConnections (Wire.nat? (2 ^ 32)) connections
    acquireTimeoutSeconds := ← Wire.defaulted default.acquireTimeoutSeconds Wire.size? timeout }

end DatabaseConfig

/-! ## Both together -/

structure Config where
  store : StoreConfig
  database : DatabaseConfig
deriving DecidableEq, Inhabited

namespace Config

def default : Config := ⟨.default, .default⟩

def toValue (config : Config) : Value :=
  .object [("sqlite", config.database.toValue), ("store", config.store.toValue)]

def ofValue? (v : Value) : Option Config := do
  let member ← Wire.members? ["store", "sqlite"] false v
  some {
    store := ← Wire.defaulted .default StoreConfig.ofValue? (member "store")
    database := ← Wire.defaulted .default DatabaseConfig.ofValue? (member "sqlite") }

end Config

end RecordStore
