import RecordStore.Config
import RecordStore.Numeral
import RecordStore.Text.Blank

/-!
# Settings from the environment

A variable of the environment replaces a default. White space around its value does not count, and
numbers are unsigned decimals that may have a plus sign. The settings are read in a fixed order, and
the first that cannot be read is the error.
-/

namespace RecordStore

abbrev Environment := List (String × String)

namespace Environment

/-- Whether an environment can hold a variable: it is written as the name, an equals sign and the
value, and ends at the first null character. -/
def canHold (name value : String) : Bool :=
  !name.isEmpty && !name.contains '=' && !name.contains '\x00' && !value.contains '\x00'

/-- The number below a limit that a text denotes. -/
def number? (limit : Nat) (cs : List Char) : Option Nat :=
  let digits := match cs with
    | '+' :: digits => digits
    | digits => digits
  if digits ≠ [] ∧ digits.all Numeral.isDigit ∧ Numeral.ofDigits digits < limit then
    some (Numeral.ofDigits digits)
  else none

/-- A setting that `read` makes of the value of a variable without the white space around it. -/
def setting {α : Type} (env : Environment) (name : String) (byDefault : α)
    (read : List Char → Option α) : Except ConfigError α :=
  match Keyed.get? name env with
  | none => .ok byDefault
  | some value => match read (Text.trim value.toList) with
    | some a => .ok a
    | none => .error (.invalidValue name value)

def size (env : Environment) (name : String) (byDefault : Nat) : Except ConfigError Nat :=
  env.setting name byDefault (number? (2 ^ 64))

def text (env : Environment) (name : String) (byDefault : String) : Except ConfigError String :=
  env.setting name byDefault fun cs => some (String.ofList cs)

end Environment

def StoreConfig.ofEnvironment (env : Environment) : Except ConfigError StoreConfig := do
  let config : StoreConfig := {
    upsertBatch := ← env.size "OBJDB_UPSERT_BATCH_SIZE" default.upsertBatch
    updateBatch := ← env.size "OBJDB_UPDATE_BATCH_SIZE" default.updateBatch
    deleteBatch := ← env.size "OBJDB_DELETE_BATCH_SIZE" default.deleteBatch
    cleanupBatch := ← env.size "OBJDB_CLEANUP_BATCH_SIZE" default.cleanupBatch
    indexBatch := ← env.size "OBJDB_INDEX_BATCH_SIZE" default.indexBatch
    recordsTable := ← env.text "OBJDB_OBJS_TABLE" default.recordsTable
    fieldsTable := ← env.text "OBJDB_FIELDS_TABLE" default.fieldsTable }
  config.validate
  return config

def DatabaseConfig.ofEnvironment (env : Environment) : Except ConfigError DatabaseConfig := do
  let url ← env.text "OBJDB_DATABASE_URL" default.url
  let connections ← env.setting "OBJDB_MAX_CONNECTIONS" default.maxConnections
    (Environment.number? (2 ^ 32))
  let timeout ← env.size "OBJDB_ACQUIRE_TIMEOUT_SECS" default.acquireTimeoutSeconds
  return ⟨url, connections, timeout⟩

def Config.ofEnvironment (env : Environment) : Except ConfigError Config := do
  let store ← StoreConfig.ofEnvironment env
  let database ← DatabaseConfig.ofEnvironment env
  return ⟨store, database⟩

end RecordStore
