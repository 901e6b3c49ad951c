import RecordStore.Config
import RecordStore.Yaml.Node

/-!
# Settings from a file

A configuration file is a mapping of sections, and a section a mapping of settings. Settings that
are left out have their defaults, names that mean nothing are ignored, and a setting that is given
twice is refused. Sizes are plain scalars, decimal without superfluous zeros or with a mark of their
base; any scalar is a text.
-/

namespace RecordStore

namespace Yaml

/-! ## Scalars -/

/-- The value of a digit in a base of at most 16. -/
def digitValue? (base : Nat) (c : Char) : Option Nat :=
  (Value.hexValue? c).bind fun n => if n < base then some n else none

/-- The number that some digits denote in a base. -/
def natural? (base : Nat) : List Char → Option Nat
  | [] => none
  | cs => cs.foldlM (fun n c => (digitValue? base c).map (base * n + ·)) 0

/-- The unsigned number that a plain scalar denotes. -/
def unsigned? (cs : List Char) : Option Nat :=
  let unsigned := match cs with
    | '+' :: rest => rest
    | cs => cs
  match unsigned with
  | '0' :: 'x' :: rest => natural? 16 rest
  | '0' :: 'o' :: rest => natural? 8 rest
  | '0' :: 'b' :: rest => natural? 2 rest
  | '0' :: _ :: _ => none
  | digits => natural? 10 digits

namespace Node

/-- The number below a limit that a plain scalar denotes. -/
def size? (limit : Nat) : Node → Option Nat
  | .scalar true text => (unsigned? text.toList).bind fun n => if n < limit then some n else none
  | _ => none

def text? : Node → Option String
  | .scalar _ text => some text
  | _ => none

/-- The settings of a section, of which none is given twice. Their names are scalars. An empty
scalar has no settings. -/
def settings? (names : List String) : Node → Option (String → Option Node)
  | .mapping entries => do
    let named ← entries.mapM fun (key, value) => key.text?.map (·, value)
    let known := (Keyed.keys named).filter names.contains
    if known.Nodup then some fun name => Keyed.get? name named else none
  | .scalar true "" => some fun _ => none
  | _ => none

end Node

end Yaml

def StoreConfig.ofYaml? (node : Yaml.Node) : Option StoreConfig := do
  let member ← node.settings? memberNames
  let size := fun name byDefault =>
    Wire.defaulted byDefault (Yaml.Node.size? (2 ^ 64)) (member name)
  let text := fun name byDefault => Wire.defaulted byDefault Yaml.Node.text? (member name)
  some {
    upsertBatch := ← size "upsert_batch_size" default.upsertBatch
    updateBatch := ← size "update_batch_size" default.updateBatch
    deleteBatch := ← size "delete_batch_size" default.deleteBatch
    cleanupBatch := ← size "cleanup_batch_size" default.cleanupBatch
    indexBatch := ← size "index_batch_size" default.indexBatch
    recordsTable := ← text "objs_table" default.recordsTable
    fieldsTable := ← text "fields_table" default.fieldsTable }

def DatabaseConfig.ofYaml? (node : Yaml.Node) : Option DatabaseConfig := do
  let member ← node.settings? memberNames
  let size := fun name limit byDefault =>
    Wire.defaulted byDefault (Yaml.Node.size? limit) (member name)
  some {
    url := ← Wire.defaulted default.url Yaml.Node.text? (member "database_url")
    maxConnections := ← size "max_connections" (2 ^ 32) default.maxConnections
    acquireTimeoutSeconds := ← size "acquire_timeout_secs" (2 ^ 64) default.acquireTimeoutSeconds }

namespace Config

def ofYaml? (node : Yaml.Node) : Option Config := do
  let member ← node.settings? ["store", "sqlite"]
  some {
    store := ← Wire.defaulted .default StoreConfig.ofYaml? (member "store")
    database := ← Wire.defaulted .default DatabaseConfig.ofYaml? (member "sqlite") }

/-- The settings in a file, given its content if there is one. -/
def ofFile (content : Option String) : Except ConfigError Config :=
  match content with
  | none => .error .missingFile
  | some text => match (Yaml.read? text).bind ofYaml? with
    | none => .error .malformedFile
    | some config => do
      config.store.validate
      return config

end Config

end RecordStore
