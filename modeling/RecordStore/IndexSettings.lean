import RecordStore.Record

/-!
# Index settings

Which paths of a record's payload are indexed: those that the record lists, else those that are set
for its application, else all.
-/

namespace RecordStore

/-- Paths to index for the records of an application that list none themselves. -/
structure IndexSettings where
  defaults : List (String × List String)
deriving DecidableEq, Inhabited

namespace IndexSettings

def empty : IndexSettings := ⟨[]⟩

/-- Sets the paths of an application. -/
def withDefault (settings : IndexSettings) (appId : String) (fields : List String) :
    IndexSettings :=
  ⟨Keyed.insert appId fields settings.defaults⟩

/-- The only paths of a record to index; nothing if all are. -/
def fieldsFor (settings : IndexSettings) (r : Record) : Option (List String) :=
  match r.fieldsToIndex with
  | some fields => some fields
  | none => Keyed.get? r.appId settings.defaults

def toValue (settings : IndexSettings) : Value :=
  .object [("defaultFieldsToIndex", .object (Keyed.mapValues Value.strings settings.defaults))]

/-- Reads the paths of each application. -/
def defaults? : Value → Option (List (String × List String))
  | .object fields => fields.mapM fun field => (Wire.strings? field.2).map (field.1, ·)
  | _ => none

def ofValue? (v : Value) : Option IndexSettings := do
  let member ← Wire.members? ["defaultFieldsToIndex"] false v
  some ⟨← Wire.defaulted [] defaults? (member "defaultFieldsToIndex")⟩

end IndexSettings

end RecordStore
