import RecordStore.Wire

/-!
# Records

A `Record` is a stored document: attributes that the store maintains, and a free-form payload. A
`Draft` is what a caller hands in to have one created. `Column` names the attributes, and
`Record.attribute` reads them as values.
-/

namespace RecordStore

/-- Milliseconds since the epoch. -/
abbrev Instant := Int64

/-- Who writes: an id and the kind of actor that it belongs to. -/
structure Actor where
  id : String
  kind : String
deriving DecidableEq, Inhabited

structure Record where
  id : String
  appId : String
  groupId : String
  tag : String
  /-- The free-form content. -/
  payload : Value
  createdAt : Instant
  updatedAt : Instant
  createdBy : Actor
  updatedBy : Actor
  /-- When the record was deleted, if it is only kept until the next cleanup. -/
  deletedAt : Option Instant
  deletedBy : Option String
  deletedByType : Option String
  /-- Whether indexing runs look at the payload. -/
  shouldIndex : Bool
  /-- The only paths to index, if not all are. -/
  fieldsToIndex : Option (List String)
deriving DecidableEq, Inhabited

/-- The content of a record to be created. -/
structure Draft where
  appId : String
  groupId : String
  tag : String
  payload : Value
  shouldIndex : Bool
  fieldsToIndex : Option (List String)
deriving DecidableEq, Inhabited

structure DeletionMark where
  instant : Instant
  actor : Actor
deriving DecidableEq, Inhabited

namespace Record

def isDeleted (r : Record) : Bool := r.deletedAt.isSome

def touch (r : Record) (instant : Instant) (actor : Actor) : Record :=
  { r with updatedAt := instant, updatedBy := actor }

def markDeleted (r : Record) (mark : DeletionMark) : Record :=
  { r with
    deletedAt := some mark.instant
    deletedBy := some mark.actor.id
    deletedByType := some mark.actor.kind }

def ofDraft (draft : Draft) (id : String) (instant : Instant) (actor : Actor) : Record where
  id := id
  appId := draft.appId
  groupId := draft.groupId
  tag := draft.tag
  payload := draft.payload
  createdAt := instant
  updatedAt := instant
  createdBy := actor
  updatedBy := actor
  deletedAt := none
  deletedBy := none
  deletedByType := none
  shouldIndex := draft.shouldIndex
  fieldsToIndex := draft.fieldsToIndex

end Record

/-! ## Attributes -/

inductive Column where
  | id | appId | groupId | tag | createdAt | updatedAt | createdBy | createdByType | updatedBy
  | updatedByType | deletedAt | deletedBy | deletedByType | shouldIndex | fieldsToIndex
deriving DecidableEq, Inhabited

namespace Column

def all : List Column := [
  id, appId, groupId, tag, createdAt, updatedAt, createdBy, createdByType, updatedBy,
  updatedByType, deletedAt, deletedBy, deletedByType, shouldIndex, fieldsToIndex]

/-- The key of the attribute in documents and requests. -/
def key : Column → String
  | id => "id"
  | appId => "appId"
  | groupId => "groupId"
  | tag => "tag"
  | createdAt => "createdAt"
  | updatedAt => "updatedAt"
  | createdBy => "createdBy"
  | createdByType => "createdByType"
  | updatedBy => "updatedBy"
  | updatedByType => "updatedByType"
  | deletedAt => "deletedAt"
  | deletedBy => "deletedBy"
  | deletedByType => "deletedByType"
  | shouldIndex => "shouldIndex"
  | fieldsToIndex => "fieldsToIndex"

/-- The name of the attribute's table column. -/
def sqlName : Column → String
  | id => "id"
  | appId => "app_id"
  | groupId => "group_id"
  | tag => "tag"
  | createdAt => "created_at"
  | updatedAt => "updated_at"
  | createdBy => "created_by"
  | createdByType => "created_by_type"
  | updatedBy => "updated_by"
  | updatedByType => "updated_by_type"
  | deletedAt => "deleted_at"
  | deletedBy => "deleted_by"
  | deletedByType => "deleted_by_type"
  | shouldIndex => "should_index"
  | fieldsToIndex => "fields_to_index"

def ofKey? (key : String) : Option Column := all.find? fun column => column.key = key

end Column

/-- The value of an attribute; null if it is not set. -/
def Record.attribute (r : Record) : Column → Value
  | .id => .string r.id
  | .appId => .string r.appId
  | .groupId => .string r.groupId
  | .tag => .string r.tag
  | .createdAt => .int r.createdAt.toInt
  | .updatedAt => .int r.updatedAt.toInt
  | .createdBy => .string r.createdBy.id
  | .createdByType => .string r.createdBy.kind
  | .updatedBy => .string r.updatedBy.id
  | .updatedByType => .string r.updatedBy.kind
  | .deletedAt => Wire.optionValue (fun t => .int t.toInt) r.deletedAt
  | .deletedBy => Wire.optionValue .string r.deletedBy
  | .deletedByType => Wire.optionValue .string r.deletedByType
  | .shouldIndex => .bool r.shouldIndex
  | .fieldsToIndex => Wire.optionValue Value.strings r.fieldsToIndex

/-! ## Wire format -/

namespace Actor

def toValue (actor : Actor) : Value :=
  .object [("id", .string actor.id), ("kind", .string actor.kind)]

def ofValue? (v : Value) : Option Actor := do
  let member ← Wire.members? ["id", "kind"] false v
  some {
    id := ← Wire.required Value.string? (member "id")
    kind := ← Wire.required Value.string? (member "kind") }

end Actor

namespace Record

def payloadKey : String := "objRecord"

def toValue (r : Record) : Value :=
  .object [
    ("appId", r.attribute .appId),
    ("createdAt", r.attribute .createdAt),
    ("createdBy", r.attribute .createdBy),
    ("createdByType", r.attribute .createdByType),
    ("deletedAt", r.attribute .deletedAt),
    ("deletedBy", r.attribute .deletedBy),
    ("deletedByType", r.attribute .deletedByType),
    ("fieldsToIndex", r.attribute .fieldsToIndex),
    ("groupId", r.attribute .groupId),
    ("id", r.attribute .id),
    (payloadKey, r.payload),
    ("shouldIndex", r.attribute .shouldIndex),
    ("tag", r.attribute .tag),
    ("updatedAt", r.attribute .updatedAt),
    ("updatedBy", r.attribute .updatedBy),
    ("updatedByType", r.attribute .updatedByType)]

def memberNames : List String := [
  "id", "appId", "groupId", "tag", payloadKey, "createdAt", "updatedAt", "createdBy",
  "createdByType", "updatedBy", "updatedByType", "deletedAt", "deletedBy", "deletedByType",
  "shouldIndex", "fieldsToIndex"]

def ofValue? (v : Value) : Option Record := do
  let member ← Wire.members? memberNames false v
  some {
    id := ← Wire.required Value.string? (member "id")
    appId := ← Wire.required Value.string? (member "appId")
    groupId := ← Wire.required Value.string? (member "groupId")
    tag := ← Wire.required Value.string? (member "tag")
    payload := ← member payloadKey
    createdAt := ← Wire.required Wire.int64? (member "createdAt")
    updatedAt := ← Wire.required Wire.int64? (member "updatedAt")
    createdBy := {
      id := ← Wire.required Value.string? (member "createdBy")
      kind := ← Wire.required Value.string? (member "createdByType") }
    updatedBy := {
      id := ← Wire.required Value.string? (member "updatedBy")
      kind := ← Wire.required Value.string? (member "updatedByType") }
    deletedAt := ← Wire.optional Wire.int64? (member "deletedAt")
    deletedBy := ← Wire.optional Value.string? (member "deletedBy")
    deletedByType := ← Wire.optional Value.string? (member "deletedByType")
    shouldIndex := ← Wire.required Value.bool? (member "shouldIndex")
    fieldsToIndex := ← Wire.optional Wire.strings? (member "fieldsToIndex") }

end Record

namespace Draft

def toValue (draft : Draft) : Value :=
  .object [
    ("appId", .string draft.appId),
    ("fieldsToIndex", Wire.optionValue Value.strings draft.fieldsToIndex),
    ("groupId", .string draft.groupId),
    (Record.payloadKey, draft.payload),
    ("shouldIndex", .bool draft.shouldIndex),
    ("tag", .string draft.tag)]

/-- Reads a draft, which is indexed unless it says otherwise. -/
def ofValue? (v : Value) : Option Draft := do
  let names := ["appId", "groupId", "tag", Record.payloadKey, "shouldIndex", "fieldsToIndex"]
  let member ← Wire.members? names false v
  some {
    appId := ← Wire.required Value.string? (member "appId")
    groupId := ← Wire.required Value.string? (member "groupId")
    tag := ← Wire.required Value.string? (member "tag")
    payload := ← member Record.payloadKey
    shouldIndex := ← Wire.defaulted true Value.bool? (member "shouldIndex")
    fieldsToIndex := ← Wire.optional Wire.strings? (member "fieldsToIndex") }

end Draft

end RecordStore
