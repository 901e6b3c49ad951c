import RecordStore.Path
import RecordStore.Query

/-!
# Sort keys and pages

`SortKey.resolve` decides what a sort field orders by: the name of an attribute means the attribute,
any other name a payload path, and a leading `objRecord.` always asks for the payload.
`SortKey.complete` makes an order total by ending it with the id. `Slice.ofPage` is the part of an
ordered list that a page shows.
-/

namespace RecordStore

/-! ## Sort keys -/

inductive SortTarget where
  | column (column : Column)
  | payload (path : Path)
deriving DecidableEq, Inhabited

structure SortKey where
  target : SortTarget
  direction : SortDirection
deriving DecidableEq, Inhabited

/-- What a field asks for below the payload, if it does so explicitly. -/
def payloadField? (field : String) : Option String :=
  let lead := (Record.payloadKey ++ ".").toList
  if lead.isPrefixOf field.toList then some (String.ofList (field.toList.drop lead.length))
  else none

namespace SortKey

def targetOf (field : String) : Except StoreError SortTarget :=
  match payloadField? field with
  | some path => return .payload (← Path.parse path)
  | none => match Column.ofKey? field with
    | some column => .ok (.column column)
    | none => return .payload (← Path.parse field)

/-- The sort key of a field; there is no order by many values at once. -/
def resolve (item : SortItem) : Except StoreError SortKey := do
  match ← targetOf item.field with
  | .payload path =>
    if path.hasWildcard then refuse (.wildcardSort item.field)
    else return ⟨.payload path, item.direction⟩
  | .column column => return ⟨.column column, item.direction⟩

def byId : SortKey := ⟨.column .id, .asc⟩

/-- Sorts the most recent first if nothing else is asked for, and ends with the id unless the id is
among the keys. -/
def complete (keys : List SortKey) : List SortKey :=
  let keys := if keys.isEmpty then [⟨.column .createdAt, .desc⟩] else keys
  if keys.any fun key => key.target = .column .id then keys else keys ++ [byId]

/-- The order that a list of sort fields asks for. -/
def ofItems (items : List SortItem) : Except StoreError (List SortKey) :=
  return complete (← items.mapM resolve)

end SortKey

/-! ## Pages -/

/-- Part of a list. -/
structure Slice where
  skip : Nat
  limit : Nat
deriving DecidableEq, Inhabited

namespace Slice

def of {α : Type} (slice : Slice) (items : List α) : List α :=
  (items.drop slice.skip).take slice.limit

/-- The slice of a page, the first of which has number one. -/
def ofPage (page limit : UInt64) : Except StoreError Slice :=
  if page = 0 then refuse .zeroPage
  else if limit = 0 then refuse .zeroLimit
  else
    let skip := (page.toNat - 1) * limit.toNat
    if skip < 2 ^ 64 then .ok ⟨skip, limit.toNat⟩ else refuse .pageRange

/-- The first few. -/
def first (limit : Nat) : Slice := ⟨0, limit⟩

end Slice

end RecordStore
