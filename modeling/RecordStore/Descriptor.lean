import RecordStore.Wire

/-!
# Field descriptors

A `Descriptor` says that payloads have something at a path, and of which type. A plain descriptor is
about one place; a compressed one, at a path with a wildcard, is about all elements of an array and
carries the set of their types.
-/

namespace RecordStore

/-! ## Types of leaves -/

/-- The type of a leaf, a value that is neither an array nor an object. -/
inductive LeafType where
  | string | number | boolean | null | undefined
deriving DecidableEq, Inhabited

namespace LeafType

def all : List LeafType := [string, number, boolean, null, undefined]

def name : LeafType → String
  | string => "string"
  | number => "number"
  | boolean => "boolean"
  | null => "null"
  | undefined => "undefined"

def names : List (String × LeafType) := all.map fun t => (t.name, t)

def ofName? (name : String) : Option LeafType := Keyed.get? name names

/-- The type of a leaf; containers have none. -/
def ofLeaf? : Value → Option LeafType
  | .string _ => some string
  | .number _ => some number
  | .bool _ => some boolean
  | .null => some null
  | .array _ => none
  | .object _ => none

def toValue (t : LeafType) : Value := .string t.name

def ofValue? : Value → Option LeafType := Wire.variant? names

end LeafType

structure TypeSet where
  string : Bool
  number : Bool
  boolean : Bool
  null : Bool
  undefined : Bool
deriving DecidableEq, Inhabited

namespace TypeSet

def empty : TypeSet := ⟨false, false, false, false, false⟩

def contains (types : TypeSet) : LeafType → Bool
  | .string => types.string
  | .number => types.number
  | .boolean => types.boolean
  | .null => types.null
  | .undefined => types.undefined

def singleton (t : LeafType) : TypeSet :=
  ⟨t = .string, t = .number, t = .boolean, t = .null, t = .undefined⟩

def union (a b : TypeSet) : TypeSet where
  string := a.string || b.string
  number := a.number || b.number
  boolean := a.boolean || b.boolean
  null := a.null || b.null
  undefined := a.undefined || b.undefined

def ofList (types : List LeafType) : TypeSet :=
  types.foldl (fun set t => set.union (singleton t)) empty

def toList (types : TypeSet) : List LeafType := LeafType.all.filter types.contains

/-- The one type that stands for the set: its only member, and `string` for any other set. -/
def representative (types : TypeSet) : LeafType :=
  match types.toList with
  | [t] => t
  | _ => .string

def toValue (types : TypeSet) : Value := .array (types.toList.map LeafType.toValue)

def ofValue? (v : Value) : Option TypeSet := (Wire.list? LeafType.ofValue? v).map ofList

end TypeSet

/-! ## Descriptors -/

/-- What is known of a path in one payload. -/
structure Descriptor where
  path : String
  type : LeafType
  /-- The types of all elements, if the path has a wildcard. -/
  arrayTypes : Option TypeSet
  isCompressed : Bool
deriving DecidableEq, Inhabited

namespace Descriptor

def leaf (path : String) (type : LeafType) : Descriptor := ⟨path, type, none, false⟩

def compressed (path : String) (types : TypeSet) : Descriptor :=
  ⟨path, types.representative, some types, true⟩

def types (descriptor : Descriptor) : TypeSet :=
  descriptor.arrayTypes.getD (.singleton descriptor.type)

def toValue (descriptor : Descriptor) : Value :=
  .object (Wire.present "arrayTypes" TypeSet.toValue descriptor.arrayTypes ++ [
    ("isArrayCompressed", .bool descriptor.isCompressed),
    ("path", .string descriptor.path),
    ("type", descriptor.type.toValue)])

def ofValue? (v : Value) : Option Descriptor := do
  let member ← Wire.members? ["path", "type", "arrayTypes", "isArrayCompressed"] false v
  some {
    path := ← Wire.required Value.string? (member "path")
    type := ← Wire.required LeafType.ofValue? (member "type")
    arrayTypes := ← Wire.optional TypeSet.ofValue? (member "arrayTypes")
    isCompressed := ← Wire.required Value.bool? (member "isArrayCompressed") }

end Descriptor

end RecordStore
