import RecordStore.Descriptor
import RecordStore.Path

/-!
# The index of a payload

`Value.index` lists the paths of a payload. Every leaf has a plain descriptor at its dotted path,
and every array has compressed descriptors under a wildcard, one for each path that leads from its
elements to leaves through objects alone. Arrays inside elements are described at their own place
and do not show in the compressed view of the outer array.
-/

namespace RecordStore

def dotted (position : List String) : String := ".".intercalate position

namespace Value

/-! ## Leaves of elements -/

mutual

/-- The leaves that are reached through objects alone, with their positions. -/
def shallowLeaves : Value → List (List String × LeafType)
  | .object fields => shallowLeavesOfFields fields
  | .array _ => []
  | v => (LeafType.ofLeaf? v).toList.map fun t => ([], t)
termination_by structural v => v

/-- The leaves that are reached through objects alone from some fields. -/
def shallowLeavesOfFields : List (String × Value) → List (List String × LeafType)
  | [] => []
  | (key, v) :: rest =>
    (shallowLeaves v).map (fun leaf => (key :: leaf.1, leaf.2)) ++ shallowLeavesOfFields rest
termination_by structural fields => fields

end

def addType (known : List (String × TypeSet)) (path : String) (t : LeafType) :
    List (String × TypeSet) :=
  let types := (Keyed.get? path known).getD .empty
  Keyed.insert path (types.union (.singleton t)) known

/-- The types of the leaves of an array's elements, by compressed path. -/
def elementTypes (position : List String) (items : List Value) : List (String × TypeSet) :=
  (items.flatMap shallowLeaves).foldl
    (fun known leaf =>
      addType known (dotted (position ++ Segment.wildcardText :: leaf.1)) leaf.2) []

def compressedDescriptors (position : List String) (items : List Value) : List Descriptor :=
  (elementTypes position items).map fun entry => .compressed entry.1 entry.2

/-! ## Descriptors -/

mutual

/-- The descriptors of the value at a position. A scalar at the root has no path. -/
def descriptorsAt (position : List String) : Value → List Descriptor
  | .object fields => descriptorsOfFields position fields
  | .array items => descriptorsOfItems position 0 items ++ compressedDescriptors position items
  | v =>
    if position.isEmpty then []
    else (LeafType.ofLeaf? v).toList.map fun t => .leaf (dotted position) t
termination_by structural v => v

def descriptorsOfFields (position : List String) : List (String × Value) → List Descriptor
  | [] => []
  | (key, v) :: rest =>
    descriptorsAt (position ++ [key]) v ++ descriptorsOfFields position rest
termination_by structural fields => fields

/-- The descriptors of the elements, from the `i`-th on, of the array at a position. -/
def descriptorsOfItems (position : List String) (i : Nat) : List Value → List Descriptor
  | [] => []
  | v :: rest =>
    descriptorsAt (position ++ [Segment.indexText i]) v ++ descriptorsOfItems position (i + 1) rest
termination_by structural items => items

end

/-- The descriptors of a payload by path. Where keys with points make paths collide, the last
descriptor counts. -/
def index (payload : Value) : List (String × Descriptor) :=
  Keyed.ofList ((descriptorsAt [] payload).map fun descriptor => (descriptor.path, descriptor))

end Value

/-! ## Restriction -/

/-- Whether a path is one of the allowed paths or lies below one. -/
def isAllowed (allowed : List String) (path : String) : Bool :=
  allowed.any fun a => path == a || (a.toList ++ ['.']).isPrefixOf path.toList

def restrict (allowed : List String) (descriptors : List (String × Descriptor)) :
    List (String × Descriptor) :=
  descriptors.filter fun entry => isAllowed allowed entry.1

end RecordStore
