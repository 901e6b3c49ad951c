import RecordStore.Wire

/-!
# Merging payloads

An update is combined with the stored payload in one of five ways (`UpdateWay`). Except for
replacement all of them merge objects key by key, so that nothing is lost that the update does not
mention, and differ in what they do with arrays. Scalars and values of different shape take the
incoming value.
-/

namespace RecordStore

/-- How an incoming payload is combined with the existing one. -/
inductive UpdateWay where
  /-- Take the incoming payload. -/
  | replace
  /-- Merge objects by key and arrays by position. -/
  | merge
  /-- Merge objects; take incoming arrays. -/
  | mergeButReplaceArrays
  /-- Merge objects; append incoming arrays. -/
  | mergeButConcatArrays
  /-- Merge objects; keep existing arrays, whatever comes in for them. -/
  | mergeButKeepArrays
deriving DecidableEq, Inhabited

namespace UpdateWay

def names : List (String × UpdateWay) := [
  ("replace", replace), ("merge", merge), ("mergeButReplaceArrays", mergeButReplaceArrays),
  ("mergeButConcatArrays", mergeButConcatArrays), ("mergeButKeepArrays", mergeButKeepArrays)]

def name : UpdateWay → String
  | replace => "replace"
  | merge => "merge"
  | mergeButReplaceArrays => "mergeButReplaceArrays"
  | mergeButConcatArrays => "mergeButConcatArrays"
  | mergeButKeepArrays => "mergeButKeepArrays"

def toValue (way : UpdateWay) : Value := .string way.name

def ofValue? : Value → Option UpdateWay := Wire.variant? names

end UpdateWay

/-- What an upsert does with an item whose record exists. -/
inductive OnConflict where
  | combine (way : UpdateWay)
  /-- Leave the record alone and report the item as ignored. -/
  | ignore
  /-- Leave the record alone and report the item as failed. -/
  | fail
deriving DecidableEq, Inhabited

namespace OnConflict

/-- The way in which payloads are combined, if they are. -/
def way? : OnConflict → Option UpdateWay
  | combine way => some way
  | ignore => none
  | fail => none

def names : List (String × OnConflict) :=
  UpdateWay.names.map (fun entry => (entry.1, combine entry.2)) ++
    [("ignore", ignore), ("fail", fail)]

def toValue : OnConflict → Value
  | combine way => way.toValue
  | ignore => .string "ignore"
  | fail => .string "fail"

def ofValue? : Value → Option OnConflict := Wire.variant? names

end OnConflict

namespace Value

mutual

/-- Combines a value with an incoming one in any way but replacement. -/
def mergeWith (way : UpdateWay) : (existing incoming : Value) → Value
  | .object old, .object new => .object (mergeFields way old new)
  | .array old, .array new =>
    match way with
    | .merge => .array (mergeItems way old new)
    | .mergeButConcatArrays => .array (old ++ new)
    | .mergeButKeepArrays => .array old
    | .replace | .mergeButReplaceArrays => .array new
  | .array old, new => if way = .mergeButKeepArrays then .array old else new
  | _, new => new
termination_by structural _ incoming => incoming

/-- Merges arrays by position; the longer one supplies the tail. -/
def mergeItems (way : UpdateWay) : (old new : List Value) → List Value
  | old, [] => old
  | [], new => new
  | a :: old, b :: new => mergeWith way a b :: mergeItems way old new
termination_by structural _ new => new

/-- Merges the fields of objects; keys that the incoming object lacks keep their values. -/
def mergeFields (way : UpdateWay) (old : Fields) : (new : List (String × Value)) → Fields
  | [] => old
  | (k, v) :: new =>
    let merged := match Keyed.get? k old with
      | some previous => mergeWith way previous v
      | none => v
    Keyed.insert k merged (mergeFields way old new)
termination_by structural new => new

end

def merge (way : UpdateWay) (existing incoming : Value) : Value :=
  match way with
  | .replace => incoming
  | way => mergeWith way existing incoming

end Value

end RecordStore
