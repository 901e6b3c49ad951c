import RecordStore.Sql.Depth
import RecordStore.Sql.Evaluation
import RecordStore.Sql.Name

/-!
# Statements that fail

A `Statement` looks at the rows that satisfy a condition, in an order. SQLite refuses one with too
many parameters or keys, or with expressions that are nested too deeply (`Statement.isTooLarge`),
and one with a subquery if a table has a certain name (`Statement.lacksElements`). One that it
accepts fails while it runs if it follows a path whose text ends inside a label, or reads a text with
too many levels of arrays and objects. Whether it comes to that depends on the row and on the sequence
in which the parts of the condition are looked at (`Statement.failsOn`): one that is not true hides
those behind it. It also depends on the rows that the statement comes to before it has found enough
(`Statement.visited`).
-/

namespace RecordStore

namespace Sql

/-! ## Places that cannot be looked at -/

/-- The most levels of arrays and objects of a text that can be read. -/
def maxLevels : Nat := 1000

def isTooDeep (v : Value) : Bool := maxLevels < v.depth

/-- Whether looking at a place fails. The whole payload is read for it. -/
def Place.fails (env : Env) (place : Place) : Bool :=
  isTooDeep env.row.payload || comesToNul (env.path place) env.row.payload

def Term.fails (env : Env) : Term → Bool
  | payload place => place.fails env
  | payloadType place => place.fails env
  | payloadNumber place => place.fails env
  | _ => false

/-- Whether going through a list fails before it comes to an element that ends it. -/
def failsUntil {α : Type} (fails ends : α → Bool) : List α → Bool
  | [] => false
  | a :: rest => fails a || (!ends a && failsUntil fails ends rest)

namespace Condition

mutual

/-- Whether computing a condition fails. A conjunction stops at the first part that is not true, a
disjunction at the first that is, and a range at the first element that satisfies the condition. -/
def fails : Condition → Env → Bool
  | hasType term _, env => term.fails env
  | hasNumberType term, env => term.fails env
  | hasNullType term, env => term.fails env
  | equals term _, env => term.fails env
  | equalsJson term v, env => term.fails env || isTooDeep v
  | isIn term _, env => term.fails env
  | compares term _ _, env => term.fails env
  | between term _ _, env => term.fails env
  | contains term _ _, env => term.fails env
  | isNull term, env => term.fails env
  | isNotNull term, env => term.fails env
  | and a b, env => a.fails env || (a.eval env == some true && b.fails env)
  | not a, env => a.fails env
  | all conditions, env => allFails conditions env
  | any conditions, env => anyFails conditions env
  | flag a, env => a.fails env
  | someElement array depth condition, env =>
    array.fails env || match env.value? array with
      | some (.array items) => failsUntil
          (fun i => condition.fails (env.ofElement array depth i))
          (fun i => condition.eval (env.ofElement array depth i) == some true)
          (List.range items.length)
      | _ => false
  | _, _ => false
termination_by structural condition => condition

def allFails : List Condition → Env → Bool
  | [], _ => false
  | a :: rest, env => a.fails env || (a.eval env == some true && allFails rest env)
termination_by structural conditions => conditions

def anyFails : List Condition → Env → Bool
  | [], _ => false
  | a :: rest, env => a.fails env || (a.eval env != some true && anyFails rest env)
termination_by structural conditions => conditions

end

end Condition

/-! ## The sequence of parts -/

def isOptional : Column → Bool
  | .deletedAt => true
  | .deletedBy => true
  | .deletedByType => true
  | .fieldsToIndex => true
  | _ => false

namespace Condition

/-- Whether a condition is the one that no row satisfies. -/
def isNever : Condition → Bool
  | never => true
  | _ => false

/-- Whether a condition holds for the rows that are not deleted. -/
def isLive : Condition → Bool
  | isNull term => term = .column .deletedAt
  | _ => false

/-- Whether a condition holds for the rows that are deleted. -/
def isDeleted : Condition → Bool
  | isNotNull term => term = .column .deletedAt
  | _ => false

/-- What a test for null has to look at. An attribute that is never missing need not be. -/
def termsOfNull : Term → List Term
  | .column column => if isOptional column then [.column column] else []
  | term => [term]

mutual

def parts : Condition → List Condition
  | all conditions => partsOfAll conditions
  | condition => [condition]
termination_by structural condition => condition

def partsOfAll : List Condition → List Condition
  | [] => []
  | a :: rest => a.parts ++ partsOfAll rest
termination_by structural conditions => conditions

end

mutual

def terms : Condition → List Term
  | always => []
  | never => []
  | hasType term _ => [term]
  | hasNumberType term => [term]
  | hasNullType term => [term]
  | equals term _ => [term]
  | equalsJson term _ => [term]
  | isIn term _ => [term]
  | compares term _ _ => [term]
  | between term _ _ => [term]
  | contains term _ _ => [term]
  | isNull term => termsOfNull term
  | isNotNull term => termsOfNull term
  | and a b => a.terms ++ b.terms
  | not a => a.terms
  | all conditions => termsOfEach conditions
  | any conditions => termsOfEach conditions
  | flag a => a.terms
  | someElement array _ a => .payload array :: a.terms
termination_by structural condition => condition

def termsOfEach : List Condition → List Term
  | [] => []
  | a :: rest => a.terms ++ termsOfEach rest
termination_by structural conditions => conditions

end

/-- Whether a condition looks at nothing but some attributes. -/
def looksOnlyAt (columns : List Column) (condition : Condition) : Bool :=
  condition.terms.all fun
    | .column column => columns.contains column
    | .columnType column => columns.contains column
    | .columnNumber column => columns.contains column
    | _ => false

end Condition

/-! ## Statements -/

/-- A look at the rows that satisfy a condition, in an order, or at a slice of them. -/
structure Statement where
  condition : Condition
  keys : List SortKey
  slice : Option Slice
  /-- The number of parameters beside those of the condition, the order and the slice. -/
  others : Nat

namespace Statement

def maxDepth : Nat := 1000

def maxParameters : Nat := 32766

/-- The greatest number of keys of an order. -/
def maxKeys : Nat := 2000

def parameterCount (s : Statement) : Nat :=
  s.condition.fragment.params.length + (SortKey.fragment s.keys).params.length +
    (s.slice.map fun slice => slice.fragment.params.length).getD 0 + s.others

def isTooLarge (s : Statement) : Bool :=
  maxDepth < s.condition.depth.total || maxKeys < s.keys.length ||
    maxParameters < s.parameterCount

/-- The groups of attributes by which rows are found quickly. -/
def indexes : List (List Column) :=
  [[.id], [.createdAt], [.updatedAt], [.deletedAt], [.appId, .tag]]

/-- The attributes of the index by which the statement goes through the rows, if it uses one: the
one that finds the rows that are not deleted, or else the one in whose order the rows are wanted, or
else the one that finds the rows that are deleted. -/
def index (s : Statement) : List Column :=
  let ordering := match s.keys with
    | ⟨.column first, _⟩ :: _ =>
      indexes.find? fun (group : List Column) => group.head? == some first
    | _ => none
  if s.condition.parts.any Condition.isLive then [.deletedAt]
  else ordering.getD (if s.condition.parts.any Condition.isDeleted then [.deletedAt] else [])

/-- The parts of the condition in the sequence in which they are looked at: those that the index
decides, then those without a subquery, then the others. -/
def sequence (s : Statement) : List Condition :=
  let (indexed, others) := s.condition.parts.partition (Condition.looksOnlyAt s.index)
  let (nested, plain) := others.partition Condition.hasSubquery
  indexed ++ plain ++ nested

/-- The keys that are computed for a row. There are none if the index of the ids gives the order. -/
def computedKeys (s : Statement) : List SortKey := if s.index = [.id] then [] else s.keys

def failsOn (s : Statement) (row : Record) : Bool :=
  let env : Env := ⟨row, []⟩
  !s.condition.parts.any Condition.isNever &&
    (Condition.allFails s.sequence env ||
      (s.condition.selects row &&
        s.computedKeys.any fun key => key.target.term.fails env))

/-! ### The rows that a statement comes to -/

/-- The first keys, as far as the index gives their order. -/
def indexedKeys (s : Statement) : List SortKey :=
  let direction := (s.keys.head?.map SortKey.direction).getD .asc
  ((s.keys.zip s.index).takeWhile fun (key, column) =>
    key = ⟨.column column, direction⟩).map Prod.fst

/-- The number of selected rows that end the statement, if there is one. -/
def limit? (s : Statement) : Option Nat :=
  s.slice.bind fun slice =>
    let limit := Slice.parameter slice.limit
    if limit < 0 then none else some (limit.toNat + (Slice.parameter slice.skip).toNat)

def inSequence (s : Statement) (rows : List Record) : List Record :=
  let ascending := rows.mergeSort fun a b =>
    SortKey.compareRows (s.index.map fun column => ⟨.column column, .asc⟩) a b != .gt
  match s.keys.head?.map SortKey.direction with
  | some .desc => ascending.reverse
  | _ => ascending

/-- The rows up to the last of so many selected ones. -/
def upTo (selects : Record → Bool) : Nat → List Record → List Record
  | 0, _ => []
  | _ + 1, [] => []
  | n + 1, row :: rest => row :: upTo selects (if selects row then n else n + 1) rest

/-- The rows up to the first selected one behind a group of like rows that has the last of so many
selected ones. -/
def upToGroup (selects : Record → Bool) (alike : Record → Record → Bool) :
    (missing : Nat) → (last : Option Record) → List Record → List Record
  | _, _, [] => []
  | n, last, row :: rest =>
    if !selects row then row :: upToGroup selects alike n last rest
    else if n = 0 && last.any (!alike · row) then [row]
    else row :: upToGroup selects alike (n - 1) (some row) rest

/-- The rows that the statement comes to. If the index gives the order it stops when it has enough;
if it gives only that of the first keys then like rows are collected and sorted before. -/
def visited (s : Statement) (rows : List Record) : List Record :=
  match s.limit?, s.indexedKeys with
  | none, _ => rows
  | _, [] => rows
  | some n, keys =>
    if s.index = [.id] then upTo s.condition.selects n (s.inSequence rows)
    else upToGroup s.condition.selects (fun a b => SortKey.compareRows keys a b == .eq) n none
      (s.inSequence rows)

/-- Whether the statement has a subquery while a table has the name of the one with the elements of
an array. The name then is that of the other table. -/
def lacksElements (s : Statement) (tables : List String) : Bool :=
  s.condition.hasSubquery && tables.any (sameName elementsTable)

/-- Why the statement cannot be run in a database with some tables on some rows, if it cannot. -/
def refusal? (s : Statement) (tables : List String) (rows : List Record) : Option StoreError :=
  if s.isTooLarge then some (.backend "statement too large")
  else if s.lacksElements tables then some (.backend "elements cannot be listed")
  else if (s.visited rows).any s.failsOn then some (.backend "row cannot be looked at")
  else none

end Statement

end Sql

end RecordStore
