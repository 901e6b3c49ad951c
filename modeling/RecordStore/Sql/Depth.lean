import RecordStore.Sql.Filter

/-!
# Depths of conditions

How deeply the expression of a condition is nested (`Condition.depth`). A subquery counts apart,
since its levels come on top of those around it; a condition without one has none
(`Condition.hasSubquery`).
-/

namespace RecordStore

namespace Sql

/-! ## Terms -/

def Place.height (place : Place) : Nat :=
  match place.element with
  | none => 1
  | some _ => if place.segments.isEmpty then 2 else 3

def Term.height : Term → Nat
  | column _ => 1
  | columnType _ => 2
  | columnNumber _ => 4
  | payload place => place.height + 1
  | payloadType place => place.height + 1
  | payloadNumber place => place.height + 6

/-! ## Conditions -/

/-- How deeply an expression is nested. -/
structure Depth where
  /-- The number of levels outside subqueries. -/
  height : Nat
  /-- The number of levels of the subqueries inside, where those of a subquery come on top of those
  of the condition that it stands in. -/
  inner : Nat
deriving DecidableEq, Inhabited

namespace Depth

/-- The levels from the outermost to the innermost one. -/
def total (d : Depth) : Nat := d.height + d.inner

/-- The depth of two expressions under an operator. -/
def join (a b : Depth) : Depth := ⟨max a.height b.height + 1, max a.inner b.inner⟩

def under (a : Depth) : Depth := { a with height := a.height + 1 }

def constant : Depth := ⟨1, 0⟩

/-- The depth of a conjunction. One with the condition that no row satisfies, which is the only
condition of one level, is that condition. -/
def conjunction (a b : Depth) : Depth :=
  if a.height = 1 ∨ b.height = 1 then constant else join a b

end Depth

namespace Condition

mutual

def depth : Condition → Depth
  | always => ⟨2, 0⟩
  | never => .constant
  | hasType term _ => ⟨term.height + 1, 0⟩
  | hasNumberType term => ⟨term.height + 1, 0⟩
  | hasNullType term => ⟨term.height + 2, 0⟩
  | equals term _ => ⟨term.height + 1, 0⟩
  | equalsJson term _ => ⟨max term.height 2 + 1, 0⟩
  | isIn term [_] => ⟨max term.height 2 + 1, 0⟩
  | isIn term _ => ⟨term.height + 1, 0⟩
  | compares term _ _ => ⟨term.height + 1, 0⟩
  | between term _ _ => ⟨term.height + 1, 0⟩
  | contains term _ caseSensitive => ⟨term.height + (if caseSensitive then 2 else 3), 0⟩
  | isNull term => ⟨term.height + 1, 0⟩
  | isNotNull term => ⟨term.height + 1, 0⟩
  | and a b => a.depth.conjunction b.depth
  | not a => a.depth.under
  | all [] => .constant
  | all (a :: rest) => depthOfAll a.depth rest
  | any [] => .constant
  | any (a :: rest) => depthOfAny a.depth rest
  | flag a => a.depth.under
  | someElement array _ a =>
    ⟨max (array.height + 2) (a.depth.height + 1) + 1, a.depth.total⟩
termination_by structural condition => condition

/-- The depth of a conjunction, given that of what stands before. -/
def depthOfAll (before : Depth) : List Condition → Depth
  | [] => before
  | a :: rest => depthOfAll (before.conjunction a.depth) rest
termination_by structural conditions => conditions

/-- The depth of a disjunction, given that of what stands before. -/
def depthOfAny (before : Depth) : List Condition → Depth
  | [] => before
  | a :: rest => depthOfAny (before.join a.depth) rest
termination_by structural conditions => conditions

end

def hasSubquery (condition : Condition) : Bool := condition.depth.inner != 0

end Condition

end Sql

end RecordStore
