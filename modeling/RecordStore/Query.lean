import RecordStore.Record

/-!
# Queries

A `Query` says which records are wanted, without regard to the backend that finds them: predicates
on payload paths, on attributes, and on a few top-level fields, all of which have to hold. Nothing
is checked here beyond the shape; what a query means is settled when it becomes a `Clause`.
-/

namespace RecordStore

/-! ## Operands -/

inductive DurationUnit where
  | ms | seconds | minutes | hours | days | weeks
deriving DecidableEq, Inhabited

def DurationUnit.millis : DurationUnit → Int
  | ms => 1
  | seconds => 1000
  | minutes => 60000
  | hours => 3600000
  | days => 86400000
  | weeks => 604800000

/-- An offset from the instant at which a query is compiled. -/
structure RelativeDuration where
  amount : Int64
  unit : DurationUnit
deriving DecidableEq, Inhabited

/-- The nearest instant to an integer number of milliseconds. -/
def clampInstant (n : Int) : Int := max (-2 ^ 63) (min n (2 ^ 63 - 1))

/-- The instant that a duration leads to. The product and the sum both stop at the ends of the
64-bit range. -/
def RelativeDuration.resolve (duration : RelativeDuration) (reference : Instant) : Instant :=
  let offset := clampInstant (duration.amount.toInt * duration.unit.millis)
  Int64.ofInt (clampInstant (reference.toInt + offset))

/-- A bound: a number, or an instant relative to the present. -/
inductive Bound where
  | number (x : Float64)
  | duration (offset : RelativeDuration)
deriving DecidableEq, Inhabited

def Bound.resolve (bound : Bound) (reference : Instant) : Float64 :=
  match bound with
  | .number x => x
  | .duration offset => .finite (Double.ofInt (offset.resolve reference).toInt)

/-! ## Payload predicates -/

/-- The operator of a payload predicate. -/
inductive FieldOp where
  | eq | neq | gt | gte | lt | lte | like | isIn | notIn | between | exists
deriving DecidableEq, Inhabited

def FieldOp.name : FieldOp → String
  | eq => "eq"
  | neq => "neq"
  | gt => "gt"
  | gte => "gte"
  | lt => "lt"
  | lte => "lte"
  | like => "like"
  | isIn => "in"
  | notIn => "not_in"
  | between => "between"
  | .exists => "exists"

/-- A predicate on a payload path, as it is received. -/
structure PartItem where
  op : FieldOp
  field : String
  value : Value
  caseSensitive : Option Bool
deriving DecidableEq, Inhabited

/-- Whether `like` distinguishes case, which it does unless told otherwise. -/
def PartItem.isCaseSensitive (item : PartItem) : Bool := item.caseSensitive.getD true

/-- Payload predicates in two lists. Both lists are conjunctions, and both have to hold. -/
structure LogicalQuery where
  conjuncts : Option (List PartItem)
  alternatives : Option (List PartItem)
deriving DecidableEq, Inhabited

namespace LogicalQuery

def all (items : List PartItem) : LogicalQuery := ⟨some items, none⟩

def isEmpty (logical : LogicalQuery) : Bool :=
  (logical.conjuncts.getD []).isEmpty && (logical.alternatives.getD []).isEmpty

end LogicalQuery

/-! ## Attribute predicates -/

/-- Predicates on an attribute that is a string. -/
structure StringQuery where
  eq : Option String
  neq : Option String
  isIn : Option (List String)
  notIn : Option (List String)
deriving DecidableEq, Inhabited

def StringQuery.isEmpty (query : StringQuery) : Bool := query = ⟨none, none, none, none⟩

/-- Predicates on an attribute that is a number. -/
structure NumberQuery where
  eq : Option Float64
  neq : Option Float64
  isIn : Option (List Float64)
  notIn : Option (List Float64)
  gt : Option Bound
  gte : Option Bound
  lt : Option Bound
  lte : Option Bound
  between : Option (Bound × Bound)
deriving DecidableEq, Inhabited

def NumberQuery.isEmpty (query : NumberQuery) : Bool :=
  query = ⟨none, none, none, none, none, none, none, none, none⟩

/-- Predicates on an attribute, as they are received. -/
structure AttributeQuery where
  eq : Option Value
  neq : Option Value
  isIn : Option (List Value)
  notIn : Option (List Value)
  gt : Option Bound
  gte : Option Bound
  lt : Option Bound
  lte : Option Bound
  between : Option (List Bound)
deriving DecidableEq, Inhabited

/-- Predicates on the attributes that a query may name. -/
structure MetaQuery where
  id : Option AttributeQuery
  createdAt : Option AttributeQuery
  updatedAt : Option AttributeQuery
  createdBy : Option AttributeQuery
  createdByType : Option AttributeQuery
  updatedBy : Option AttributeQuery
  updatedByType : Option AttributeQuery
  deletedBy : Option AttributeQuery
  deletedByType : Option AttributeQuery
deriving DecidableEq, Inhabited

/-- The attributes that have predicates, in a fixed order. -/
def MetaQuery.entries (query : MetaQuery) : List (Column × AttributeQuery) :=
  [(Column.id, query.id), (.createdAt, query.createdAt), (.updatedAt, query.updatedAt),
    (.createdBy, query.createdBy), (.createdByType, query.createdByType),
    (.updatedBy, query.updatedBy), (.updatedByType, query.updatedByType),
    (.deletedBy, query.deletedBy), (.deletedByType, query.deletedByType)].filterMap
  fun entry => entry.2.map (entry.1, ·)

/-- Predicates on the time of deletion. -/
inductive DeletedAtQuery where
  | isNull (flag : Bool)
  | number (query : NumberQuery)
deriving DecidableEq, Inhabited

/-- Predicates on the remaining top-level fields. -/
structure TopLevelQuery where
  shouldIndex : Option Bool
  fieldsToIndex : Option (List String)
  tag : Option StringQuery
  groupId : Option StringQuery
  deletedAt : Option DeletedAtQuery
deriving DecidableEq, Inhabited

structure Query where
  part : Option LogicalQuery
  attributes : Option MetaQuery
  topLevel : Option TopLevelQuery
deriving DecidableEq, Inhabited

namespace Query

def empty : Query := ⟨none, none, none⟩

/-- Adds a payload predicate to the conjunction. -/
def withPart (query : Query) (item : PartItem) : Query :=
  let logical := query.part.getD ⟨none, none⟩
  { query with part := some { logical with
    conjuncts := some (logical.conjuncts.getD [] ++ [item]) } }

end Query

/-! ## Sorting -/

inductive SortDirection where
  | asc | desc
deriving DecidableEq, Inhabited

/-- A field to sort by, as it is received. -/
structure SortItem where
  field : String
  direction : SortDirection
deriving DecidableEq, Inhabited

end RecordStore
