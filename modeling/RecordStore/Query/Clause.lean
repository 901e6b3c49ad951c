import RecordStore.Path
import RecordStore.Query.Predicate

/-!
# Clauses

A `Clause` is a query whose paths, operands and families have been checked: a tree of conjunctions
over predicates on payload paths and attributes. It is what backends compile, so whether a query is
accepted, and with which error it is refused, is the same for all of them.
-/

namespace RecordStore

/-- A checked condition on a record. -/
inductive Clause where
  | payload (path : Path) (predicate : Predicate)
  | column (column : Column) (predicate : Predicate)
  | idAfter (cursor : String)
  | all (clauses : List Clause)
deriving Inhabited

namespace Clause

def always : Clause := .all []

def isNull (column : Column) (flag : Bool) : Clause :=
  .column column (if flag then .eq .null else .neq .null)

def idIn (ids : List String) : Clause := .column .id (.isIn (ids.map .string))

end Clause

/-! ## Attribute predicates -/

/-- The predicates of a string query, in a fixed order. -/
def StringQuery.predicates (query : StringQuery) : List Predicate :=
  (query.eq.map fun s => Predicate.eq (.string s)).toList ++
  (query.neq.map fun s => Predicate.neq (.string s)).toList ++
  (query.isIn.map fun items => Predicate.isIn (items.map .string)).toList ++
  (query.notIn.map fun items => Predicate.notIn (items.map .string)).toList

/-- The predicates of a number query at a reference instant, in a fixed order. -/
def NumberQuery.predicates (query : NumberQuery) (reference : Instant) : List Predicate :=
  let compare := fun op (bound : Option Bound) =>
    (bound.map fun b => Predicate.compare op (b.resolve reference)).toList
  (query.eq.map fun x => Predicate.eq (.float x)).toList ++
  (query.neq.map fun x => Predicate.neq (.float x)).toList ++
  (query.isIn.map fun items => Predicate.isIn (items.map .float)).toList ++
  (query.notIn.map fun items => Predicate.notIn (items.map .float)).toList ++
  compare .gt query.gt ++ compare .gte query.gte ++ compare .lt query.lt ++
  compare .lte query.lte ++
  (query.between.map fun bounds =>
    Predicate.between (bounds.1.resolve reference) (bounds.2.resolve reference)).toList

def Clause.onColumn (column : Column) (predicates : List Predicate) : Clause :=
  .all (predicates.map (.column column))

/-- The clause of predicates of either family. -/
def TypedQuery.clause (query : TypedQuery) (column : Column) (reference : Instant) : Clause :=
  match query with
  | .string query => .onColumn column query.predicates
  | .number query => .onColumn column (query.predicates reference)

/-! ## Queries -/

def PartItem.clause (item : PartItem) (reference : Instant) : Except StoreError Clause := do
  let path ← Path.parse item.field
  return .payload path (← item.predicate reference)

def PartItem.clauses (items : List PartItem) (reference : Instant) : Except StoreError Clause :=
  return .all (← items.mapM fun item => item.clause reference)

/-- The clause of both lists of payload predicates. -/
def LogicalQuery.clause (logical : LogicalQuery) (reference : Instant) :
    Except StoreError Clause := do
  let lists := logical.conjuncts.toList ++ logical.alternatives.toList
  return .all (← lists.mapM fun items => PartItem.clauses items reference)

def AttributeQuery.clause (query : AttributeQuery) (column : Column) (reference : Instant) :
    Except StoreError Clause :=
  return (← query.classify).clause column reference

def MetaQuery.clause (query : MetaQuery) (reference : Instant) : Except StoreError Clause :=
  return .all (← query.entries.mapM fun entry => entry.2.clause entry.1 reference)

/-- The clause of the predicates on the time of deletion. -/
def DeletedAtQuery.clause (query : DeletedAtQuery) (reference : Instant) : Clause :=
  match query with
  | .isNull flag => .isNull .deletedAt flag
  | .number query => .onColumn .deletedAt (query.predicates reference)

/-- The clause of the predicates on top-level fields. -/
def TopLevelQuery.clause (query : TopLevelQuery) (reference : Instant) : Clause :=
  .all (
    (query.shouldIndex.map fun b => Clause.column .shouldIndex (.eq (.bool b))).toList ++
    (query.fieldsToIndex.map fun fields =>
      Clause.column .fieldsToIndex (.eq (.strings fields))).toList ++
    (query.tag.map fun tag => Clause.onColumn .tag tag.predicates).toList ++
    (query.groupId.map fun groupId => Clause.onColumn .groupId groupId.predicates).toList ++
    (query.deletedAt.map fun deletedAt => deletedAt.clause reference).toList)

def Query.clause (query : Query) (reference : Instant) : Except StoreError Clause := do
  let part ← query.part.toList.mapM fun logical => logical.clause reference
  let attributes ← query.attributes.toList.mapM fun attributes => attributes.clause reference
  let topLevel := query.topLevel.toList.map fun topLevel => topLevel.clause reference
  return .all (part ++ attributes ++ topLevel)

end RecordStore
