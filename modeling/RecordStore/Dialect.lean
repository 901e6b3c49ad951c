import RecordStore.Document.Filter
import RecordStore.Sql.Filter

/-!
# Dialects

A `Dialect` is what filters, orders and pages are written in, and how the least parts of them are
written. How queries are put together from these parts is the same in all dialects
(`Dialect.filter`, `Dialect.sort`, `Dialect.paginate`): each part is checked when it is come to, so
that of several mistakes the first one is reported. There are two dialects, that of query documents
and that of SQL.
-/

namespace RecordStore

structure Dialect where
  Filter : Type
  Order : Type
  Page : Type
  /-- The filter that every record satisfies. -/
  always : Filter
  all : List Filter → Filter
  payload : Path → Predicate → Except StoreError Filter
  column : Column → Predicate → Except StoreError Filter
  idAfter : String → Filter
  order : List SortKey → Except StoreError Order
  page : Slice → Page

namespace Dialect

variable (dialect : Dialect)

/-! ## Payload predicates -/

def partFilter (item : PartItem) (reference : Instant) : Except StoreError dialect.Filter := do
  let path ← Path.parse item.field
  let predicate ← item.predicate reference
  dialect.payload path predicate

def partsFilter (items : List PartItem) (reference : Instant) : Except StoreError dialect.Filter :=
  return dialect.all (← items.mapM fun item => dialect.partFilter item reference)

/-- All payload predicates of both lists. -/
def logicalFilter (query : LogicalQuery) (reference : Instant) :
    Except StoreError dialect.Filter := do
  let lists := query.conjuncts.toList ++ query.alternatives.toList
  return dialect.all (← lists.mapM fun items => dialect.partsFilter items reference)

/-! ## Attribute predicates -/

def columnsFilter (target : Column) (predicates : List Predicate) :
    Except StoreError dialect.Filter :=
  return dialect.all (← predicates.mapM (dialect.column target))

def typedFilter (query : TypedQuery) (target : Column) (reference : Instant) :
    Except StoreError dialect.Filter :=
  match query with
  | .string query => dialect.columnsFilter target query.predicates
  | .number query => dialect.columnsFilter target (query.predicates reference)

def attributeFilter (query : AttributeQuery) (target : Column) (reference : Instant) :
    Except StoreError dialect.Filter := do
  dialect.typedFilter (← query.classify) target reference

def attributesFilter (query : MetaQuery) (reference : Instant) : Except StoreError dialect.Filter :=
  return dialect.all
    (← query.entries.mapM fun entry => dialect.attributeFilter entry.2 entry.1 reference)

def isNull (target : Column) (flag : Bool) : Except StoreError dialect.Filter :=
  dialect.column target (if flag then .eq .null else .neq .null)

def idIn (ids : List String) : Except StoreError dialect.Filter :=
  dialect.column .id (.isIn (ids.map .string))

def deletedAtFilter (query : DeletedAtQuery) (reference : Instant) :
    Except StoreError dialect.Filter :=
  match query with
  | .isNull flag => dialect.isNull .deletedAt flag
  | .number query => dialect.columnsFilter .deletedAt (query.predicates reference)

def topLevelFilter (query : TopLevelQuery) (reference : Instant) :
    Except StoreError dialect.Filter := do
  let shouldIndex ← query.shouldIndex.toList.mapM fun b =>
    dialect.column .shouldIndex (.eq (.bool b))
  let fieldsToIndex ← query.fieldsToIndex.toList.mapM fun fields =>
    dialect.column .fieldsToIndex (.eq (.strings fields))
  let tag ← query.tag.toList.mapM fun tag => dialect.columnsFilter .tag tag.predicates
  let groupId ← query.groupId.toList.mapM fun groupId =>
    dialect.columnsFilter .groupId groupId.predicates
  let deletedAt ← query.deletedAt.toList.mapM fun deletedAt =>
    dialect.deletedAtFilter deletedAt reference
  return dialect.all (shouldIndex ++ fieldsToIndex ++ tag ++ groupId ++ deletedAt)

/-! ## Queries, orders and pages -/

def filter (query : Query) (reference : Instant) : Except StoreError dialect.Filter := do
  let part ← query.part.toList.mapM fun logical => dialect.logicalFilter logical reference
  let attributes ← query.attributes.toList.mapM fun attributes =>
    dialect.attributesFilter attributes reference
  let topLevel ← query.topLevel.toList.mapM fun topLevel =>
    dialect.topLevelFilter topLevel reference
  return dialect.all (part ++ attributes ++ topLevel)

def sort (items : List SortItem) : Except StoreError dialect.Order := do
  dialect.order (← SortKey.ofItems items)

/-- A page, the first of which has number one. -/
def paginate (page limit : UInt64) : Except StoreError dialect.Page :=
  return dialect.page (← Slice.ofPage page limit)

/-! ## The two dialects -/

def document : Dialect where
  Filter := Value
  Order := List (String × SortDirection)
  Page := Slice
  always := Document.always
  all := Document.all
  payload path predicate := .ok (Document.payload path predicate)
  column target predicate := .ok (Document.column target predicate)
  idAfter := Document.idAfter
  order keys := .ok (SortKey.documentOrder keys)
  page := id

def sql : Dialect where
  Filter := Sql.Fragment
  Order := Sql.Fragment
  Page := Sql.Fragment
  always := .always
  all := .all
  payload path predicate := .ok (Sql.payload path predicate).fragment
  column target predicate := .ok (Sql.column target predicate).fragment
  idAfter cursor := (Sql.idAfter cursor).fragment
  order keys := .ok (SortKey.fragment keys)
  page := Slice.fragment

end Dialect

end RecordStore
