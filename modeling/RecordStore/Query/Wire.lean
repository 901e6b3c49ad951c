import RecordStore.Query.Family

/-!
# The wire format of queries

Readers and writers of queries and their parts. Numbers become doubles where a predicate takes
doubles, and what is absent or null is left out when it is written again: writing is a normal form.
-/

namespace RecordStore

/-! ## Operands -/

namespace DurationUnit

def names : List (String × DurationUnit) := [
  ("ms", ms), ("seconds", seconds), ("minutes", minutes), ("hours", hours), ("days", days),
  ("weeks", weeks)]

def toValue : DurationUnit → Value
  | ms => .string "ms"
  | seconds => .string "seconds"
  | minutes => .string "minutes"
  | hours => .string "hours"
  | days => .string "days"
  | weeks => .string "weeks"

def ofValue? : Value → Option DurationUnit := Wire.variant? names

end DurationUnit

namespace RelativeDuration

def toValue (duration : RelativeDuration) : Value :=
  .object [("amount", .int duration.amount.toInt), ("unit", duration.unit.toValue)]

def ofValue? (v : Value) : Option RelativeDuration := do
  let member ← Wire.members? ["amount", "unit"] true v
  some {
    amount := ← Wire.required Wire.int64? (member "amount")
    unit := ← Wire.required DurationUnit.ofValue? (member "unit") }

end RelativeDuration

namespace Bound

def toValue : Bound → Value
  | number x => .float x
  | duration offset => offset.toValue

/-- Reads a number or else a duration. -/
def ofValue? (v : Value) : Option Bound :=
  match Wire.float? v with
  | some x => some (number x)
  | none => (RelativeDuration.ofValue? v).map duration

/-- Reads exactly two bounds. -/
def pair? (v : Value) : Option (Bound × Bound) :=
  match v with
  | .array [low, high] => do some (← ofValue? low, ← ofValue? high)
  | _ => none

def pairValue (bounds : Bound × Bound) : Value := .array [bounds.1.toValue, bounds.2.toValue]

end Bound

/-! ## Payload predicates -/

namespace FieldOp

def names : List (String × FieldOp) :=
  [eq, neq, gt, gte, lt, lte, like, isIn, notIn, between, .exists].map fun op => (op.name, op)

def toValue (op : FieldOp) : Value := .string op.name

def ofValue? : Value → Option FieldOp := Wire.variant? names

end FieldOp

namespace PartItem

def toValue (item : PartItem) : Value :=
  .object (Wire.present "caseSensitive" Value.bool item.caseSensitive ++
    [("field", .string item.field), ("op", item.op.toValue), ("value", item.value)])

/-- Reads a payload predicate, whose operand is null if it is absent. -/
def ofValue? (v : Value) : Option PartItem := do
  let member ← Wire.members? ["op", "field", "value", "caseSensitive"] false v
  some {
    op := ← Wire.required FieldOp.ofValue? (member "op")
    field := ← Wire.required Value.string? (member "field")
    value := (member "value").getD .null
    caseSensitive := ← Wire.optional Value.bool? (member "caseSensitive") }

end PartItem

namespace LogicalQuery

def itemsValue (items : List PartItem) : Value := .array (items.map PartItem.toValue)

def toValue (logical : LogicalQuery) : Value :=
  .object (Wire.present "and" itemsValue logical.conjuncts ++
    Wire.present "or" itemsValue logical.alternatives)

/-- Reads payload predicates. -/
def ofValue? (v : Value) : Option LogicalQuery := do
  let member ← Wire.members? ["and", "or"] false v
  some {
    conjuncts := ← Wire.optional (Wire.list? PartItem.ofValue?) (member "and")
    alternatives := ← Wire.optional (Wire.list? PartItem.ofValue?) (member "or") }

end LogicalQuery

/-! ## Attribute predicates -/

namespace StringQuery

def memberNames : List String := ["eq", "neq", "in", "not_in"]

def toValue (query : StringQuery) : Value :=
  .object (Wire.present "eq" Value.string query.eq ++ Wire.present "in" Value.strings query.isIn ++
    Wire.present "neq" Value.string query.neq ++ Wire.present "not_in" Value.strings query.notIn)

def ofValue? (v : Value) : Option StringQuery := do
  let member ← Wire.members? memberNames true v
  some {
    eq := ← Wire.optional Value.string? (member "eq")
    neq := ← Wire.optional Value.string? (member "neq")
    isIn := ← Wire.optional Wire.strings? (member "in")
    notIn := ← Wire.optional Wire.strings? (member "not_in") }

end StringQuery

namespace NumberQuery

def memberNames : List String :=
  ["eq", "neq", "in", "not_in", "gt", "gte", "lt", "lte", "between"]

def floatsValue (items : List Float64) : Value := .array (items.map Value.float)

def toValue (query : NumberQuery) : Value :=
  .object (Wire.present "between" Bound.pairValue query.between ++
    Wire.present "eq" Value.float query.eq ++ Wire.present "gt" Bound.toValue query.gt ++
    Wire.present "gte" Bound.toValue query.gte ++ Wire.present "in" floatsValue query.isIn ++
    Wire.present "lt" Bound.toValue query.lt ++ Wire.present "lte" Bound.toValue query.lte ++
    Wire.present "neq" Value.float query.neq ++ Wire.present "not_in" floatsValue query.notIn)

def ofValue? (v : Value) : Option NumberQuery := do
  let member ← Wire.members? memberNames true v
  some {
    eq := ← Wire.optional Wire.float? (member "eq")
    neq := ← Wire.optional Wire.float? (member "neq")
    isIn := ← Wire.optional (Wire.list? Wire.float?) (member "in")
    notIn := ← Wire.optional (Wire.list? Wire.float?) (member "not_in")
    gt := ← Wire.optional Bound.ofValue? (member "gt")
    gte := ← Wire.optional Bound.ofValue? (member "gte")
    lt := ← Wire.optional Bound.ofValue? (member "lt")
    lte := ← Wire.optional Bound.ofValue? (member "lte")
    between := ← Wire.optional Bound.pair? (member "between") }

end NumberQuery

namespace TypedQuery

def family : TypedQuery → String
  | string _ => "string"
  | number _ => "number"

def toValue : TypedQuery → Value
  | string query => query.toValue
  | number query => query.toValue

end TypedQuery

namespace AttributeQuery

def boundsValue (bounds : List Bound) : Value := .array (bounds.map Bound.toValue)

def toValue (query : AttributeQuery) : Value :=
  .object (Wire.present "between" boundsValue query.between ++
    Wire.present "eq" (fun v => v) query.eq ++ Wire.present "gt" Bound.toValue query.gt ++
    Wire.present "gte" Bound.toValue query.gte ++ Wire.present "in" Value.array query.isIn ++
    Wire.present "lt" Bound.toValue query.lt ++ Wire.present "lte" Bound.toValue query.lte ++
    Wire.present "neq" (fun v => v) query.neq ++ Wire.present "not_in" Value.array query.notIn)

/-- Reads attribute predicates of either family. -/
def ofValue? (v : Value) : Option AttributeQuery := do
  let member ← Wire.members? NumberQuery.memberNames true v
  some {
    eq := ← Wire.optional some (member "eq")
    neq := ← Wire.optional some (member "neq")
    isIn := ← Wire.optional Value.items? (member "in")
    notIn := ← Wire.optional Value.items? (member "not_in")
    gt := ← Wire.optional Bound.ofValue? (member "gt")
    gte := ← Wire.optional Bound.ofValue? (member "gte")
    lt := ← Wire.optional Bound.ofValue? (member "lt")
    lte := ← Wire.optional Bound.ofValue? (member "lte")
    between := ← Wire.optional (Wire.list? Bound.ofValue?) (member "between") }

end AttributeQuery

namespace MetaQuery

def memberNames : List String := [
  "id", "createdAt", "updatedAt", "createdBy", "createdByType", "updatedBy", "updatedByType",
  "deletedBy", "deletedByType"]

def toValue (query : MetaQuery) : Value :=
  .object (Wire.present "createdAt" AttributeQuery.toValue query.createdAt ++
    Wire.present "createdBy" AttributeQuery.toValue query.createdBy ++
    Wire.present "createdByType" AttributeQuery.toValue query.createdByType ++
    Wire.present "deletedBy" AttributeQuery.toValue query.deletedBy ++
    Wire.present "deletedByType" AttributeQuery.toValue query.deletedByType ++
    Wire.present "id" AttributeQuery.toValue query.id ++
    Wire.present "updatedAt" AttributeQuery.toValue query.updatedAt ++
    Wire.present "updatedBy" AttributeQuery.toValue query.updatedBy ++
    Wire.present "updatedByType" AttributeQuery.toValue query.updatedByType)

/-- Reads predicates on attributes. -/
def ofValue? (v : Value) : Option MetaQuery := do
  let member ← Wire.members? memberNames true v
  let query := fun name => Wire.optional AttributeQuery.ofValue? (member name)
  some {
    id := ← query "id"
    createdAt := ← query "createdAt"
    updatedAt := ← query "updatedAt"
    createdBy := ← query "createdBy"
    createdByType := ← query "createdByType"
    updatedBy := ← query "updatedBy"
    updatedByType := ← query "updatedByType"
    deletedBy := ← query "deletedBy"
    deletedByType := ← query "deletedByType" }

end MetaQuery

/-! ## Top-level fields and whole queries -/

namespace DeletedAtQuery

def toValue : DeletedAtQuery → Value
  | isNull flag => .object [("isNull", .bool flag)]
  | number query => query.toValue

def isNull? (v : Value) : Option Bool := do
  let member ← Wire.members? ["isNull"] true v
  Wire.required Value.bool? (member "isNull")

/-- Reads a null test or else number predicates. -/
def ofValue? (v : Value) : Option DeletedAtQuery :=
  match isNull? v with
  | some flag => some (isNull flag)
  | none => (NumberQuery.ofValue? v).map number

end DeletedAtQuery

namespace TopLevelQuery

def memberNames : List String := ["shouldIndex", "fieldsToIndex", "tag", "groupId", "deletedAt"]

def toValue (query : TopLevelQuery) : Value :=
  .object (Wire.present "deletedAt" DeletedAtQuery.toValue query.deletedAt ++
    Wire.present "fieldsToIndex" Value.strings query.fieldsToIndex ++
    Wire.present "groupId" StringQuery.toValue query.groupId ++
    Wire.present "shouldIndex" Value.bool query.shouldIndex ++
    Wire.present "tag" StringQuery.toValue query.tag)

/-- Reads predicates on top-level fields. -/
def ofValue? (v : Value) : Option TopLevelQuery := do
  let member ← Wire.members? memberNames true v
  some {
    shouldIndex := ← Wire.optional Value.bool? (member "shouldIndex")
    fieldsToIndex := ← Wire.optional Wire.strings? (member "fieldsToIndex")
    tag := ← Wire.optional StringQuery.ofValue? (member "tag")
    groupId := ← Wire.optional StringQuery.ofValue? (member "groupId")
    deletedAt := ← Wire.optional DeletedAtQuery.ofValue? (member "deletedAt") }

end TopLevelQuery

namespace Query

def toValue (query : Query) : Value :=
  .object (Wire.present "metaQuery" MetaQuery.toValue query.attributes ++
    Wire.present "partQuery" LogicalQuery.toValue query.part ++
    Wire.present "topLevelFields" TopLevelQuery.toValue query.topLevel)

def ofValue? (v : Value) : Option Query := do
  let member ← Wire.members? ["partQuery", "metaQuery", "topLevelFields"] false v
  some {
    part := ← Wire.optional LogicalQuery.ofValue? (member "partQuery")
    attributes := ← Wire.optional MetaQuery.ofValue? (member "metaQuery")
    topLevel := ← Wire.optional TopLevelQuery.ofValue? (member "topLevelFields") }

end Query

/-! ## Sorting -/

namespace SortDirection

def toValue : SortDirection → Value
  | asc => .string "asc"
  | desc => .string "desc"

def ofValue? : Value → Option SortDirection := Wire.variant? [("asc", asc), ("desc", desc)]

end SortDirection

namespace SortItem

def toValue (item : SortItem) : Value :=
  .object [("direction", item.direction.toValue), ("field", .string item.field)]

/-- Reads a sort field, which is ascending unless it says otherwise. -/
def ofValue? (v : Value) : Option SortItem := do
  let member ← Wire.members? ["field", "direction"] false v
  some {
    field := ← Wire.required Value.string? (member "field")
    direction := ← Wire.defaulted .asc SortDirection.ofValue? (member "direction") }

end SortItem

end RecordStore
