import RecordStore.Proofs.Query.Finite
import RecordStore.Proofs.Query.Meaning
import RecordStore.Sql.Filter

/-!
# Writing a query and reading it back

Each part of a query is read back as it was written, so that writing is a normal form on all values
that are read as queries (`Query.writing_is_normal`). What would be lost is a null operand on an attribute, which cannot be
told from an absent one, and a number that is not finite, which is written as null; no value is read
as such a query (`Query.isReadable_of_ofValue?`). Where readers are tried in order, no written value falls into the
case of an earlier one (`Bound.ofValue?_toValue`, `DeletedAtQuery.ofValue?_toValue`).
-/

namespace RecordStore

/-! ## Operands -/

theorem DurationUnit.ofValue?_toValue (duration : DurationUnit) :
    ofValue? duration.toValue = some duration := by
  cases duration <;> rfl

theorem RelativeDuration.ofValue?_toValue (duration : RelativeDuration) :
    ofValue? duration.toValue = some duration := by
  have amount :
      Wire.required Wire.int64? (some (.int duration.amount.toInt)) = some duration.amount :=
    Wire.int64?_int duration.amount
  have timeUnit : Wire.required DurationUnit.ofValue? (some duration.unit.toValue) =
      some duration.unit :=
    duration.unit.ofValue?_toValue
  rw [ofValue?, toValue, Wire.members?_object (by simp [Wire.Knows])]
  simp [Keyed.get?_cons, amount, timeUnit]

namespace Bound

variable {bound : Bound}

theorem toValue_ne_null (h : bound.IsFinite) : bound.toValue ≠ .null := by
  cases bound with
  | number x =>
    obtain ⟨d, rfl⟩ := Float64.IsFinite.exists h
    exact Value.noConfusion
  | duration offset => exact Value.noConfusion

/-- A duration is not a number, so that it is read as a duration. -/
theorem ofValue?_toValue (h : bound.IsFinite) : ofValue? bound.toValue = some bound := by
  cases bound with
  | number x =>
    obtain ⟨d, rfl⟩ := Float64.IsFinite.exists h
    rfl
  | duration offset =>
    have notNumber : Wire.float? offset.toValue = none := rfl
    rw [toValue, ofValue?, notNumber]
    simp only [offset.ofValue?_toValue, Option.map_some]

theorem pair?_pairValue {bounds : Bound × Bound} (hlow : bounds.1.IsFinite)
    (hhigh : bounds.2.IsFinite) : pair? (pairValue bounds) = some bounds := by
  rw [pairValue, pair?, ofValue?_toValue hlow, ofValue?_toValue hhigh]
  rfl

theorem optional_map {found : Option Bound} (h : ∀ bound ∈ found, bound.IsFinite) :
    Wire.optional ofValue? (found.map toValue) = some found :=
  Wire.optional_map fun bound hbound =>
    ⟨toValue_ne_null (h bound hbound), ofValue?_toValue (h bound hbound)⟩

end Bound

/-! ## Payload predicates -/

theorem FieldOp.ofValue?_toValue (op : FieldOp) : ofValue? op.toValue = some op := by
  cases op <;> rfl

theorem PartItem.ofValue?_toValue (item : PartItem) : ofValue? item.toValue = some item := by
  have caseSensitive : Wire.optional Value.bool? (item.caseSensitive.map Value.bool) =
      some item.caseSensitive :=
    Wire.optional_map fun flag _ => ⟨Value.noConfusion, rfl⟩
  have op : Wire.required FieldOp.ofValue? (some item.op.toValue) = some item.op :=
    item.op.ofValue?_toValue
  have field : Wire.required Value.string? (some (.string item.field)) = some item.field := rfl
  have required : Wire.Knows ["op", "field", "value", "caseSensitive"]
      [("field", .string item.field), ("op", item.op.toValue), ("value", item.value)] := by
    simp [Wire.Knows]
  rw [ofValue?, toValue, Wire.members?_object (by
    simp [Wire.knows_append, Wire.knows_present, required])]
  simp [Keyed.get?_append, Keyed.get?_cons, Wire.get?_present, caseSensitive, op, field]

theorem LogicalQuery.ofValue?_toValue (logical : LogicalQuery) :
    ofValue? logical.toValue = some logical := by
  have items (found : Option (List PartItem)) :
      Wire.optional (Wire.list? PartItem.ofValue?) (found.map itemsValue) = some found :=
    Wire.optional_map fun items _ =>
      ⟨Value.noConfusion, Wire.list?_array fun item _ => item.ofValue?_toValue⟩
  rw [ofValue?, toValue, Wire.members?_object (by simp [Wire.knows_append, Wire.knows_present])]
  simp [Keyed.get?_append, Wire.get?_present, items]

/-! ## Attribute predicates -/

theorem StringQuery.ofValue?_toValue (query : StringQuery) :
    ofValue? query.toValue = some query := by
  have text (found : Option String) :
      Wire.optional Value.string? (found.map Value.string) = some found :=
    Wire.optional_map fun s _ => ⟨Value.noConfusion, rfl⟩
  have texts (found : Option (List String)) :
      Wire.optional Wire.strings? (found.map Value.strings) = some found :=
    Wire.optional_map fun items _ => ⟨Value.noConfusion, Wire.strings?_strings items⟩
  rw [ofValue?, toValue, Wire.members?_object (by
    simp [Wire.knows_append, Wire.knows_present, memberNames])]
  simp [Keyed.get?_append, Wire.get?_present, text, texts]

namespace NumberQuery

theorem knows_toValue (query : NumberQuery) :
    ∃ fields, query.toValue = .object fields ∧ Wire.Knows memberNames fields :=
  ⟨_, rfl, by simp [Wire.knows_append, Wire.knows_present, memberNames]⟩

theorem ofValue?_toValue {query : NumberQuery} (h : query.IsFinite) :
    ofValue? query.toValue = some query := by
  have finite {x : Float64} (hx : x.IsFinite) :
      Value.float x ≠ .null ∧ Wire.float? (.float x) = some x := by
    obtain ⟨d, rfl⟩ := hx.exists
    exact ⟨Value.noConfusion, rfl⟩
  have number {found : Option Float64} (hfound : ∀ x ∈ found, x.IsFinite) :
      Wire.optional Wire.float? (found.map Value.float) = some found :=
    Wire.optional_map fun x hx => finite (hfound x hx)
  have numbers {found : Option (List Float64)} (hfound : ∀ x ∈ found.getD [], x.IsFinite) :
      Wire.optional (Wire.list? Wire.float?) (found.map floatsValue) = some found := by
    refine Wire.optional_map fun items hitems => ⟨Value.noConfusion, ?_⟩
    cases hitems
    exact Wire.list?_array fun x hx => (finite (hfound x hx)).2
  have between {found : Option (Bound × Bound)}
      (hfound : ∀ bound ∈ (found.map fun bounds => [bounds.1, bounds.2]).getD [],
        bound.IsFinite) :
      Wire.optional Bound.pair? (found.map Bound.pairValue) = some found := by
    refine Wire.optional_map fun bounds hbounds => ⟨Value.noConfusion, ?_⟩
    cases hbounds
    obtain ⟨hlow, hhigh⟩ := List.forall_mem_cons.1 hfound
    exact Bound.pair?_pairValue hlow (List.forall_mem_singleton.1 hhigh)
  obtain ⟨hoperands, hbounds⟩ := h
  simp only [operands, List.forall_mem_append, Option.mem_toList] at hoperands
  simp only [bounds, List.forall_mem_append, Option.mem_toList] at hbounds
  obtain ⟨⟨⟨heq, hneq⟩, hisIn⟩, hnotIn⟩ := hoperands
  obtain ⟨⟨⟨⟨hgt, hgte⟩, hlt⟩, hlte⟩, hbetween⟩ := hbounds
  rw [ofValue?, toValue, Wire.members?_object (by
    simp [Wire.knows_append, Wire.knows_present, memberNames])]
  simp [Keyed.get?_append, Wire.get?_present, number heq, number hneq, numbers hisIn,
    numbers hnotIn, Bound.optional_map hgt, Bound.optional_map hgte, Bound.optional_map hlt,
    Bound.optional_map hlte, between hbetween]

end NumberQuery

namespace AttributeQuery

/-- Predicates that ask for no null, which as an operand is not told from an absent one, and whose
bounds are finite. -/
structure IsReadable (query : AttributeQuery) : Prop where
  eq : query.eq ≠ some .null
  neq : query.neq ≠ some .null
  bounds : ∀ bound ∈ query.bounds, bound.IsFinite

theorem isReadable_of_ofValue? (v : Value) (query : AttributeQuery)
    (h : ofValue? v = some query) : query.IsReadable := by
  have bounds := bounds_of_ofValue? h
  have notNull {member : Option Value} {found : Option Value}
      (h : Wire.optional some member = some found) : found ≠ some .null := by
    rintro rfl
    obtain ⟨operand, hoperand, hread⟩ := Wire.exists_of_optional h
    exact hoperand (Option.some.inj hread)
  obtain ⟨member, -, h⟩ := Option.bind_eq_some_iff.1 h
  obtain ⟨eq, heq, h⟩ := Option.bind_eq_some_iff.1 h
  obtain ⟨neq, hneq, h⟩ := Option.bind_eq_some_iff.1 h
  obtain ⟨isIn, -, h⟩ := Option.bind_eq_some_iff.1 h
  obtain ⟨notIn, -, h⟩ := Option.bind_eq_some_iff.1 h
  obtain ⟨gt, -, h⟩ := Option.bind_eq_some_iff.1 h
  obtain ⟨gte, -, h⟩ := Option.bind_eq_some_iff.1 h
  obtain ⟨lt, -, h⟩ := Option.bind_eq_some_iff.1 h
  obtain ⟨lte, -, h⟩ := Option.bind_eq_some_iff.1 h
  obtain ⟨between, -, h⟩ := Option.bind_eq_some_iff.1 h
  cases h
  exact ⟨notNull heq, notNull hneq, bounds⟩

theorem ofValue?_toValue {query : AttributeQuery} (h : query.IsReadable) :
    ofValue? query.toValue = some query := by
  have operand {found : Option Value} (h : found ≠ some .null) :
      Wire.optional some found = some found := by
    cases found with
    | none => rfl
    | some v => rw [Wire.optional, Wire.option?_of_ne fun hnull => h (hnull ▸ rfl), Option.map_some]
  have operands (found : Option (List Value)) :
      Wire.optional Value.items? (found.map Value.array) = some found :=
    Wire.optional_map fun items _ => ⟨Value.noConfusion, rfl⟩
  have between {found : Option (List Bound)} (hfound : ∀ bound ∈ found.getD [], bound.IsFinite) :
      Wire.optional (Wire.list? Bound.ofValue?) (found.map boundsValue) = some found := by
    refine Wire.optional_map fun bounds hbounds => ⟨Value.noConfusion, ?_⟩
    cases hbounds
    exact Wire.list?_array fun bound hbound => Bound.ofValue?_toValue (hfound bound hbound)
  have finite := h.bounds
  simp only [bounds, List.forall_mem_append, Option.mem_toList] at finite
  obtain ⟨⟨⟨⟨hgt, hgte⟩, hlt⟩, hlte⟩, hbetween⟩ := finite
  rw [ofValue?, toValue, Wire.members?_object (by
    simp [Wire.knows_append, Wire.knows_present, NumberQuery.memberNames])]
  simp [Keyed.get?_append, Wire.get?_present, operand h.eq, operand h.neq, operands,
    Bound.optional_map hgt, Bound.optional_map hgte, Bound.optional_map hlt,
    Bound.optional_map hlte, between hbetween]

end AttributeQuery

namespace MetaQuery

/-- A query whose predicates on each attribute can be read. -/
def IsReadable (query : MetaQuery) : Prop :=
  ∀ target asked, query.ofColumn? target = some asked → asked.IsReadable

theorem isReadable_of_ofValue? (v : Value) (query : MetaQuery) (h : ofValue? v = some query) :
    query.IsReadable := by
  have readable {member : Option Value} {found : Option AttributeQuery}
      (h : Wire.optional AttributeQuery.ofValue? member = some found) :
      ∀ asked, found = some asked → asked.IsReadable :=
    Wire.forall_of_optional AttributeQuery.isReadable_of_ofValue? h
  obtain ⟨member, -, h⟩ := Option.bind_eq_some_iff.1 h
  obtain ⟨id, hid, h⟩ := Option.bind_eq_some_iff.1 h
  obtain ⟨createdAt, hcreatedAt, h⟩ := Option.bind_eq_some_iff.1 h
  obtain ⟨updatedAt, hupdatedAt, h⟩ := Option.bind_eq_some_iff.1 h
  obtain ⟨createdBy, hcreatedBy, h⟩ := Option.bind_eq_some_iff.1 h
  obtain ⟨createdByType, hcreatedByType, h⟩ := Option.bind_eq_some_iff.1 h
  obtain ⟨updatedBy, hupdatedBy, h⟩ := Option.bind_eq_some_iff.1 h
  obtain ⟨updatedByType, hupdatedByType, h⟩ := Option.bind_eq_some_iff.1 h
  obtain ⟨deletedBy, hdeletedBy, h⟩ := Option.bind_eq_some_iff.1 h
  obtain ⟨deletedByType, hdeletedByType, h⟩ := Option.bind_eq_some_iff.1 h
  cases h
  intro target
  cases target with
  | id => exact readable hid
  | createdAt => exact readable hcreatedAt
  | updatedAt => exact readable hupdatedAt
  | createdBy => exact readable hcreatedBy
  | createdByType => exact readable hcreatedByType
  | updatedBy => exact readable hupdatedBy
  | updatedByType => exact readable hupdatedByType
  | deletedBy => exact readable hdeletedBy
  | deletedByType => exact readable hdeletedByType
  | _ =>
    intro asked hasked
    cases hasked

theorem ofValue?_toValue {query : MetaQuery} (h : query.IsReadable) :
    ofValue? query.toValue = some query := by
  have member (found : Option AttributeQuery)
      (h : ∀ asked, found = some asked → asked.IsReadable) :
      Wire.optional AttributeQuery.ofValue? (found.map AttributeQuery.toValue) = some found :=
    Wire.optional_map fun asked hasked =>
      ⟨Value.noConfusion, AttributeQuery.ofValue?_toValue (h asked hasked)⟩
  rw [ofValue?, toValue, Wire.members?_object (by
    simp [Wire.knows_append, Wire.knows_present, memberNames])]
  simp [Keyed.get?_append, Wire.get?_present, member query.id (h .id),
    member query.createdAt (h .createdAt), member query.updatedAt (h .updatedAt),
    member query.createdBy (h .createdBy), member query.createdByType (h .createdByType),
    member query.updatedBy (h .updatedBy), member query.updatedByType (h .updatedByType),
    member query.deletedBy (h .deletedBy), member query.deletedByType (h .deletedByType)]

end MetaQuery

/-! ## Top-level fields -/

namespace DeletedAtQuery

theorem toValue_ne_null (query : DeletedAtQuery) : query.toValue ≠ .null := by
  cases query <;> nofun

/-- Number predicates are not read as a null test, not even when there are none of them. -/
theorem isNull?_toValue (query : NumberQuery) : isNull? query.toValue = none := by
  obtain ⟨fields, heq, known⟩ := query.knows_toValue
  have absent : ∀ field ∈ fields, field.1 ≠ "isNull" := by
    intro field hfield hname
    have := known field hfield
    rw [hname] at this
    exact absurd this (by decide)
  rw [heq, isNull?, Option.bind_eq_bind, Option.bind_eq_none_iff]
  intro member hmember
  rw [Wire.members?] at hmember
  split at hmember
  · cases hmember
  · cases hmember
    exact Wire.required_get?_none absent

/-- A query whose numbers are all finite. -/
def IsReadable : DeletedAtQuery → Prop
  | .isNull _ => True
  | .number query => query.IsFinite

theorem isReadable_of_ofValue? (v : Value) (query : DeletedAtQuery)
    (h : ofValue? v = some query) : query.IsReadable := by
  unfold ofValue? at h
  split at h
  · cases h
    trivial
  · obtain ⟨asked, hasked, rfl⟩ := Option.map_eq_some_iff.1 h
    exact NumberQuery.isFinite_of_ofValue? hasked

theorem ofValue?_toValue {query : DeletedAtQuery} (h : query.IsReadable) :
    ofValue? query.toValue = some query := by
  cases query with
  | isNull flag => rfl
  | number query =>
    rw [toValue, ofValue?, isNull?_toValue]
    simp only [NumberQuery.ofValue?_toValue h, Option.map_some]

end DeletedAtQuery

namespace TopLevelQuery

/-- A query whose predicates on the time of deletion can be read. -/
def IsReadable (query : TopLevelQuery) : Prop := ∀ asked ∈ query.deletedAt, asked.IsReadable

theorem isReadable_of_ofValue? (v : Value) (query : TopLevelQuery)
    (h : ofValue? v = some query) : query.IsReadable := by
  obtain ⟨member, -, h⟩ := Option.bind_eq_some_iff.1 h
  obtain ⟨shouldIndex, -, h⟩ := Option.bind_eq_some_iff.1 h
  obtain ⟨fieldsToIndex, -, h⟩ := Option.bind_eq_some_iff.1 h
  obtain ⟨tag, -, h⟩ := Option.bind_eq_some_iff.1 h
  obtain ⟨groupId, -, h⟩ := Option.bind_eq_some_iff.1 h
  obtain ⟨deletedAt, hdeletedAt, h⟩ := Option.bind_eq_some_iff.1 h
  cases h
  exact Wire.forall_of_optional DeletedAtQuery.isReadable_of_ofValue? hdeletedAt

theorem ofValue?_toValue {query : TopLevelQuery} (h : query.IsReadable) :
    ofValue? query.toValue = some query := by
  have flag : Wire.optional Value.bool? (query.shouldIndex.map Value.bool) =
      some query.shouldIndex :=
    Wire.optional_map fun flag _ => ⟨Value.noConfusion, rfl⟩
  have fields : Wire.optional Wire.strings? (query.fieldsToIndex.map Value.strings) =
      some query.fieldsToIndex :=
    Wire.optional_map fun items _ => ⟨Value.noConfusion, Wire.strings?_strings items⟩
  have text (found : Option StringQuery) :
      Wire.optional StringQuery.ofValue? (found.map StringQuery.toValue) = some found :=
    Wire.optional_map fun asked _ => ⟨Value.noConfusion, asked.ofValue?_toValue⟩
  have deletedAt : Wire.optional DeletedAtQuery.ofValue?
      (query.deletedAt.map DeletedAtQuery.toValue) = some query.deletedAt :=
    Wire.optional_map fun asked hasked =>
      ⟨asked.toValue_ne_null, DeletedAtQuery.ofValue?_toValue (h asked hasked)⟩
  rw [ofValue?, toValue, Wire.members?_object (by
    simp [Wire.knows_append, Wire.knows_present, memberNames])]
  simp [Keyed.get?_append, Wire.get?_present, flag, fields, text, deletedAt]

end TopLevelQuery

/-! ## Whole queries -/

namespace Query

/-- A query whose predicates on attributes and on top-level fields can be read. -/
structure IsReadable (query : Query) : Prop where
  attributes : ∀ asked ∈ query.attributes, asked.IsReadable
  topLevel : ∀ asked ∈ query.topLevel, asked.IsReadable

theorem isReadable_of_ofValue? {v : Value} {query : Query} (h : ofValue? v = some query) :
    query.IsReadable := by
  obtain ⟨member, -, h⟩ := Option.bind_eq_some_iff.1 h
  obtain ⟨part, -, h⟩ := Option.bind_eq_some_iff.1 h
  obtain ⟨attributes, hattributes, h⟩ := Option.bind_eq_some_iff.1 h
  obtain ⟨topLevel, htopLevel, h⟩ := Option.bind_eq_some_iff.1 h
  cases h
  exact ⟨Wire.forall_of_optional MetaQuery.isReadable_of_ofValue? hattributes,
    Wire.forall_of_optional TopLevelQuery.isReadable_of_ofValue? htopLevel⟩

theorem ofValue?_toValue {query : Query} (h : query.IsReadable) :
    ofValue? query.toValue = some query := by
  have part : Wire.optional LogicalQuery.ofValue? (query.part.map LogicalQuery.toValue) =
      some query.part :=
    Wire.optional_map fun logical _ => ⟨Value.noConfusion, logical.ofValue?_toValue⟩
  have attributes : Wire.optional MetaQuery.ofValue? (query.attributes.map MetaQuery.toValue) =
      some query.attributes :=
    Wire.optional_map fun asked hasked =>
      ⟨Value.noConfusion, MetaQuery.ofValue?_toValue (h.attributes asked hasked)⟩
  have topLevel : Wire.optional TopLevelQuery.ofValue?
      (query.topLevel.map TopLevelQuery.toValue) = some query.topLevel :=
    Wire.optional_map fun asked hasked =>
      ⟨Value.noConfusion, TopLevelQuery.ofValue?_toValue (h.topLevel asked hasked)⟩
  rw [ofValue?, toValue, Wire.members?_object (by simp [Wire.knows_append, Wire.knows_present])]
  simp [Keyed.get?_append, Wire.get?_present, part, attributes, topLevel]

/-- Whatever was read as a query: it is written in a form that is read as the same query and is
written again as it is, and that asks both backends for the same. -/
theorem writing_is_normal {v : Value} {query : Query} (h : ofValue? v = some query) :
    ∃ again, ofValue? query.toValue = some again ∧ again = query ∧
      again.toValue = query.toValue ∧
      ∀ reference : Instant,
        (again.clause reference).map Clause.document =
          (query.clause reference).map Clause.document ∧
        (again.clause reference).map (fun clause => clause.condition.fragment) =
          (query.clause reference).map fun clause => clause.condition.fragment :=
  ⟨query, ofValue?_toValue (isReadable_of_ofValue? h), rfl, rfl, fun _ => ⟨rfl, rfl⟩⟩

/-- Arrays for structures, null and absent members, durations in both forms, integers for doubles
and a null test in an array: the normal form is another value. -/
theorem writing_is_normal_all_forms :
    let v : Value := .object [
      ("metaQuery", .array [.null, .object [
        ("between", .array [.int 1, .array [.int (-7), .object [("days", .null)]]]),
        ("eq", .null),
        ("gt", .object [("amount", .int 2), ("unit", .string "ms")]),
        ("not_in", .array [.null, .int 3])]]),
      ("partQuery", .object [
        ("and", .array [.array [.object [("exists", .null)], .string "a.b"]]), ("or", .null)]),
      ("topLevelFields", .object [
        ("deletedAt", .array [.bool true]), ("groupId", .null), ("tag", .array [.string "t"])])]
    let query : Query := {
      part := some ⟨some [⟨.exists, "a.b", .null, none⟩], none⟩
      attributes := some ⟨none, some {
        eq := none, neq := none, isIn := none, notIn := some [.null, .int 3]
        gt := some (.duration ⟨2, .ms⟩), gte := none, lt := none, lte := none
        between := some [.number (.finite (.ofInt 1)), .duration ⟨-7, .days⟩] },
        none, none, none, none, none, none, none⟩
      topLevel := some ⟨none, none, some ⟨some "t", none, none, none⟩, none, some (.isNull true)⟩ }
    ofValue? v = some query ∧ query.toValue ≠ v ∧
      ∃ again, ofValue? query.toValue = some again ∧ again.toValue = query.toValue := by
  intro v query
  have read : ofValue? v = some query := by rfl
  obtain ⟨again, hagain, -, hnormal, -⟩ := writing_is_normal read
  exact ⟨read, by decide, again, hagain, hnormal⟩

end Query

end RecordStore
