import RecordStore.Proofs.Outcome
import RecordStore.Proofs.Query.Finite
import RecordStore.Proofs.Query.Meaning
import RecordStore.Proofs.Value.Plain
import RecordStore.Query.Clause

/-!
# Plain records, clauses and queries

What the backends are asked to agree on. A record is plain if its values are. A predicate on the
payload is plain if its path and its literals are and it does not ask for existence; a predicate on
an attribute if it is one of those that queries can ask of the attribute. Bounds are finite.
-/

namespace RecordStore

/-- A record with plain values. -/
structure Record.IsPlain (r : Record) : Prop where
  payload : r.payload.Plain
  attributes : ∀ target, (r.attribute target).Plain

/-- A record whose instants doubles hold exactly. -/
structure Record.HasExactInstants (r : Record) : Prop where
  createdAt : r.createdAt.toInt.natAbs ≤ 2 ^ 53
  updatedAt : r.updatedAt.toInt.natAbs ≤ 2 ^ 53
  deletedAt : ∀ t, r.deletedAt = some t → t.toInt.natAbs ≤ 2 ^ 53

/-- The segments that a path text names as they are meant. -/
def Segment.IsPlain : Segment → Prop
  | .key name => Text.IsPlainKey name
  | .index i => i < 2 ^ 32
  | .wildcard => True

/-- A path of plain segments. -/
def Path.IsPlain (path : Path) : Prop := ∀ segment ∈ path.segments, segment.IsPlain

namespace Predicate

/-- All but the predicates for existence, with plain literals and finite bounds. -/
def IsPlain : Predicate → Prop
  | .eq v => v.Plain
  | .neq v => v.Plain
  | .isIn values => ∀ v ∈ values, v.Plain
  | .notIn values => ∀ v ∈ values, v.Plain
  | .compare _ bound => bound.IsFinite
  | .between low high => low.IsFinite ∧ high.IsFinite
  | .like needle _ => Text.IsPrintable needle.toList
  | .exists _ => False

/-- A literal to compare a text, an instant or what may be missing with. -/
def IsScalarOperand (v : Value) : Prop :=
  v = .null ∨ (∃ s, v = .string s) ∨ ∃ d, v = .double d

/-- The predicates that queries can ask of an attribute that is a text or an instant. -/
def IsScalar : Predicate → Prop
  | .eq v => IsScalarOperand v
  | .neq v => IsScalarOperand v
  | .isIn values => ∀ v ∈ values, IsScalarOperand v
  | .notIn values => ∀ v ∈ values, IsScalarOperand v
  | .compare _ bound => bound.IsFinite
  | .between low high => low.IsFinite ∧ high.IsFinite
  | .like _ _ => False
  | .exists _ => False

/-- The predicates that queries can ask of an attribute. -/
def IsFor (target : Column) (predicate : Predicate) : Prop :=
  match target with
  | .shouldIndex => ∃ b, predicate = .eq (.bool b)
  | .fieldsToIndex => ∃ fields, predicate = .eq (.strings fields) ∧ (Value.strings fields).Plain
  | _ => predicate.IsScalar

end Predicate

/-! ## Clauses -/

namespace Clause

mutual

/-- A clause of plain predicates. -/
def IsPlain : Clause → Prop
  | .payload path predicate => path.IsPlain ∧ predicate.IsPlain
  | .column target predicate => predicate.IsFor target
  | .idAfter _ => True
  | .all clauses => ArePlain clauses
termination_by structural clause => clause

/-- Clauses of plain predicates. -/
def ArePlain : List Clause → Prop
  | [] => True
  | clause :: rest => clause.IsPlain ∧ ArePlain rest
termination_by structural clauses => clauses

end

theorem arePlain_iff (clauses : List Clause) :
    ArePlain clauses ↔ ∀ clause ∈ clauses, clause.IsPlain := by
  induction clauses with
  | nil => simp [ArePlain]
  | cons clause rest ih => simp [ArePlain, ih]

theorem isPlain_all (clauses : List Clause) :
    (Clause.all clauses).IsPlain ↔ ∀ clause ∈ clauses, clause.IsPlain := by
  rw [IsPlain, arePlain_iff]

end Clause

/-! ## Queries -/

/-- A predicate on the payload whose path and literals are plain. -/
structure PartItem.IsPlain (item : PartItem) : Prop where
  op : item.op ≠ .exists
  value : item.value.Plain
  path : ∀ path, Path.parse item.field = .ok path → path.IsPlain

/-- A query whose predicates on the payload are plain, which asks for plain names of fields, and
whose bounds on attributes are finite. -/
structure Query.IsPlain (query : Query) : Prop where
  items : ∀ logical, query.part = some logical →
    ∀ item ∈ logical.conjuncts.getD [] ++ logical.alternatives.getD [], item.IsPlain
  fields : ∀ topLevel fields, query.topLevel = some topLevel →
    topLevel.fieldsToIndex = some fields → (Value.strings fields).Plain
  attributes : ∀ attributes, query.attributes = some attributes →
    ∀ entry ∈ attributes.entries, ∀ bound ∈ entry.2.bounds, bound.IsFinite
  deletedAt : ∀ topLevel asked, query.topLevel = some topLevel →
    topLevel.deletedAt = some (.number asked) → ∀ bound ∈ asked.bounds, bound.IsFinite

theorem PartItem.value_of_listOperand {item : PartItem} {values : List Value}
    (h : item.listOperand = .ok values) : item.value = .array values := by
  unfold PartItem.listOperand at h
  split at h
  · next items hitems => rw [hitems, Except.ok.inj h]
  · cases h

theorem PartItem.value_of_likeOperand {item : PartItem} {needle : String}
    (h : item.likeOperand = .ok needle) : item.value = .string needle := by
  unfold PartItem.likeOperand at h
  split at h
  · next s hs => rw [hs, Except.ok.inj h]
  · cases h

theorem PartItem.value_of_existsOperand {item : PartItem} {flag : Bool}
    (h : item.existsOperand = .ok flag) : item.value = .bool flag := by
  unfold PartItem.existsOperand at h
  split at h
  · next b hb => rw [hb, Except.ok.inj h]
  · cases h

theorem PartItem.isFinite_comparisonOperand {item : PartItem} {reference : Instant}
    {bound : Float64} (h : item.comparisonOperand reference = .ok bound) : bound.IsFinite := by
  unfold PartItem.comparisonOperand at h
  split at h
  · next read hread =>
    cases h
    exact (Bound.isFinite_of_ofValue? _ _ hread).resolve reference
  · cases h

theorem PartItem.isFinite_betweenOperands {item : PartItem} {reference : Instant}
    {bounds : Float64 × Float64} (h : item.betweenOperands reference = .ok bounds) :
    bounds.1.IsFinite ∧ bounds.2.IsFinite := by
  unfold PartItem.betweenOperands at h
  split at h
  · split at h
    · next hlow hhigh =>
      cases h
      exact ⟨(Bound.isFinite_of_ofValue? _ _ hlow).resolve reference,
        (Bound.isFinite_of_ofValue? _ _ hhigh).resolve reference⟩
    · cases h
  · cases h

theorem PartItem.isPlain_predicate {item : PartItem} (hitem : item.IsPlain) {reference : Instant}
    {predicate : Predicate} (h : item.predicate reference = .ok predicate) :
    predicate.IsPlain := by
  have value := hitem.value
  have members : ∀ {values : List Value}, item.listOperand = .ok values → ∀ v ∈ values, v.Plain := by
    intro values hvalues v hv
    rw [value_of_listOperand hvalues] at value
    exact value.item hv
  have needle : ∀ {needle : String}, item.likeOperand = .ok needle →
      (Value.string needle).Plain := by
    intro needle hneedle
    rwa [value_of_likeOperand hneedle] at value
  have queryable := hitem.op
  obtain ⟨op, field, operand, caseSensitive⟩ := item
  cases op with
  | eq | neq =>
    cases h
    exact value
  | isIn | notIn =>
    obtain ⟨values, hvalues, h⟩ := bind_eq_ok.1 h
    cases h
    exact members hvalues
  | gt | gte | lt | lte =>
    obtain ⟨bound, hbound, h⟩ := bind_eq_ok.1 h
    cases h
    exact isFinite_comparisonOperand hbound
  | between =>
    obtain ⟨bounds, hbounds, h⟩ := bind_eq_ok.1 h
    cases h
    exact isFinite_betweenOperands hbounds
  | like =>
    obtain ⟨s, hs, h⟩ := bind_eq_ok.1 h
    cases h
    exact (needle hs).string
  | «exists» => exact absurd rfl queryable

theorem PartItem.isPlain_clause {item : PartItem} (hitem : item.IsPlain) {reference : Instant}
    {clause : Clause} (h : item.clause reference = .ok clause) : clause.IsPlain := by
  obtain ⟨path, hpath, h⟩ := bind_eq_ok.1 h
  obtain ⟨predicate, hpredicate, h⟩ := bind_eq_ok.1 h
  cases h
  exact ⟨hitem.path path hpath, isPlain_predicate hitem hpredicate⟩

theorem LogicalQuery.isPlain_clause {logical : LogicalQuery}
    (hitems : ∀ item ∈ logical.conjuncts.getD [] ++ logical.alternatives.getD [], item.IsPlain)
    {reference : Instant} {clause : Clause} (h : logical.clause reference = .ok clause) :
    clause.IsPlain := by
  obtain ⟨clauses, hclauses, h⟩ := bind_eq_ok.1 h
  cases h
  rw [Clause.isPlain_all]
  refine forall_of_mapM_ok hclauses fun items hlist clause h => ?_
  obtain ⟨clauses, hclauses, h⟩ := bind_eq_ok.1 h
  cases h
  rw [Clause.isPlain_all]
  refine forall_of_mapM_ok hclauses fun item hitem clause h => PartItem.isPlain_clause (hitems item ?_) h
  rw [List.mem_append] at hlist ⊢
  rcases hlist with hlist | hlist
  · rw [Option.mem_toList] at hlist
    rw [hlist]
    exact Or.inl hitem
  · rw [Option.mem_toList] at hlist
    rw [hlist]
    exact Or.inr hitem

/-! ### Attributes -/

theorem Predicate.IsScalar.isFor {predicate : Predicate} (h : predicate.IsScalar) {target : Column}
    (hshould : target ≠ .shouldIndex) (hfields : target ≠ .fieldsToIndex) :
    predicate.IsFor target := by
  cases target with
  | shouldIndex => exact absurd rfl hshould
  | fieldsToIndex => exact absurd rfl hfields
  | _ => exact h

theorem Clause.isPlain_onColumn {target : Column} {predicates : List Predicate}
    (h : ∀ predicate ∈ predicates, predicate.IsFor target) :
    (Clause.onColumn target predicates).IsPlain := by
  rw [Clause.onColumn, Clause.isPlain_all]
  intro clause hclause
  obtain ⟨predicate, hpredicate, rfl⟩ := List.mem_map.1 hclause
  exact h predicate hpredicate

theorem StringQuery.isScalar_of_mem {query : StringQuery} {predicate : Predicate}
    (h : predicate ∈ query.predicates) : predicate.IsScalar := by
  have operand : ∀ s, Predicate.IsScalarOperand (.string s) := fun s => Or.inr (Or.inl ⟨s, rfl⟩)
  have operands : ∀ items : List String, ∀ v ∈ items.map Value.string,
      Predicate.IsScalarOperand v := by
    intro items v hv
    obtain ⟨s, -, rfl⟩ := List.mem_map.1 hv
    exact operand s
  simp only [StringQuery.predicates, List.mem_append, Option.mem_toList, Option.map_eq_some_iff] at h
  rcases h with ((⟨s, -, rfl⟩ | ⟨s, -, rfl⟩) | ⟨items, -, rfl⟩) | ⟨items, -, rfl⟩
  · exact operand s
  · exact operand s
  · exact operands items
  · exact operands items

theorem NumberQuery.isScalar_of_mem {query : NumberQuery}
    (hfinite : ∀ bound ∈ query.bounds, bound.IsFinite) {reference : Instant}
    {predicate : Predicate} (h : predicate ∈ query.predicates reference) : predicate.IsScalar := by
  have operand : ∀ x, Predicate.IsScalarOperand (.float x) := fun x => by
    cases x with
    | finite d => exact Or.inr (Or.inr ⟨d, rfl⟩)
    | _ => exact Or.inl rfl
  have operands : ∀ items : List Float64, ∀ v ∈ items.map Value.float,
      Predicate.IsScalarOperand v := by
    intro items v hv
    obtain ⟨x, -, rfl⟩ := List.mem_map.1 hv
    exact operand x
  simp only [bounds, List.forall_mem_append, Option.mem_toList] at hfinite
  obtain ⟨⟨⟨⟨gt, gte⟩, lt⟩, lte⟩, between⟩ := hfinite
  simp only [NumberQuery.predicates, List.mem_append, Option.mem_toList, Option.map_eq_some_iff] at h
  rcases h with (((((((⟨x, -, rfl⟩ | ⟨x, -, rfl⟩) | ⟨items, -, rfl⟩) | ⟨items, -, rfl⟩) |
    ⟨b, hb, rfl⟩) | ⟨b, hb, rfl⟩) | ⟨b, hb, rfl⟩) | ⟨b, hb, rfl⟩) | ⟨pair, hpair, rfl⟩
  · exact operand x
  · exact operand x
  · exact operands items
  · exact operands items
  · exact (gt b hb).resolve reference
  · exact (gte b hb).resolve reference
  · exact (lt b hb).resolve reference
  · exact (lte b hb).resolve reference
  · rw [hpair] at between
    obtain ⟨hlow, hhigh⟩ := List.forall_mem_cons.1 between
    exact ⟨hlow.resolve reference, (List.forall_mem_singleton.1 hhigh).resolve reference⟩

/-- The bounds of the predicates of a family are those of the query. -/
theorem AttributeQuery.bounds_of_classify {query : AttributeQuery} {numbers : NumberQuery}
    (h : query.classify = .ok (.number numbers)) : numbers.bounds = query.bounds := by
  obtain ⟨-, -, between, hbetween, hnumbers⟩ | ⟨-, -, hstrings⟩ := classify_cases h
  · cases hnumbers
    rw [AttributeQuery.bounds, between_of_betweenBounds? hbetween]
    rfl
  · cases hstrings

theorem MetaQuery.scalar_of_mem_entries (query : MetaQuery) {entry : Column × AttributeQuery}
    (h : entry ∈ query.entries) : entry.1 ≠ .shouldIndex ∧ entry.1 ≠ .fieldsToIndex := by
  obtain ⟨⟨target, asked⟩, hmem, h⟩ := List.mem_filterMap.1 h
  obtain ⟨query, -, rfl⟩ := Option.map_eq_some_iff.1 h
  have scalar : ∀ target ∈ [Column.id, .createdAt, .updatedAt, .createdBy, .createdByType,
      .updatedBy, .updatedByType, .deletedBy, .deletedByType],
      target ≠ .shouldIndex ∧ target ≠ .fieldsToIndex := by decide
  exact scalar target (List.mem_map_of_mem (f := Prod.fst) hmem)

theorem MetaQuery.isPlain_clause {query : MetaQuery}
    (hfinite : ∀ entry ∈ query.entries, ∀ bound ∈ entry.2.bounds, bound.IsFinite)
    {reference : Instant} {clause : Clause} (h : query.clause reference = .ok clause) :
    clause.IsPlain := by
  obtain ⟨clauses, hclauses, h⟩ := bind_eq_ok.1 h
  cases h
  rw [Clause.isPlain_all]
  refine forall_of_mapM_ok hclauses fun entry hentry clause h => ?_
  have scalar := query.scalar_of_mem_entries hentry
  obtain ⟨typed, htyped, h⟩ := bind_eq_ok.1 h
  cases h
  cases typed with
  | string query =>
    exact Clause.isPlain_onColumn fun predicate hp =>
      (StringQuery.isScalar_of_mem hp).isFor scalar.1 scalar.2
  | number query =>
    have finite := hfinite entry hentry
    rw [← AttributeQuery.bounds_of_classify htyped] at finite
    exact Clause.isPlain_onColumn fun predicate hp =>
      (NumberQuery.isScalar_of_mem finite hp).isFor scalar.1 scalar.2

theorem TopLevelQuery.isPlain_clause {query : TopLevelQuery}
    (hfields : ∀ fields, query.fieldsToIndex = some fields → (Value.strings fields).Plain)
    (hfinite : ∀ asked, query.deletedAt = some (.number asked) →
      ∀ bound ∈ asked.bounds, bound.IsFinite) (reference : Instant) : (query.clause reference).IsPlain := by
  have strings : ∀ (target : Column) (asked : StringQuery), target ≠ .shouldIndex →
      target ≠ .fieldsToIndex → (Clause.onColumn target asked.predicates).IsPlain :=
    fun target asked hshould hfields => Clause.isPlain_onColumn fun predicate hp =>
      (StringQuery.isScalar_of_mem hp).isFor hshould hfields
  rw [TopLevelQuery.clause, Clause.isPlain_all]
  intro clause hclause
  simp only [List.mem_append, Option.mem_toList, Option.map_eq_some_iff] at hclause
  rcases hclause with (((⟨b, -, rfl⟩ | ⟨fields, hf, rfl⟩) | ⟨tag, -, rfl⟩) | ⟨groupId, -, rfl⟩) |
    ⟨deletedAt, hdeletedAt, rfl⟩
  · exact ⟨b, rfl⟩
  · exact ⟨fields, rfl, hfields fields hf⟩
  · exact strings .tag tag (by decide) (by decide)
  · exact strings .groupId groupId (by decide) (by decide)
  · cases deletedAt with
    | isNull flag => cases flag <;> exact Or.inl rfl
    | number asked =>
      exact Clause.isPlain_onColumn fun predicate hp =>
        (NumberQuery.isScalar_of_mem (hfinite asked hdeletedAt) hp).isFor (by decide) (by decide)

/-- The clause of a plain query is plain. -/
theorem Query.isPlain_clause {query : Query} (hquery : query.IsPlain) {reference : Instant}
    {clause : Clause} (h : query.clause reference = .ok clause) : clause.IsPlain := by
  obtain ⟨part, hpart, h⟩ := bind_eq_ok.1 h
  obtain ⟨attributes, hattributes, h⟩ := bind_eq_ok.1 h
  cases h
  rw [Clause.isPlain_all]
  intro clause hclause
  rw [List.mem_append, List.mem_append] at hclause
  rcases hclause with (hclause | hclause) | hclause
  · refine forall_of_mapM_ok hpart (fun logical hlogical clause h => ?_) clause hclause
    exact LogicalQuery.isPlain_clause (hquery.items logical (Option.mem_toList.1 hlogical)) h
  · refine forall_of_mapM_ok hattributes (fun asked hasked clause h => ?_) clause hclause
    exact MetaQuery.isPlain_clause (hquery.attributes asked (Option.mem_toList.1 hasked)) h
  · obtain ⟨topLevel, htop, rfl⟩ := List.mem_map.1 hclause
    have topLevel_eq := Option.mem_toList.1 htop
    exact TopLevelQuery.isPlain_clause (fun fields => hquery.fields topLevel fields topLevel_eq)
      (fun asked => hquery.deletedAt topLevel asked topLevel_eq) reference

end RecordStore
