import RecordStore.Dialect
import RecordStore.Proofs.Agreement
import RecordStore.Proofs.Query.Acceptance
import RecordStore.Proofs.Sql.Text

/-!
# The language of the dialects

What a dialect writes for a query is what it writes for the clause of the query, and it fails where
the clause fails (`Dialect.Writes.filter`). A filter is the one that every record satisfies only if
the clause asks for nothing. So the dialects accept the same queries, refuse the others with the same
errors, and leave the same ones without a condition (`Dialect.same_language`).
-/

namespace RecordStore

/-! ## Filters that are written for clauses -/

namespace Dialect

/-- Parts of filters are written for clauses, and put together like these. -/
structure Writes (dialect : Dialect) (write : Clause → dialect.Filter) : Prop where
  payload : ∀ path predicate,
    dialect.payload path predicate = .ok (write (.payload path predicate))
  column : ∀ target predicate,
    dialect.column target predicate = .ok (write (.column target predicate))
  all : ∀ clauses, dialect.all (clauses.map write) = write (.all clauses)

namespace Writes

variable {dialect : Dialect} {write : Clause → dialect.Filter} (h : dialect.Writes write)

include h

/-- A conjunction over a list, each part of which is written for a clause. -/
theorem all_mapM {α : Type} {items : List α} {f : α → Except StoreError dialect.Filter}
    {g : α → Except StoreError Clause} (hfg : ∀ a ∈ items, f a = write <$> g a) :
    (do return dialect.all (← items.mapM f)) = write <$> (do return .all (← items.mapM g)) := by
  rw [mapM_eq_map hfg]
  cases items.mapM g with
  | error e => rfl
  | ok clauses => exact congrArg Except.ok (h.all clauses)

theorem partFilter (item : PartItem) (reference : Instant) :
    dialect.partFilter item reference = write <$> item.clause reference := by
  rw [Dialect.partFilter, PartItem.clause]
  cases Path.parse item.field with
  | error e => rfl
  | ok path =>
    cases item.predicate reference with
    | error e => rfl
    | ok predicate => exact h.payload path predicate

theorem partsFilter (items : List PartItem) (reference : Instant) :
    dialect.partsFilter items reference = write <$> PartItem.clauses items reference :=
  h.all_mapM fun item _ => h.partFilter item reference

theorem logicalFilter (query : LogicalQuery) (reference : Instant) :
    dialect.logicalFilter query reference = write <$> query.clause reference :=
  h.all_mapM fun items _ => h.partsFilter items reference

theorem columnsFilter (target : Column) (predicates : List Predicate) :
    dialect.columnsFilter target predicates = .ok (write (.onColumn target predicates)) := by
  rw [Dialect.columnsFilter, mapM_ok fun predicate _ => h.column target predicate]
  refine congrArg Except.ok ?_
  rw [Clause.onColumn, ← h.all, List.map_map]
  rfl

theorem attributeFilter (query : AttributeQuery) (target : Column) (reference : Instant) :
    dialect.attributeFilter query target reference = write <$> query.clause target reference := by
  rw [Dialect.attributeFilter, AttributeQuery.clause]
  cases query.classify with
  | error e => rfl
  | ok typed =>
    cases typed with
    | string query => exact h.columnsFilter target query.predicates
    | number query => exact h.columnsFilter target (query.predicates reference)

theorem attributesFilter (query : MetaQuery) (reference : Instant) :
    dialect.attributesFilter query reference = write <$> query.clause reference :=
  h.all_mapM fun entry _ => h.attributeFilter entry.2 entry.1 reference

theorem isNull (target : Column) (flag : Bool) :
    dialect.isNull target flag = .ok (write (.isNull target flag)) :=
  h.column target _

theorem deletedAtFilter (query : DeletedAtQuery) (reference : Instant) :
    dialect.deletedAtFilter query reference = .ok (write (query.clause reference)) := by
  cases query with
  | isNull flag => exact h.isNull .deletedAt flag
  | number query => exact h.columnsFilter .deletedAt (query.predicates reference)

theorem topLevelFilter (query : TopLevelQuery) (reference : Instant) :
    dialect.topLevelFilter query reference = .ok (write (query.clause reference)) := by
  rw [Dialect.topLevelFilter, mapM_ok fun b _ => h.column .shouldIndex (.eq (.bool b)),
    mapM_ok fun fields _ => h.column .fieldsToIndex (.eq (.strings fields)),
    mapM_ok fun tag _ => h.columnsFilter .tag tag.predicates,
    mapM_ok fun groupId _ => h.columnsFilter .groupId groupId.predicates,
    mapM_ok fun deletedAt _ => h.deletedAtFilter deletedAt reference]
  refine congrArg Except.ok ?_
  rw [TopLevelQuery.clause, ← h.all]
  simp only [List.map_append, Option.toList_map, List.map_map]
  rfl

/-- The filter of a query is written for the clause of the query, and if there is none then the filter
fails for the same reason. -/
theorem filter (query : Query) (reference : Instant) :
    dialect.filter query reference = write <$> query.clause reference := by
  have topLevel : query.topLevel.toList.mapM (fun topLevel =>
      dialect.topLevelFilter topLevel reference) =
        .ok (query.topLevel.toList.map fun topLevel => write (topLevel.clause reference)) :=
    mapM_ok fun topLevel _ => h.topLevelFilter topLevel reference
  rw [Dialect.filter, Query.clause, topLevel,
    mapM_eq_map fun logical _ => h.logicalFilter logical reference,
    mapM_eq_map fun attributes _ => h.attributesFilter attributes reference]
  cases query.part.toList.mapM fun logical => logical.clause reference with
  | error e => rfl
  | ok part =>
    cases query.attributes.toList.mapM fun attributes => attributes.clause reference with
    | error e => rfl
    | ok attributes =>
      refine congrArg Except.ok ?_
      rw [← h.all, List.map_append, List.map_append, List.map_map]
      rfl

end Writes

theorem writes_document : document.Writes Clause.document where
  payload _ _ := rfl
  column _ _ := rfl
  all clauses := by
    rw [Clause.document, Clause.documents_eq]
    rfl

theorem writes_sql : sql.Writes fun clause => clause.condition.fragment where
  payload _ _ := rfl
  column _ _ := rfl
  all clauses := by
    rw [Clause.condition, Clause.conditions_eq, Sql.fragment_all, List.map_map]
    rfl

end Dialect

/-! ## Filters that every record satisfies -/

theorem Document.all_eq_always_iff {filters : List Value} :
    Document.all filters = Document.always ↔ ∀ filter ∈ filters, filter = Document.always := by
  have none : filters.filter (· ≠ Document.always) = [] ↔
      ∀ filter ∈ filters, filter = Document.always := by simp
  rw [← none, Document.all]
  generalize hkept : filters.filter (· ≠ Document.always) = kept
  rcases kept with - | ⟨filter, - | ⟨next, rest⟩⟩
  · exact iff_of_true rfl rfl
  · have kept : filter ∈ filters.filter (· ≠ Document.always) :=
      hkept ▸ List.mem_singleton_self _
    exact iff_of_false (of_decide_eq_true (List.mem_filter.1 kept).2) (List.cons_ne_nil _ _)
  · exact iff_of_false (by rintro ⟨⟩) (List.cons_ne_nil _ _)

namespace Sql

theorem isAlways_all (conditions : List Condition) :
    (all conditions).isAlways = conditions.all Condition.isAlways := by
  rw [Bool.eq_iff_iff, List.all_eq_true]
  have none : conditions.filter (!·.isAlways) = [] ↔
      ∀ condition ∈ conditions, condition.isAlways = true := by simp
  rw [← none, all]
  generalize hkept : conditions.filter (!·.isAlways) = kept
  rcases kept with - | ⟨condition, - | ⟨next, rest⟩⟩
  · exact iff_of_true rfl rfl
  · have kept : condition ∈ conditions.filter (!·.isAlways) := hkept ▸ List.mem_singleton_self _
    have shown : ¬ condition.isAlways = true := by simpa using (List.mem_filter.1 kept).2
    exact iff_of_false shown (List.cons_ne_nil _ _)
  · exact iff_of_false Bool.false_ne_true (List.cons_ne_nil _ _)

namespace Operand

variable (operand : Operand)

theorem isAlways_eq (v : Value) : (operand.eq v).isAlways = false := by
  have either {a b : Condition} (ha : a.isAlways = false) (hb : b.isAlways = false) :
      (if operand.isPayload then a else b).isAlways = false := by
    split
    · exact ha
    · exact hb
  cases v with
  | null => exact either rfl rfl
  | bool b => exact either rfl rfl
  | number n => rfl
  | string s => rfl
  | array items => exact either rfl rfl
  | object fields => exact either rfl rfl

theorem isAlways_positive (predicate : Predicate) : (operand.positive predicate).isAlways = false := by
  have isIn (values : List Value) : (operand.isIn values).isAlways = false :=
    isIn_induction (p := fun condition => condition.isAlways = false) values rfl rfl rfl
      operand.isAlways_eq fun _ _ => rfl
  cases predicate with
  | eq v => exact operand.isAlways_eq v
  | neq v => exact operand.isAlways_eq v
  | isIn values => exact isIn values
  | notIn values => exact isIn values
  | _ => rfl

end Operand

theorem isAlways_ofPositive (predicate : Predicate) {positive : Condition}
    (h : positive.isAlways = false) : (ofPositive predicate positive).isAlways = false := by
  unfold ofPositive
  split
  · rfl
  · exact h

theorem isAlways_pathCondition (predicate : Predicate) (place : Place) (depth : Nat)
    (segments : List Segment) :
    (pathCondition predicate place depth segments).isAlways = false := by
  induction segments generalizing place with
  | nil => exact Operand.isAlways_positive _ predicate
  | cons segment rest ih =>
    cases segment with
    | wildcard => rfl
    | key name => exact ih _
    | index i => exact ih _

end Sql

namespace Clause

theorem document_eq_always_iff (clause : Clause) :
    clause.document = Document.always ↔ clause.IsNeutral := by
  induction clause using Clause.induction with
  | payload path predicate =>
    refine iff_of_false ?_ (not_isNeutral_payload path predicate)
    cases predicate <;> nofun
  | column target predicate => exact iff_of_false nofun (not_isNeutral_column target predicate)
  | idAfter cursor => exact iff_of_false nofun nofun
  | all clauses ih =>
    rw [document, documents_eq, Document.all_eq_always_iff, List.forall_mem_map, isNeutral_all_iff]
    exact forall₂_congr ih

theorem isAlways_condition_iff (clause : Clause) :
    clause.condition.isAlways = true ↔ clause.IsNeutral := by
  induction clause using Clause.induction with
  | payload path predicate =>
    refine iff_of_false (Bool.eq_false_iff.1 ?_) (not_isNeutral_payload path predicate)
    exact Sql.isAlways_ofPositive predicate (Sql.isAlways_pathCondition predicate _ 0 path.segments)
  | column target predicate =>
    refine iff_of_false (Bool.eq_false_iff.1 ?_) (not_isNeutral_column target predicate)
    exact Sql.isAlways_ofPositive predicate (Sql.Operand.isAlways_positive _ predicate)
  | idAfter cursor => exact iff_of_false nofun nofun
  | all clauses ih =>
    rw [condition, conditions_eq, Sql.isAlways_all, List.all_map, List.all_eq_true,
      isNeutral_all_iff]
    exact forall₂_congr ih

theorem fragment_eq_always_iff (clause : Clause) :
    clause.condition.fragment = Sql.Fragment.always ↔ clause.IsNeutral := by
  rw [← isAlways_condition_iff, ← Sql.Condition.decide_fragment_eq, decide_eq_true_iff]

end Clause

/-! ## One language -/

namespace Dialect

/-- Both dialects accept the same queries, at whatever reference instants, and they refuse all others
with the same errors. A filter is the one that every record satisfies in one dialect if and only if it
is in the other one, namely if no predicate is left in the query once its empty parts are dropped. The
dialects also accept the same orders and the same pages. -/
theorem same_language :
    (∀ query : Query,
      (∃ e, ∀ reference,
        document.filter query reference = .error e ∧ sql.filter query reference = .error e) ∨
      ∀ reference,
        (∃ filter, document.filter query reference = .ok filter ∧
          (filter = document.always ↔ query.isEmpty = true)) ∧
        ∃ filter, sql.filter query reference = .ok filter ∧
          (filter = sql.always ↔ query.isEmpty = true)) ∧
    (∀ items : List SortItem,
      (∃ e, document.sort items = .error e ∧ sql.sort items = .error e) ∨
      ∃ keys, document.sort items = .ok (SortKey.documentOrder keys) ∧
        sql.sort items = .ok (SortKey.fragment keys)) ∧
    ∀ page limit : UInt64,
      (∃ e, document.paginate page limit = .error e ∧ sql.paginate page limit = .error e) ∨
      ∃ slice, document.paginate page limit = .ok slice ∧
        sql.paginate page limit = .ok slice.fragment := by
  refine ⟨fun query => ?_, fun items => ?_, fun page limit => ?_⟩
  · have alike (reference : Instant) := query.failure?_clause reference 0
    cases hclause : query.clause 0 with
    | error e =>
      rw [hclause] at alike
      refine .inl ⟨e, fun reference => ?_⟩
      rw [writes_document.filter, writes_sql.filter, failure?_eq_some_iff.1 (alike reference)]
      exact ⟨rfl, rfl⟩
    | ok _ =>
      rw [hclause] at alike
      refine .inr fun reference => ?_
      obtain ⟨clause, hclause⟩ := exists_ok_of_failure? (alike reference)
      have isEmpty := Query.isNeutral_clause_iff hclause
      rw [writes_document.filter, writes_sql.filter, hclause]
      exact ⟨⟨_, rfl, clause.document_eq_always_iff.trans isEmpty⟩,
        ⟨_, rfl, clause.fragment_eq_always_iff.trans isEmpty⟩⟩
  · rw [sort, sort]
    cases SortKey.ofItems items with
    | error e => exact .inl ⟨e, rfl, rfl⟩
    | ok keys => exact .inr ⟨keys, rfl, rfl⟩
  · rw [paginate, paginate]
    cases Slice.ofPage page limit with
    | error e => exact .inl ⟨e, rfl, rfl⟩
    | ok slice => exact .inr ⟨slice, rfl, rfl⟩

end Dialect

end RecordStore
