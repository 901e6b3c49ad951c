import RecordStore.Proofs.Query.Meaning
import RecordStore.Proofs.Query.Shape

/-!
# Which queries are accepted

Whether a query is accepted, and with which error it is refused, does not depend on its reference
instant (`Query.failure?_clause`). The clause of an accepted query asks for nothing
(`Clause.IsNeutral`) if and only if no predicate is left in the query once its empty parts are dropped
(`Query.isNeutral_clause_iff`): no check turns a predicate into none.
-/

namespace RecordStore

/-! ## Instants -/

section

variable (reference reference' : Instant)

theorem PartItem.failure?_comparisonOperand (item : PartItem) :
    failure? (item.comparisonOperand reference) =
      failure? (item.comparisonOperand reference') := by
  unfold comparisonOperand
  cases Bound.ofValue? item.value with
  | none => rfl
  | some bound => exact failure?_ok _ _

theorem PartItem.failure?_betweenOperands (item : PartItem) :
    failure? (item.betweenOperands reference) = failure? (item.betweenOperands reference') := by
  unfold betweenOperands
  split
  · split
    · exact failure?_ok _ _
    · rfl
  · rfl

theorem PartItem.failure?_predicate (item : PartItem) :
    failure? (item.predicate reference) = failure? (item.predicate reference') := by
  have comparison := item.failure?_comparisonOperand reference reference'
  unfold predicate
  cases item.op with
  | gt => exact failure?_bind comparison fun _ _ => failure?_ok _ _
  | gte => exact failure?_bind comparison fun _ _ => failure?_ok _ _
  | lt => exact failure?_bind comparison fun _ _ => failure?_ok _ _
  | lte => exact failure?_bind comparison fun _ _ => failure?_ok _ _
  | between =>
    have operands := item.failure?_betweenOperands reference reference'
    exact failure?_bind operands fun _ _ => failure?_ok _ _
  | _ => rfl

theorem PartItem.failure?_clause (item : PartItem) :
    failure? (item.clause reference) = failure? (item.clause reference') :=
  failure?_bind rfl fun _ _ =>
    failure?_bind (item.failure?_predicate reference reference') fun _ _ => failure?_ok _ _

theorem LogicalQuery.failure?_clause (logical : LogicalQuery) :
    failure? (logical.clause reference) = failure? (logical.clause reference') := by
  have lists (items : List PartItem) : failure? (PartItem.clauses items reference) =
      failure? (PartItem.clauses items reference') :=
    failure?_bind (failure?_mapM (PartItem.failure?_clause reference reference') items)
      fun _ _ => failure?_ok _ _
  exact failure?_bind (failure?_mapM lists _) fun _ _ => failure?_ok _ _

/-- The family is found and checked before the durations of the bounds are resolved. -/
theorem AttributeQuery.failure?_clause (query : AttributeQuery) (target : Column) :
    failure? (query.clause target reference) = failure? (query.clause target reference') :=
  failure?_bind rfl fun _ _ => failure?_ok _ _

theorem MetaQuery.failure?_clause (query : MetaQuery) :
    failure? (query.clause reference) = failure? (query.clause reference') :=
  failure?_bind (failure?_mapM (fun entry : Column × AttributeQuery =>
    entry.2.failure?_clause reference reference' entry.1) query.entries) fun _ _ => failure?_ok _ _

/-- Whether a query is accepted does not depend on the instant to which its durations are relative,
nor does the error with which it is refused. -/
theorem Query.failure?_clause (query : Query) :
    failure? (query.clause reference) = failure? (query.clause reference') := by
  have part := failure?_mapM (LogicalQuery.failure?_clause reference reference') query.part.toList
  have attributes :=
    failure?_mapM (MetaQuery.failure?_clause reference reference') query.attributes.toList
  exact failure?_bind part fun _ _ => failure?_bind attributes fun _ _ => failure?_ok _ _

end

/-! ## Empty queries -/

/-- Whether there are no predicates on the attribute. -/
def AttributeQuery.isEmpty (query : AttributeQuery) : Bool :=
  query = ⟨none, none, none, none, none, none, none, none, none⟩

def MetaQuery.isEmpty (query : MetaQuery) : Bool := query.entries.all fun entry => entry.2.isEmpty

def DeletedAtQuery.isEmpty : DeletedAtQuery → Bool
  | .isNull _ => false
  | .number query => query.isEmpty

def TopLevelQuery.isEmpty (query : TopLevelQuery) : Bool :=
  query.shouldIndex.isNone && query.fieldsToIndex.isNone && query.tag.all StringQuery.isEmpty &&
    query.groupId.all StringQuery.isEmpty && query.deletedAt.all DeletedAtQuery.isEmpty

/-- Whether no predicate is left in a query once the parts that are absent or empty are dropped. -/
def Query.isEmpty (query : Query) : Bool :=
  query.part.all LogicalQuery.isEmpty && query.attributes.all MetaQuery.isEmpty &&
    query.topLevel.all TopLevelQuery.isEmpty

/-! ## Clauses that ask for nothing -/

namespace Clause

/-- A conjunction of conjunctions without any predicate in it. -/
inductive IsNeutral : Clause → Prop
  | all {clauses : List Clause} (h : ∀ clause ∈ clauses, IsNeutral clause) :
    IsNeutral (.all clauses)

variable {clauses : List Clause} {target : Column}

theorem isNeutral_all_iff : (all clauses).IsNeutral ↔ ∀ clause ∈ clauses, clause.IsNeutral :=
  ⟨fun h => by cases h; assumption, .all⟩

theorem not_isNeutral_payload (path : Path) (predicate : Predicate) :
    ¬ (payload path predicate).IsNeutral := nofun

theorem not_isNeutral_column (target : Column) (predicate : Predicate) :
    ¬ (column target predicate).IsNeutral := nofun

theorem isNeutral_onColumn_iff {predicates : List Predicate} :
    (onColumn target predicates).IsNeutral ↔ predicates = [] := by
  rw [onColumn, isNeutral_all_iff, List.forall_mem_map, List.eq_nil_iff_forall_not_mem]
  exact forall₂_congr fun predicate _ => iff_of_false (not_isNeutral_column target predicate) id

end Clause

theorem StringQuery.predicates_eq_nil_iff {query : StringQuery} :
    query.predicates = [] ↔ query.isEmpty = true := by
  obtain ⟨eq, neq, isIn, notIn⟩ := query
  simp [predicates, isEmpty]

theorem NumberQuery.predicates_eq_nil_iff {query : NumberQuery} (reference : Instant) :
    query.predicates reference = [] ↔ query.isEmpty = true := by
  obtain ⟨eq, neq, isIn, notIn, gt, gte, lt, lte, between⟩ := query
  simp [predicates, isEmpty]

/-! ## What is left of an accepted query -/

theorem PartItem.isNeutral_clauses_iff {items : List PartItem} {reference : Instant}
    {clause : Clause} (h : PartItem.clauses items reference = .ok clause) :
    clause.IsNeutral ↔ items = [] := by
  obtain ⟨clauses, hclauses, h⟩ := bind_eq_ok.1 h
  cases h
  rw [Clause.isNeutral_all_iff, List.eq_nil_iff_forall_not_mem]
  refine forall_mapM_iff (q := fun _ => False) hclauses fun item _ clause hclause => ?_
  obtain ⟨path, -, hclause⟩ := bind_eq_ok.1 hclause
  obtain ⟨predicate, -, hclause⟩ := bind_eq_ok.1 hclause
  cases hclause
  exact iff_of_false (Clause.not_isNeutral_payload path predicate) id

theorem LogicalQuery.isNeutral_clause_iff {logical : LogicalQuery} {reference : Instant}
    {clause : Clause} (h : logical.clause reference = .ok clause) :
    clause.IsNeutral ↔ logical.isEmpty = true := by
  obtain ⟨clauses, hclauses, h⟩ := bind_eq_ok.1 h
  cases h
  rw [Clause.isNeutral_all_iff,
    forall_mapM_iff hclauses fun items _ clause hclause => PartItem.isNeutral_clauses_iff hclause]
  obtain ⟨conjuncts, alternatives⟩ := logical
  cases conjuncts <;> cases alternatives <;> simp [isEmpty]

namespace AttributeQuery

variable {query : AttributeQuery}

/-- An operand that can be read is there if what is read is. -/
theorem bind_eq_none_iff {α : Type} {read : Value → Option α} {operand : Option Value}
    (h : ∀ v, operand = some v → (read v).isSome = true) :
    operand.bind read = none ↔ operand = none := by
  cases operand with
  | none => simp
  | some v => simpa [Option.isSome_iff_ne_none] using h v rfl

theorem isEmpty_strings_iff (hoperands : ∀ v ∈ query.operands, v.string?.isSome = true)
    (hrange : query.hasRange = false) : query.strings.isEmpty = true ↔ query.isEmpty = true := by
  obtain ⟨heq, hneq, -, -⟩ := forall_operands.1 hoperands
  have eq := bind_eq_none_iff heq
  have neq := bind_eq_none_iff hneq
  obtain ⟨_, _, _, _, _, _, _, _, _⟩ := query
  simp only [hasRange, Bool.or_eq_false_iff, Option.isSome_eq_false_iff, Option.isNone_iff_eq_none]
    at hrange
  simp_all [StringQuery.isEmpty, strings, isEmpty]

theorem isEmpty_numbers_iff (hoperands : ∀ v ∈ query.operands, (Wire.float? v).isSome = true)
    {between : Option (Bound × Bound)} (hbounds : query.betweenBounds? = .ok between) :
    (query.numbers between).isEmpty = true ↔ query.isEmpty = true := by
  obtain ⟨heq, hneq, -, -⟩ := forall_operands.1 hoperands
  have eq := bind_eq_none_iff heq
  have neq := bind_eq_none_iff hneq
  have inside : between = none ↔ query.between = none := by
    rw [← Option.isNone_iff_eq_none, ← Option.isNone_iff_eq_none, ← Option.not_isSome,
      isSome_betweenBounds hbounds, Option.not_isSome]
  obtain ⟨_, _, _, _, _, _, _, _, _⟩ := query
  simp_all [NumberQuery.isEmpty, numbers, isEmpty]

/-- Operands of the family that is found are all read, so that none of them is lost. -/
theorem isNeutral_clause_iff {target : Column} {reference : Instant} {clause : Clause}
    (h : query.clause target reference = .ok clause) :
    clause.IsNeutral ↔ query.isEmpty = true := by
  obtain ⟨typed, htyped, h⟩ := bind_eq_ok.1 h
  cases h
  obtain ⟨numbers, -, between, hbetween, rfl⟩ | ⟨strings, hrange, rfl⟩ := classify_cases htyped
  · refine Clause.isNeutral_onColumn_iff.trans <| (NumberQuery.predicates_eq_nil_iff reference).trans
      (isEmpty_numbers_iff (fun v hv => ?_) hbetween)
    obtain ⟨d, hd, -⟩ := read_of_number (numbers v hv)
    exact Option.isSome_of_eq_some hd
  · refine Clause.isNeutral_onColumn_iff.trans <| StringQuery.predicates_eq_nil_iff.trans
      (isEmpty_strings_iff (fun v hv => ?_) hrange)
    obtain ⟨s, hs, -⟩ := read_of_string (strings v hv)
    exact Option.isSome_of_eq_some hs

end AttributeQuery

theorem MetaQuery.isNeutral_clause_iff {query : MetaQuery} {reference : Instant} {clause : Clause}
    (h : query.clause reference = .ok clause) : clause.IsNeutral ↔ query.isEmpty = true := by
  obtain ⟨clauses, hclauses, h⟩ := bind_eq_ok.1 h
  cases h
  rw [Clause.isNeutral_all_iff, isEmpty, List.all_eq_true]
  exact forall_mapM_iff hclauses fun entry _ clause => AttributeQuery.isNeutral_clause_iff

theorem DeletedAtQuery.isNeutral_clause_iff (query : DeletedAtQuery) (reference : Instant) :
    (query.clause reference).IsNeutral ↔ query.isEmpty = true := by
  cases query with
  | isNull flag => exact iff_of_false (Clause.not_isNeutral_column _ _) Bool.false_ne_true
  | number query =>
    exact Clause.isNeutral_onColumn_iff.trans (NumberQuery.predicates_eq_nil_iff reference)

theorem TopLevelQuery.isNeutral_clause_iff (query : TopLevelQuery) (reference : Instant) :
    (query.clause reference).IsNeutral ↔ query.isEmpty = true := by
  have column := Clause.not_isNeutral_column
  have strings (target : Column) (query : StringQuery) :
      (Clause.onColumn target query.predicates).IsNeutral ↔ query.isEmpty = true :=
    Clause.isNeutral_onColumn_iff.trans StringQuery.predicates_eq_nil_iff
  have deletedAt (query : DeletedAtQuery) := query.isNeutral_clause_iff reference
  rw [clause, Clause.isNeutral_all_iff]
  simp only [List.forall_mem_append, forall_mem_toList_map, column, strings, deletedAt, isEmpty,
    Bool.and_eq_true, Option.all_eq_true, Option.isNone_iff_eq_none,
    Option.eq_none_iff_forall_ne_some]

/-- The clause of an accepted query asks for nothing if and only if the query is empty. -/
theorem Query.isNeutral_clause_iff {query : Query} {reference : Instant} {clause : Clause}
    (h : query.clause reference = .ok clause) : clause.IsNeutral ↔ query.isEmpty = true := by
  obtain ⟨part, hpart, h⟩ := bind_eq_ok.1 h
  obtain ⟨attributes, hattributes, h⟩ := bind_eq_ok.1 h
  cases h
  rw [Clause.isNeutral_all_iff, List.forall_mem_append, List.forall_mem_append, List.forall_mem_map,
    forall_mapM_iff hpart fun logical _ clause => LogicalQuery.isNeutral_clause_iff,
    forall_mapM_iff hattributes fun attributes _ clause => MetaQuery.isNeutral_clause_iff]
  simp only [TopLevelQuery.isNeutral_clause_iff, isEmpty, Bool.and_eq_true, Option.all_eq_true,
    Option.mem_toList]

end RecordStore
