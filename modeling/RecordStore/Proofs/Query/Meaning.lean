import Mathlib.Data.List.Forall2
import RecordStore.Proofs.Document.Clause
import RecordStore.Proofs.Outcome

/-!
# What queries mean

The meaning of a query is told in terms of the query as it is received, with no regard to how it is
checked or compiled (`Query.Holds`): an attribute is the string or the number that an operand is, or
a number in a range. Clauses that are accepted ask for exactly that
(`Query.holds_clause_iff`), and so do their documents, whose evaluation never fails
(`Query.satisfies_document_iff`). A number that is not finite is null, and so asks for something
that is no number (`Query.satisfies_document_iff_not_finite`).
-/

namespace RecordStore

/-! ## Values -/

namespace Value

/-- Whether a value is the string or the null that an operand is, or a number that equals it as a
double. -/
def Is : (v operand : Value) → Prop
  | .null, .null => True
  | .string s, .string t => s = t
  | .number m, .number n => m.toDouble.signed = n.toDouble.signed
  | _, _ => False

/-- Whether a value is a number that has a property as a double. -/
def IsNumber (v : Value) (p : Double → Prop) : Prop := ∃ n, v = .number n ∧ p n.toDouble

end Value

/-! ## Queries -/

/-- Whether a bound is a finite number to which a value, a number, stands in a relation. -/
def Bound.Relates (bound : Bound) (reference : Instant) (v : Value) (p : (bound d : Int) → Prop) :
    Prop :=
  ∃ b, bound.resolve reference = .finite b ∧ v.IsNumber fun d => p b.signed d.signed

/-- Whether all predicates on an attribute hold of its value. -/
structure AttributeQuery.Holds (query : AttributeQuery) (reference : Instant) (v : Value) :
    Prop where
  eq : ∀ operand, query.eq = some operand → v.Is operand
  neq : ∀ operand, query.neq = some operand → ¬ v.Is operand
  isIn : ∀ operands, query.isIn = some operands → ∃ operand ∈ operands, v.Is operand
  notIn : ∀ operands, query.notIn = some operands → ¬ ∃ operand ∈ operands, v.Is operand
  gt : ∀ bound, query.gt = some bound → bound.Relates reference v fun b d => b < d
  gte : ∀ bound, query.gte = some bound → bound.Relates reference v fun b d => b ≤ d
  lt : ∀ bound, query.lt = some bound → bound.Relates reference v fun b d => d < b
  lte : ∀ bound, query.lte = some bound → bound.Relates reference v fun b d => d ≤ b
  between : ∀ bounds, query.between = some bounds → ∃ low high, bounds = [low, high] ∧
    low.Relates reference v (fun b d => b ≤ d) ∧ high.Relates reference v fun b d => d ≤ b

/-- A string query as predicates on an attribute. -/
def StringQuery.untyped (query : StringQuery) : AttributeQuery where
  eq := query.eq.map .string
  neq := query.neq.map .string
  isIn := query.isIn.map (List.map .string)
  notIn := query.notIn.map (List.map .string)
  gt := none
  gte := none
  lt := none
  lte := none
  between := none

/-- A number query as predicates on an attribute. A number that is not finite is null. -/
def NumberQuery.untyped (query : NumberQuery) : AttributeQuery where
  eq := query.eq.map .float
  neq := query.neq.map .float
  isIn := query.isIn.map (List.map .float)
  notIn := query.notIn.map (List.map .float)
  gt := query.gt
  gte := query.gte
  lt := query.lt
  lte := query.lte
  between := query.between.map fun bounds => [bounds.1, bounds.2]

/-- The predicates on an attribute. -/
def MetaQuery.ofColumn? (query : MetaQuery) : Column → Option AttributeQuery
  | .id => query.id
  | .createdAt => query.createdAt
  | .updatedAt => query.updatedAt
  | .createdBy => query.createdBy
  | .createdByType => query.createdByType
  | .updatedBy => query.updatedBy
  | .updatedByType => query.updatedByType
  | .deletedBy => query.deletedBy
  | .deletedByType => query.deletedByType
  | _ => none

def DeletedAtQuery.Holds (query : DeletedAtQuery) (reference : Instant) (r : Record) : Prop :=
  match query with
  | .isNull flag => r.deletedAt = none ↔ flag = true
  | .number query => query.untyped.Holds reference (r.attribute .deletedAt)

/-- Whether the predicates on the remaining top-level fields hold of a record. -/
structure TopLevelQuery.Holds (query : TopLevelQuery) (reference : Instant) (r : Record) :
    Prop where
  shouldIndex : ∀ flag, query.shouldIndex = some flag → r.shouldIndex = flag
  fieldsToIndex : ∀ fields, query.fieldsToIndex = some fields → r.fieldsToIndex = some fields
  tag : ∀ asked, query.tag = some asked → asked.untyped.Holds reference (r.attribute .tag)
  groupId : ∀ asked, query.groupId = some asked →
    asked.untyped.Holds reference (r.attribute .groupId)
  deletedAt : ∀ asked, query.deletedAt = some asked → asked.Holds reference r

/-- Whether a record satisfies the document of a payload predicate alone. -/
def PartItem.Matches (item : PartItem) (reference : Instant) (r : Record) : Prop :=
  ∃ clause, item.clause reference = .ok clause ∧
    Document.satisfies r.toValue clause.document = .ok true

/-- Whether all that a query asks for holds of a record. -/
structure Query.Holds (query : Query) (reference : Instant) (r : Record) : Prop where
  part : ∀ logical, query.part = some logical →
    ∀ item ∈ logical.conjuncts.getD [] ++ logical.alternatives.getD [], item.Matches reference r
  attributes : ∀ asked, query.attributes = some asked →
    ∀ target predicates, asked.ofColumn? target = some predicates →
      predicates.Holds reference (r.attribute target)
  topLevel : ∀ asked, query.topLevel = some asked → asked.Holds reference r

/-! ## One predicate -/

namespace Comparison

theorem holds_gt {a b : Double} : gt.holds (a.compare b) = true ↔ b.signed < a.signed := by
  rw [holds, beq_iff_eq, Double.compare, Int.compare_eq_gt]

theorem holds_gte {a b : Double} : gte.holds (a.compare b) = true ↔ b.signed ≤ a.signed := by
  rw [holds, bne_iff_ne, Double.compare, Int.compare_ne_lt]

theorem holds_lt {a b : Double} : lt.holds (a.compare b) = true ↔ a.signed < b.signed := by
  rw [holds, beq_iff_eq, Double.compare, Int.compare_eq_lt]

theorem holds_lte {a b : Double} : lte.holds (a.compare b) = true ↔ a.signed ≤ b.signed := by
  rw [holds, bne_iff_ne, Double.compare, Int.compare_ne_gt]

end Comparison

theorem forall_mem_toList_map {α β : Type} {o : Option α} {f : α → β} {p : β → Prop} :
    (∀ b ∈ (o.map f).toList, p b) ↔ ∀ a, o = some a → p (f a) := by
  cases o <;> simp

/-- Whether a literal equals the values that an operand is, and no others. -/
def Value.StandsFor (literal operand : Value) : Prop :=
  ∀ x : Value, x.equal literal = true ↔ x.Is operand

theorem Value.standsFor_string (s : String) : (string s).StandsFor (.string s) := by
  intro x
  cases x <;> simp [equal, Is]

theorem Value.standsFor_number (n : Number) : (double n.toDouble).StandsFor (.number n) := by
  intro x
  cases x <;> simp [double, equal, Is, Number.equal, Double.equal, Number.toDouble]

theorem Value.standsFor_float (x : Float64) : (float x).StandsFor (.float x) := by
  have null : Value.null.StandsFor .null := by
    intro x
    cases x <;> simp [equal, Is]
  cases x with
  | finite d => exact standsFor_number (.double d)
  | _ => exact null

/-- Whether the operands of a query are those of typed predicates, each with the literal that stands
for it. -/
structure AttributeQuery.Reads {α : Type} (query : AttributeQuery) (literal : α → Value)
    (eq neq : Option α) (isIn notIn : Option (List α)) : Prop where
  eq : Option.Rel (fun a v => (literal a).StandsFor v) eq query.eq
  neq : Option.Rel (fun a v => (literal a).StandsFor v) neq query.neq
  isIn : Option.Rel (List.Forall₂ fun a v => (literal a).StandsFor v) isIn query.isIn
  notIn : Option.Rel (List.Forall₂ fun a v => (literal a).StandsFor v) notIn query.notIn

/-- Whether number predicates are those of a query. -/
structure NumberQuery.IsReadFrom (typed : NumberQuery) (query : AttributeQuery) : Prop where
  operands : query.Reads .float typed.eq typed.neq typed.isIn typed.notIn
  gt : query.gt = typed.gt
  gte : query.gte = typed.gte
  lt : query.lt = typed.lt
  lte : query.lte = typed.lte
  between : query.between = typed.between.map fun bounds => [bounds.1, bounds.2]

theorem rel_map {α β : Type} {r : α → β → Prop} {f : α → β} (h : ∀ a, r a (f a)) (o : Option α) :
    Option.Rel r o (o.map f) := by
  cases o with
  | none => exact .none
  | some a => exact .some (h a)

/-- Literals that stand for themselves are read from a query that has them as its operands. -/
theorem AttributeQuery.Reads.of_literals {α : Type} {query : AttributeQuery} {literal : α → Value}
    {eq neq : Option α} {isIn notIn : Option (List α)} (h : ∀ a, (literal a).StandsFor (literal a))
    (heq : query.eq = eq.map literal) (hneq : query.neq = neq.map literal)
    (hisIn : query.isIn = isIn.map (List.map literal))
    (hnotIn : query.notIn = notIn.map (List.map literal)) :
    query.Reads literal eq neq isIn notIn := by
  have list (as : List α) :
      List.Forall₂ (fun a v => (literal a).StandsFor v) as (as.map literal) :=
    List.forall₂_map_right_iff.2 (List.forall₂_same.2 fun a _ => h a)
  exact ⟨heq ▸ rel_map h eq, hneq ▸ rel_map h neq, hisIn ▸ rel_map list isIn,
    hnotIn ▸ rel_map list notIn⟩

namespace Predicate

open Document

section

variable {α : Type} {literal : α → Value} {x : Value} (hx : x.isArray = false)

include hx

/-! ### Operands -/

theorem selects_eq_iff {o : Option α} {operand : Option Value}
    (h : Option.Rel (fun a v => (literal a).StandsFor v) o operand) :
    (∀ a, o = some a → selects [some x] (.eq (literal a)) = true) ↔
      ∀ v, operand = some v → x.Is v := by
  cases h with
  | none => simp
  | some ha => simp [selects, equalsSome_singleton hx, ha x]

theorem selects_neq_iff {o : Option α} {operand : Option Value}
    (h : Option.Rel (fun a v => (literal a).StandsFor v) o operand) :
    (∀ a, o = some a → selects [some x] (.neq (literal a)) = true) ↔
      ∀ v, operand = some v → ¬ x.Is v := by
  cases h with
  | none => simp
  | some ha => simp [selects, equalsSome_singleton hx, ← ha x]

theorem any_literals {as : List α} {operands : List Value}
    (h : List.Forall₂ (fun a v => (literal a).StandsFor v) as operands) :
    (as.map literal).any (equalsSome [some x]) = true ↔ ∃ operand ∈ operands, x.Is operand := by
  induction h with
  | nil => simp
  | cons ha _ ih => simpa [equalsSome_singleton hx, ha x] using or_congr_right ih

theorem selects_isIn_iff {o : Option (List α)} {operands : Option (List Value)}
    (h : Option.Rel (List.Forall₂ fun a v => (literal a).StandsFor v) o operands) :
    (∀ as, o = some as → selects [some x] (.isIn (as.map literal)) = true) ↔
      ∀ vs, operands = some vs → ∃ v ∈ vs, x.Is v := by
  cases h with
  | none => simp
  | some has => simp only [Option.some.injEq, forall_eq', selects, any_literals hx has]

theorem selects_notIn_iff {o : Option (List α)} {operands : Option (List Value)}
    (h : Option.Rel (List.Forall₂ fun a v => (literal a).StandsFor v) o operands) :
    (∀ as, o = some as → selects [some x] (.notIn (as.map literal)) = true) ↔
      ∀ vs, operands = some vs → ¬ ∃ v ∈ vs, x.Is v := by
  cases h with
  | none => simp
  | some has => simp only [Option.some.injEq, forall_eq', selects, Bool.not_eq_true',
      ← Bool.not_eq_true, any_literals hx has]

/-! ### Bounds -/

theorem selects_compare (op : Comparison) (bound : Float64) :
    selects [some x] (.compare op bound) = true ↔
      ∃ b, bound = .finite b ∧ x.IsNumber fun d => op.holds (d.compare b) = true := by
  rw [selects, comparesSome_singleton hx, Option.any_eq_true]
  cases bound <;> cases x <;> simp [Value.number?, Value.IsNumber, Comparison.admits]

omit hx in
theorem selects_between (low high : Float64) :
    selects [some x] (.between low high) = true ↔
      selects [some x] (.compare .gte low) = true ∧ selects [some x] (.compare .lte high) = true := by
  simp [selects]

end

end Predicate

/-! ## Attributes -/


namespace AttributeQuery

variable {query : AttributeQuery} {x : Value}

theorem forall_operands {p : Value → Prop} :
    (∀ v ∈ query.operands, p v) ↔
      (∀ v, query.eq = some v → p v) ∧ (∀ v, query.neq = some v → p v) ∧
      (∀ vs, query.isIn = some vs → ∀ v ∈ vs, p v) ∧
      ∀ vs, query.notIn = some vs → ∀ v ∈ vs, p v := by
  have list : ∀ {o : Option (List Value)},
      (∀ v ∈ o.getD [], p v) ↔ ∀ vs, o = some vs → ∀ v ∈ vs, p v := by
    intro o
    cases o <;> simp
  have single : ∀ {o : Option Value}, (∀ v ∈ o.toList, p v) ↔ ∀ v, o = some v → p v := by
    intro o
    cases o <;> simp
  rw [operands, List.forall_mem_append, List.forall_mem_append, List.forall_mem_append, single,
    single, list, list, and_assoc, and_assoc]

/-- Operands that are all read as literals that stand for them. -/
theorem reads_of_operands {α : Type} {read : Value → Option α} {literal : α → Value}
    (h : ∀ v ∈ query.operands, ∃ a, read v = some a ∧ (literal a).StandsFor v) :
    query.Reads literal (query.eq.bind read) (query.neq.bind read)
      (query.isIn.map (List.filterMap read)) (query.notIn.map (List.filterMap read)) := by
  have single : ∀ {o : Option Value},
      (∀ v, o = some v → ∃ a, read v = some a ∧ (literal a).StandsFor v) →
      Option.Rel (fun a v => (literal a).StandsFor v) (o.bind read) o := by
    intro o ho
    cases o with
    | none => exact .none
    | some v =>
      obtain ⟨a, ha, stands⟩ := ho v rfl
      rw [Option.bind_some, ha]
      exact .some stands
  have each : ∀ {vs : List Value}, (∀ v ∈ vs, ∃ a, read v = some a ∧ (literal a).StandsFor v) →
      List.Forall₂ (fun a v => (literal a).StandsFor v) (vs.filterMap read) vs := by
    intro vs hvs
    induction vs with
    | nil => exact .nil
    | cons v rest ih =>
      obtain ⟨hv, hrest⟩ := List.forall_mem_cons.1 hvs
      obtain ⟨a, ha, stands⟩ := hv
      rw [List.filterMap_cons_some ha]
      exact .cons stands (ih hrest)
  have list : ∀ {o : Option (List Value)},
      (∀ vs, o = some vs → ∀ v ∈ vs, ∃ a, read v = some a ∧ (literal a).StandsFor v) →
      Option.Rel (List.Forall₂ fun a v => (literal a).StandsFor v)
        (o.map (List.filterMap read)) o := by
    intro o ho
    cases o with
    | none => exact .none
    | some vs => exact .some (each (ho vs rfl))
  obtain ⟨eq, neq, isIn, notIn⟩ := forall_operands.1 h
  exact ⟨single eq, single neq, list isIn, list notIn⟩

/-- The two bounds of `between` are those of the query. -/
theorem between_of_betweenBounds? {between : Option (Bound × Bound)}
    (h : query.betweenBounds? = .ok between) :
    query.between = between.map fun bounds => [bounds.1, bounds.2] := by
  unfold betweenBounds? at h
  split at h
  · next hnone =>
    cases h
    exact hnone
  · next hsome =>
    cases h
    exact hsome
  · cases h

/-! ### Families -/

/-- The family that is found is that of every operand, and the one known before if there is any. -/
theorem family_of_join {known joined : Option Family} {operands : List Value}
    (h : Family.join known operands = .ok joined) :
    (∀ family, known = some family → joined = some family) ∧
      ∀ v ∈ operands, ∃ family, joined = some family ∧ Family.ofOperand v = .ok family := by
  induction operands generalizing known with
  | nil =>
    cases h
    exact ⟨fun _ => id, fun v hv => absurd hv List.not_mem_nil⟩
  | cons v rest ih =>
    obtain ⟨family, hfamily, h⟩ := bind_eq_ok.1 h
    split at h
    · cases h
    · next hknown =>
      obtain ⟨hjoined, hrest⟩ := ih h
      refine ⟨fun other hother => ?_, List.forall_mem_cons.2 ⟨⟨family, hjoined family rfl, hfamily⟩,
        hrest⟩⟩
      subst hother
      simp only [Option.isSome_some, true_and, ne_eq, Decidable.not_not] at hknown
      rw [hknown]
      exact hjoined family rfl

/-- An accepted query has operands of one family only, which is that of the operators that only numbers
have, if it has any of these. -/
theorem classify_cases {typed : TypedQuery} (h : query.classify = .ok typed) :
    ((∀ v ∈ query.operands, Family.ofOperand v = .ok .number) ∧
      (query.operands ≠ [] ∨ query.hasRange = true) ∧
      ∃ between, query.betweenBounds? = .ok between ∧ typed = .number (query.numbers between)) ∨
    ((∀ v ∈ query.operands, Family.ofOperand v = .ok .string) ∧ query.hasRange = false ∧
      typed = .string query.strings) := by
  obtain ⟨joined, hjoined, h⟩ := bind_eq_ok.1 h
  obtain ⟨hrange, hoperands⟩ := family_of_join hjoined
  split at h
  · obtain ⟨between, hbetween, h⟩ := bind_eq_ok.1 h
    cases h
    refine .inl ⟨fun v hv => ?_, ?_, between, hbetween, rfl⟩
    · obtain ⟨family, hfamily, hv⟩ := hoperands v hv
      cases hfamily
      exact hv
    · refine Classical.byContradiction fun hnone => ?_
      rw [not_or, Decidable.not_not, Bool.not_eq_true] at hnone
      rw [hnone.1, hnone.2] at hjoined
      cases hjoined
  · next hstring =>
    cases h
    refine .inr ⟨fun v hv => ?_, ?_, rfl⟩
    · obtain ⟨family, hfamily, hv⟩ := hoperands v hv
      cases family with
      | number => exact absurd hfamily hstring
      | string => exact hv
    · refine Bool.eq_false_iff.2 fun hhas => hstring (hrange .number ?_)
      rw [if_pos hhas]

theorem read_of_string {v : Value} (h : Family.ofOperand v = .ok .string) :
    ∃ s, v.string? = some s ∧ (Value.string s).StandsFor v := by
  cases v with
  | string s => exact ⟨s, rfl, Value.standsFor_string s⟩
  | _ => cases h

theorem read_of_number {v : Value} (h : Family.ofOperand v = .ok .number) :
    ∃ x, Wire.float? v = some x ∧ (Value.float x).StandsFor v := by
  cases v with
  | number n => exact ⟨.finite n.toDouble, rfl, Value.standsFor_number n⟩
  | _ => cases h

end AttributeQuery

/-! ### Typed predicates -/

section

variable {query : AttributeQuery} {x : Value} (hx : x.isArray = false)

include hx

/-- String predicates ask for what the query means that they are read from. -/
theorem StringQuery.selects_iff {typed : StringQuery}
    (h : query.Reads .string typed.eq typed.neq typed.isIn typed.notIn)
    (hrange : query.hasRange = false) (reference : Instant) :
    (∀ p ∈ typed.predicates, p.selects [some x] = true) ↔ query.Holds reference x := by
  simp only [AttributeQuery.hasRange, Bool.or_eq_false_iff, Option.isSome_eq_false_iff,
    Option.isNone_iff_eq_none] at hrange
  obtain ⟨⟨⟨⟨hgt, hgte⟩, hlt⟩, hlte⟩, hbetween⟩ := hrange
  simp only [StringQuery.predicates, List.forall_mem_append, forall_mem_toList_map]
  rw [Predicate.selects_eq_iff hx h.eq, Predicate.selects_neq_iff hx h.neq,
    Predicate.selects_isIn_iff hx h.isIn, Predicate.selects_notIn_iff hx h.notIn]
  constructor
  · rintro ⟨⟨⟨eq, neq⟩, isIn⟩, notIn⟩
    exact ⟨eq, neq, isIn, notIn, by simp [hgt], by simp [hgte], by simp [hlt], by simp [hlte],
      by simp [hbetween]⟩
  · intro h
    exact ⟨⟨⟨h.eq, h.neq⟩, h.isIn⟩, h.notIn⟩

/-- Number predicates ask for what the query means that they are read from. -/
theorem NumberQuery.selects_iff {typed : NumberQuery} (h : typed.IsReadFrom query)
    (reference : Instant) :
    (∀ p ∈ typed.predicates reference, p.selects [some x] = true) ↔ query.Holds reference x := by
  simp only [NumberQuery.predicates, List.forall_mem_append, forall_mem_toList_map]
  rw [Predicate.selects_eq_iff hx h.operands.eq, Predicate.selects_neq_iff hx h.operands.neq,
    Predicate.selects_isIn_iff hx h.operands.isIn, Predicate.selects_notIn_iff hx h.operands.notIn,
    ← h.gt, ← h.gte, ← h.lt, ← h.lte]
  simp only [Predicate.selects_between, Predicate.selects_compare hx, Comparison.holds_gt,
    Comparison.holds_gte, Comparison.holds_lt, Comparison.holds_lte]
  constructor
  · rintro ⟨⟨⟨⟨⟨⟨⟨⟨eq, neq⟩, isIn⟩, notIn⟩, gt⟩, gte⟩, lt⟩, lte⟩, inside⟩
    refine ⟨eq, neq, isIn, notIn, gt, gte, lt, lte, fun bounds hbounds => ?_⟩
    rw [h.between, Option.map_eq_some_iff] at hbounds
    obtain ⟨⟨low, high⟩, hboth, rfl⟩ := hbounds
    exact ⟨low, high, rfl, inside (low, high) hboth⟩
  · intro holds
    refine ⟨⟨⟨⟨⟨⟨⟨⟨holds.eq, holds.neq⟩, holds.isIn⟩, holds.notIn⟩, holds.gt⟩, holds.gte⟩,
      holds.lt⟩, holds.lte⟩, fun bounds hboth => ?_⟩
    have asked : query.between = some [bounds.1, bounds.2] := by rw [h.between, hboth]; rfl
    obtain ⟨low, high, hsame, inside⟩ := holds.between _ asked
    cases hsame
    exact inside

theorem StringQuery.selects_untyped (query : StringQuery) (reference : Instant) :
    (∀ p ∈ query.predicates, p.selects [some x] = true) ↔ query.untyped.Holds reference x :=
  selects_iff hx (.of_literals Value.standsFor_string rfl rfl rfl rfl) rfl reference

theorem NumberQuery.selects_untyped (query : NumberQuery) (reference : Instant) :
    (∀ p ∈ query.predicates reference, p.selects [some x] = true) ↔
      query.untyped.Holds reference x :=
  selects_iff hx ⟨.of_literals Value.standsFor_float rfl rfl rfl rfl, rfl, rfl, rfl, rfl, rfl⟩
    reference

end

theorem Clause.holds_onColumn (r : Record) (target : Column) (predicates : List Predicate) :
    (onColumn target predicates).holds r = true ↔
      ∀ p ∈ predicates, p.selects [some (r.attribute target)] = true := by
  rw [onColumn, holds_all, List.all_map, List.all_eq_true]
  rfl

/-- The clause of the predicates on an attribute asks for what they mean. -/
theorem AttributeQuery.holds_clause {query : AttributeQuery} {target : Column} {reference : Instant}
    {clause : Clause} {r : Record} (h : query.clause target reference = .ok clause)
    (hvalue : (r.attribute target).isArray = false) :
    clause.holds r = true ↔ query.Holds reference (r.attribute target) := by
  obtain ⟨typed, htyped, h⟩ := bind_eq_ok.1 h
  cases h
  obtain ⟨numbers, -, between, hbetween, rfl⟩ | ⟨strings, hrange, rfl⟩ := classify_cases htyped
  · have reads := reads_of_operands fun v hv => read_of_number (numbers v hv)
    exact (Clause.holds_onColumn r target _).trans (NumberQuery.selects_iff hvalue
      ⟨reads, rfl, rfl, rfl, rfl, between_of_betweenBounds? hbetween⟩ reference)
  · have reads := reads_of_operands fun v hv => read_of_string (strings v hv)
    exact (Clause.holds_onColumn r target _).trans
      (StringQuery.selects_iff hvalue reads hrange reference)

/-! ## Top-level fields -/

theorem Record.isArray_attribute (r : Record) {target : Column} (h : target ≠ .fieldsToIndex) :
    (r.attribute target).isArray = false := by
  have optional : ∀ {β : Type} {toValue : β → Value} (o : Option β),
      (∀ b, (toValue b).isArray = false) → (Wire.optionValue toValue o).isArray = false := by
    intro β toValue o hb
    cases o with
    | none => rfl
    | some b => exact hb b
  cases target with
  | fieldsToIndex => exact absurd rfl h
  | deletedAt => exact optional r.deletedAt fun _ => rfl
  | deletedBy => exact optional r.deletedBy fun _ => rfl
  | deletedByType => exact optional r.deletedByType fun _ => rfl
  | _ => rfl

theorem Value.equalItems_strings (a b : List String) :
    equalItems (a.map .string) (b.map .string) = true ↔ a = b := by
  induction a generalizing b with
  | nil => cases b <;> simp [equalItems]
  | cons s rest ih => cases b <;> simp [equalItems, equal, ih]

/-- The list of the fields to index equals a list as a whole; none of its members is a list. -/
theorem holds_fieldsToIndex (r : Record) (fields : List String) :
    (Clause.column .fieldsToIndex (.eq (.strings fields))).holds r = true ↔
      r.fieldsToIndex = some fields := by
  rw [Clause.holds, Predicate.selects, Record.attribute]
  cases r.fieldsToIndex with
  | none => simp [Wire.optionValue, Document.equalsSome, Document.candidates, Value.strings,
      Value.equal, Value.isNull]
  | some stored => simp [Wire.optionValue, Document.equalsSome, Document.candidates, Value.strings,
      Value.equal, Value.isNull, Value.equalItems_strings]

theorem DeletedAtQuery.holds_clause (query : DeletedAtQuery) (reference : Instant) (r : Record) :
    (query.clause reference).holds r = true ↔ query.Holds reference r := by
  cases query with
  | isNull flag =>
    rw [clause, Clause.holds_isNull_deletedAt, Record.isDeleted, Holds]
    cases r.deletedAt <;> cases flag <;> simp
  | number asked =>
    rw [clause, Clause.holds_onColumn, Holds]
    exact NumberQuery.selects_untyped (r.isArray_attribute (by decide)) asked reference

theorem TopLevelQuery.holds_clause (query : TopLevelQuery) (reference : Instant) (r : Record) :
    (query.clause reference).holds r = true ↔ query.Holds reference r := by
  have shouldIndex : ∀ flag, (Clause.column .shouldIndex (.eq (.bool flag))).holds r = true ↔
      r.shouldIndex = flag := by
    intro flag
    rw [Clause.holds, Predicate.selects, Document.equalsSome_singleton rfl, Record.attribute,
      Value.equal, beq_iff_eq]
  have strings : ∀ target, target ≠ Column.fieldsToIndex → ∀ asked : StringQuery,
      (Clause.onColumn target asked.predicates).holds r = true ↔
        asked.untyped.Holds reference (r.attribute target) := by
    intro target htarget asked
    rw [Clause.holds_onColumn]
    exact StringQuery.selects_untyped (r.isArray_attribute htarget) asked reference
  rw [clause, Clause.holds_all, List.all_eq_true]
  simp only [List.forall_mem_append, forall_mem_toList_map, shouldIndex, holds_fieldsToIndex,
    strings .tag (by decide), strings .groupId (by decide), DeletedAtQuery.holds_clause]
  constructor
  · rintro ⟨⟨⟨⟨shouldIndex, fieldsToIndex⟩, tag⟩, groupId⟩, deletedAt⟩
    exact ⟨shouldIndex, fieldsToIndex, tag, groupId, deletedAt⟩
  · intro h
    exact ⟨⟨⟨⟨h.shouldIndex, h.fieldsToIndex⟩, h.tag⟩, h.groupId⟩, h.deletedAt⟩

/-! ## Whole queries -/

theorem MetaQuery.mem_entries_iff (query : MetaQuery) {target : Column} {asked : AttributeQuery} :
    (target, asked) ∈ query.entries ↔ query.ofColumn? target = some asked := by
  cases target <;> simp [entries, ofColumn?]

theorem MetaQuery.holds_clause {query : MetaQuery} {reference : Instant} {clause : Clause}
    {r : Record} (h : query.clause reference = .ok clause) :
    clause.holds r = true ↔ ∀ target predicates, query.ofColumn? target = some predicates →
      predicates.Holds reference (r.attribute target) := by
  obtain ⟨clauses, hclauses, h⟩ := bind_eq_ok.1 h
  cases h
  rw [Clause.holds_all, List.all_eq_true]
  refine (forall_mapM_iff hclauses (q := fun entry => entry.2.Holds reference (r.attribute entry.1))
    fun entry hentry clause h => ?_).trans ?_
  · have value : (r.attribute entry.1).isArray = false := r.isArray_attribute fun hfields => by
      have asked := query.mem_entries_iff.1 hentry
      rw [hfields] at asked
      cases asked
    exact AttributeQuery.holds_clause h value
  · simp only [Prod.forall, mem_entries_iff]

theorem PartItem.holds_clause {item : PartItem} {reference : Instant} {clause : Clause}
    {r : Record} (h : item.clause reference = .ok clause) :
    clause.holds r = true ↔ item.Matches reference r := by
  constructor
  · intro hholds
    exact ⟨clause, h, by rw [Document.satisfies_clause, hholds]⟩
  · rintro ⟨other, hother, hmatches⟩
    rw [h] at hother
    cases hother
    rw [Document.satisfies_clause] at hmatches
    exact Except.ok.inj hmatches

theorem LogicalQuery.holds_clause {query : LogicalQuery} {reference : Instant} {clause : Clause}
    {r : Record} (h : query.clause reference = .ok clause) :
    clause.holds r = true ↔
      ∀ item ∈ query.conjuncts.getD [] ++ query.alternatives.getD [], item.Matches reference r := by
  obtain ⟨clauses, hclauses, h⟩ := bind_eq_ok.1 h
  cases h
  rw [Clause.holds_all, List.all_eq_true]
  refine (forall_mapM_iff hclauses (q := fun items => ∀ item ∈ items, item.Matches reference r)
    fun items hitems clause h => ?_).trans ?_
  · obtain ⟨clauses, hclauses, h⟩ := bind_eq_ok.1 h
    cases h
    rw [Clause.holds_all, List.all_eq_true]
    exact forall_mapM_iff hclauses fun item hitem clause h => PartItem.holds_clause h
  · cases query.conjuncts <;> cases query.alternatives <;> simp [or_imp, forall_and]

/-- The clause of a query that is accepted asks for what the query means. -/
theorem Query.holds_clause_iff {query : Query} {reference : Instant} {clause : Clause}
    (h : query.clause reference = .ok clause) (r : Record) :
    clause.holds r = true ↔ query.Holds reference r := by
  obtain ⟨part, hpart, h⟩ := bind_eq_ok.1 h
  obtain ⟨attributes, hattributes, h⟩ := bind_eq_ok.1 h
  cases h
  rw [Clause.holds_all, List.all_eq_true, List.forall_mem_append, List.forall_mem_append,
    forall_mapM_iff hpart fun logical _ clause h => LogicalQuery.holds_clause h,
    forall_mapM_iff hattributes fun asked _ clause h => MetaQuery.holds_clause h]
  simp only [List.forall_mem_map, TopLevelQuery.holds_clause, Option.mem_toList]
  constructor
  · rintro ⟨⟨part, attributes⟩, topLevel⟩
    exact ⟨part, attributes, topLevel⟩
  · intro h
    exact ⟨⟨h.part, h.attributes⟩, h.topLevel⟩

/-- The document of a query that is accepted is evaluated without error on every record, and is
satisfied by those of which all that the query asks for holds. -/
theorem Query.satisfies_document_iff {query : Query} {reference : Instant} {clause : Clause}
    (h : query.clause reference = .ok clause) (r : Record) :
    ∃ matched, Document.satisfies r.toValue clause.document = .ok matched ∧
      (matched = true ↔ query.Holds reference r) :=
  ⟨clause.holds r, Document.satisfies_clause r clause, Query.holds_clause_iff h r⟩

/-- A query with predicates of all kinds, one of which rules out a text where there is none. -/
theorem Query.satisfies_document_iff_all_kinds :
    let r : Record := { (default : Record) with
      id := "a", tag := "t", payload := .object [("n", .int 1)], createdAt := 5,
      fieldsToIndex := some ["n"] }
    let anything : AttributeQuery := ⟨none, none, none, none, none, none, none, none, none⟩
    let attributes : MetaQuery := ⟨
      some { anything with isIn := some [.string "b", .string "a"] },
      some { anything with
        neq := some (.int 6), between := some [.number (.finite .zero), .duration ⟨-2, .ms⟩] },
      none, none, none, none, none, some { anything with neq := some (.string "u") }, none⟩
    let topLevel : TopLevelQuery :=
      ⟨some false, some ["n"], some ⟨some "t", none, none, none⟩, none, some (.isNull true)⟩
    let query : Query := ⟨some ⟨some [⟨.eq, "n", .int 1, none⟩], some [⟨.gt, "n", .int 0, none⟩]⟩,
      some attributes, some topLevel⟩
    (∃ clause, query.clause 7 = .ok clause) ∧ query.Holds 7 r := by
  intro r anything attributes topLevel query
  have evaluated : (query.clause 7).toOption.map (fun clause =>
      (Document.satisfies r.toValue clause.document).toOption) = some (some true) := by
    decide +kernel
  cases hclause : query.clause 7 with
  | error e =>
    rw [hclause] at evaluated
    cases evaluated
  | ok clause =>
    obtain ⟨matched, hmatched, hiff⟩ := Query.satisfies_document_iff hclause r
    rw [hclause, Except.toOption, Option.map_some, hmatched] at evaluated
    cases evaluated
    exact ⟨⟨clause, rfl⟩, hiff.1 rfl⟩

/-- A number that is not finite is null to every predicate. So a record that has not been deleted is
found by such a time of deletion, and no instant is above minus infinity. -/
theorem Query.satisfies_document_iff_not_finite :
    let r : Record := { (default : Record) with createdAt := 5 }
    let never : NumberQuery := ⟨some .nan, none, none, none, none, none, none, none, none⟩
    let late : AttributeQuery :=
      ⟨none, none, none, none, some (.number (.infinite true)), none, none, none, none⟩
    let deleted : Query := ⟨none, none, some ⟨none, none, none, none, some (.number never)⟩⟩
    let created : Query :=
      ⟨none, some ⟨none, some late, none, none, none, none, none, none, none⟩, none⟩
    (r.attribute .deletedAt = .null ∧ ∃ clause, deleted.clause 0 = .ok clause ∧
      Document.satisfies r.toValue clause.document = .ok true) ∧
      r.attribute .createdAt = .int 5 ∧ ∃ clause, created.clause 0 = .ok clause ∧
        Document.satisfies r.toValue clause.document = .ok false :=
  ⟨⟨rfl, _, rfl, by decide +kernel⟩, rfl, _, rfl, by decide +kernel⟩

end RecordStore
