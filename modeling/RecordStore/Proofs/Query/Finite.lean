import RecordStore.Proofs.Wire
import RecordStore.Query.Wire

/-!
# Queries with finite numbers

The numbers of a query on attributes need not be finite, but those of a value are: whatever is read
as a query has finite bounds and operands (`AttributeQuery.bounds_of_ofValue?`,
`NumberQuery.isFinite_of_ofValue?`), and a finite bound leads to a finite number
(`Bound.IsFinite.resolve`).
-/

namespace RecordStore

def Float64.IsFinite : Float64 → Prop
  | .finite _ => True
  | _ => False

theorem Float64.IsFinite.exists {x : Float64} (h : x.IsFinite) : ∃ d, x = .finite d := by
  cases x with
  | finite d => exact ⟨d, rfl⟩
  | _ => cases h

theorem Wire.isFinite_of_float? (v : Value) (x : Float64) (h : Wire.float? v = some x) :
    x.IsFinite := by
  obtain ⟨n, -, rfl⟩ := Option.map_eq_some_iff.1 h
  trivial

namespace Bound

def IsFinite : Bound → Prop
  | .number x => x.IsFinite
  | .duration _ => True

theorem IsFinite.resolve {bound : Bound} (h : bound.IsFinite) (reference : Instant) :
    (bound.resolve reference).IsFinite := by
  cases bound with
  | number x => exact h
  | duration offset => trivial

theorem isFinite_of_ofValue? (v : Value) (bound : Bound) (h : ofValue? v = some bound) :
    bound.IsFinite := by
  unfold ofValue? at h
  split at h
  · next x hx =>
    cases h
    exact Wire.isFinite_of_float? v x hx
  · obtain ⟨offset, -, rfl⟩ := Option.map_eq_some_iff.1 h
    trivial

theorem isFinite_of_pair? (v : Value) (bounds : Bound × Bound) (h : pair? v = some bounds) :
    bounds.1.IsFinite ∧ bounds.2.IsFinite := by
  unfold pair? at h
  split at h
  · next low high =>
    obtain ⟨lowBound, hlow, h⟩ := Option.bind_eq_some_iff.1 h
    obtain ⟨highBound, hhigh, h⟩ := Option.bind_eq_some_iff.1 h
    cases h
    exact ⟨isFinite_of_ofValue? low lowBound hlow, isFinite_of_ofValue? high highBound hhigh⟩
  · cases h

theorem isFinite_of_optional {member : Option Value} {found : Option Bound}
    (h : Wire.optional ofValue? member = some found) : ∀ bound ∈ found, bound.IsFinite :=
  Wire.forall_of_optional isFinite_of_ofValue? h

end Bound

/-! ## Predicates on attributes -/

namespace AttributeQuery

def bounds (query : AttributeQuery) : List Bound :=
  query.gt.toList ++ query.gte.toList ++ query.lt.toList ++ query.lte.toList ++
    query.between.getD []

theorem bounds_of_ofValue? {v : Value} {query : AttributeQuery} (h : ofValue? v = some query) :
    ∀ bound ∈ query.bounds, bound.IsFinite := by
  obtain ⟨member, -, h⟩ := Option.bind_eq_some_iff.1 h
  obtain ⟨eq, -, h⟩ := Option.bind_eq_some_iff.1 h
  obtain ⟨neq, -, h⟩ := Option.bind_eq_some_iff.1 h
  obtain ⟨isIn, -, h⟩ := Option.bind_eq_some_iff.1 h
  obtain ⟨notIn, -, h⟩ := Option.bind_eq_some_iff.1 h
  obtain ⟨gt, hgt, h⟩ := Option.bind_eq_some_iff.1 h
  obtain ⟨gte, hgte, h⟩ := Option.bind_eq_some_iff.1 h
  obtain ⟨lt, hlt, h⟩ := Option.bind_eq_some_iff.1 h
  obtain ⟨lte, hlte, h⟩ := Option.bind_eq_some_iff.1 h
  obtain ⟨between, hbetween, h⟩ := Option.bind_eq_some_iff.1 h
  cases h
  simp only [bounds, List.forall_mem_append, Option.mem_toList]
  exact ⟨⟨⟨⟨Bound.isFinite_of_optional hgt, Bound.isFinite_of_optional hgte⟩,
    Bound.isFinite_of_optional hlt⟩, Bound.isFinite_of_optional hlte⟩,
    Wire.forall_of_optional_list? Bound.isFinite_of_ofValue? hbetween⟩

end AttributeQuery

namespace NumberQuery

def operands (query : NumberQuery) : List Float64 :=
  query.eq.toList ++ query.neq.toList ++ query.isIn.getD [] ++ query.notIn.getD []

def bounds (query : NumberQuery) : List Bound :=
  query.gt.toList ++ query.gte.toList ++ query.lt.toList ++ query.lte.toList ++
    (query.between.map fun bounds => [bounds.1, bounds.2]).getD []

/-- A query whose numbers are all finite. -/
structure IsFinite (query : NumberQuery) : Prop where
  operands : ∀ x ∈ query.operands, x.IsFinite
  bounds : ∀ bound ∈ query.bounds, bound.IsFinite

theorem isFinite_of_ofValue? {v : Value} {query : NumberQuery} (h : ofValue? v = some query) :
    query.IsFinite := by
  obtain ⟨member, -, h⟩ := Option.bind_eq_some_iff.1 h
  obtain ⟨eq, heq, h⟩ := Option.bind_eq_some_iff.1 h
  obtain ⟨neq, hneq, h⟩ := Option.bind_eq_some_iff.1 h
  obtain ⟨isIn, hisIn, h⟩ := Option.bind_eq_some_iff.1 h
  obtain ⟨notIn, hnotIn, h⟩ := Option.bind_eq_some_iff.1 h
  obtain ⟨gt, hgt, h⟩ := Option.bind_eq_some_iff.1 h
  obtain ⟨gte, hgte, h⟩ := Option.bind_eq_some_iff.1 h
  obtain ⟨lt, hlt, h⟩ := Option.bind_eq_some_iff.1 h
  obtain ⟨lte, hlte, h⟩ := Option.bind_eq_some_iff.1 h
  obtain ⟨between, hbetween, h⟩ := Option.bind_eq_some_iff.1 h
  cases h
  constructor
  · simp only [NumberQuery.operands, List.forall_mem_append, Option.mem_toList]
    exact ⟨⟨⟨Wire.forall_of_optional Wire.isFinite_of_float? heq,
      Wire.forall_of_optional Wire.isFinite_of_float? hneq⟩,
      Wire.forall_of_optional_list? Wire.isFinite_of_float? hisIn⟩,
      Wire.forall_of_optional_list? Wire.isFinite_of_float? hnotIn⟩
  · simp only [NumberQuery.bounds, List.forall_mem_append, Option.mem_toList]
    refine ⟨⟨⟨⟨Bound.isFinite_of_optional hgt, Bound.isFinite_of_optional hgte⟩,
      Bound.isFinite_of_optional hlt⟩, Bound.isFinite_of_optional hlte⟩, ?_⟩
    cases between with
    | none => exact List.forall_mem_nil _
    | some bounds => simpa using Wire.forall_of_optional Bound.isFinite_of_pair? hbetween bounds rfl

end NumberQuery

end RecordStore
