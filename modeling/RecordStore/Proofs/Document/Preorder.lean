import RecordStore.Proofs.Document.Field
import RecordStore.Proofs.Document.Order
import RecordStore.Proofs.Stable
import RecordStore.Proofs.Value.Equality

/-!
# One order and one equality

Values are ordered by a total preorder, in which those are equal that are equal field by field
(`Value.compare_totalPreorder`). Therefore to sort by it stably can be done in one way only, and it
does not matter that expressions test equality by comparing and field conditions by `Value.equal`.
-/

namespace RecordStore

/-! ## Sorting -/

/-- Records in an order by some keys, those that it does not tell apart as they stood. -/
theorem Collection.isStableSort_iff {order : List (String × SortDirection)}
    {found sorted : List Record} :
    IsStableSort (fun a b : Record => Document.compareBy order a.toValue b.toValue) found sorted ↔
      sorted = found.mergeSort (precedes order) := by
  have preorder : Std.TransCmp fun a b : Record =>
      Document.compareBy order a.toValue b.toValue := {
    eq_swap := Document.compareBy_swap order _ _
    isLE_trans := (Document.chained_compareBy order _ _ _).isLE }
  have isLE : precedes order = fun a b : Record =>
      (Document.compareBy order a.toValue b.toValue).isLE := funext₂ (precedes_eq_isLE order)
  rw [RecordStore.isStableSort_iff, isLE]

/-! ## Operators -/

namespace Document

/-- Whether an expression finds an operand equal to a value that is to be tested. Null equals what is
missing. -/
def IsFoundEqual (document : Value) (found : List (Option Value)) (operand : Value) : Prop :=
  (operand = .null ∧ none ∈ found) ∨ ∃ v ∈ candidates found,
    Expression.evaluate (equalsExpr (single "$literal" v) operand) document = .ok (.bool true)

theorem evaluate_equalsExpr (document v operand : Value) :
    Expression.evaluate (equalsExpr (single "$literal" v) operand) document =
      .ok (.bool (v.equal operand)) :=
  Expression.eval_equalsExpr (Expression.eval_literal v _) operand

theorem equalsSome_iff (document : Value) (found : List (Option Value)) (operand : Value) :
    equalsSome found operand = true ↔ IsFoundEqual document found operand := by
  have isNull : operand.isNull = true ↔ operand = .null := by cases operand <;> simp [Value.isNull]
  simp [equalsSome, IsFoundEqual, evaluate_equalsExpr, isNull]

end Document

/-! ## Values -/

namespace Value

open Document

/-- The order is a total preorder whose equality is the structural one; there is one stable sort by it,
and by keys of documents, and the operators that test equality agree. -/
theorem compare_totalPreorder :
    ((∀ a : Value, a.compare a = .eq) ∧ (∀ a b : Value, b.compare a = (a.compare b).swap) ∧
      ∀ a b c : Value, (a.compare b).isLE → (b.compare c).isLE → (a.compare c).isLE) ∧
    ((∀ a b : Value, a.compare b = .eq ↔ a.equal b = true) ∧
      ∀ a b : Value, a.Canonical → b.Canonical → a.equal b = a.equalByKey b) ∧
    ((∀ items sorted : List Value, IsStableSort Value.compare items sorted ↔
        sorted = items.mergeSort fun a b => (a.compare b).isLE) ∧
      ∀ (order : List (String × SortDirection)) (found sorted : List Record),
        IsStableSort (fun a b : Record => compareBy order a.toValue b.toValue) found sorted ↔
          sorted = found.mergeSort (Collection.precedes order)) ∧
    (∀ (σ : Expression.Bindings) (left right a b : Value),
      Expression.eval left σ = .ok a → Expression.eval right σ = .ok b →
        Expression.eval (single "$eq" (.array [left, right])) σ = .ok (.bool (a.equal b))) ∧
    ∀ (document : Value) (found : List (Option Value)) (operators : Fields),
      (∀ operand, ∃ holds, operatorHolds found operators "$eq" operand = .ok holds ∧
        (holds = true ↔ IsFoundEqual document found operand)) ∧
      ∀ operands, ∃ holds, operatorHolds found operators "$in" (.array operands) = .ok holds ∧
        (holds = true ↔ ∃ operand ∈ operands, IsFoundEqual document found operand) := by
  refine ⟨⟨fun a => Std.ReflCmp.compare_self, fun a b => compare_swap b a,
      fun a b c => (chained_compare a b c).isLE⟩,
    ⟨compare_eq_iff, fun a b ha hb => (equalByKey_eq ha hb).symm⟩,
    ⟨fun _ _ => isStableSort_iff, fun _ _ _ => Collection.isStableSort_iff⟩,
    fun σ left right a b hleft hright => ?_, fun document found operators => ⟨fun operand => ?_,
      fun operands => ?_⟩⟩
  · rw [Expression.eval_eq hleft hright, equal_eq_compare]
  · exact ⟨equalsSome found operand, rfl, equalsSome_iff document found operand⟩
  · refine ⟨operands.any (equalsSome found), rfl, ?_⟩
    simp only [List.any_eq_true, equalsSome_iff document found]

/-- Two objects whose numbers have different forms. -/
theorem compare_totalPreorder_forms :
    let a : Value := .object [("n", .int 1), ("xs", .array [.double (Double.ofInt 2), .null])]
    let b : Value := .object [("n", .double (Double.ofInt 1)), ("xs", .array [.int 2, .null])]
    let σ : Expression.Bindings := ⟨.null, []⟩
    a.Canonical ∧ b.Canonical ∧ a ≠ b ∧ a.compare b = .eq ∧ a.equalByKey b = true ∧
      Expression.eval (single "$literal" a) σ = .ok a ∧
      Expression.eval (single "$literal" b) σ = .ok b ∧
      Expression.eval (single "$eq" (.array [single "$literal" a, single "$literal" b])) σ =
        .ok (.bool true) := by
  intro a b σ
  have below : "n" < "xs" := by decide
  have sorted : ∀ v w : Value, Keyed.Sorted [("n", v), ("xs", w)] := fun _ _ =>
    List.pairwise_pair.2 below
  have ha : a.Canonical := ⟨sorted _ _, trivial, ⟨trivial, trivial, trivial⟩, trivial⟩
  have hb : b.Canonical := ⟨sorted _ _, trivial, ⟨trivial, trivial, trivial⟩, trivial⟩
  have equal : a.equal b = true := by decide +kernel
  obtain ⟨-, ⟨compares, byKey⟩, -, expressions, -⟩ := compare_totalPreorder
  have evaluated := expressions σ (single "$literal" a) (single "$literal" b) a b
    (Expression.eval_literal a σ) (Expression.eval_literal b σ)
  rw [equal] at evaluated
  exact ⟨ha, hb, by decide, (compares a b).2 equal, (byKey a b ha hb).symm.trans equal,
    Expression.eval_literal a σ, Expression.eval_literal b σ, evaluated⟩

end Value

end RecordStore
