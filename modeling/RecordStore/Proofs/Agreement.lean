import RecordStore.Backend.Collection
import RecordStore.Proofs.Document.Clause
import RecordStore.Proofs.Sql.Attribute
import RecordStore.Proofs.Sql.Payload

/-!
# The backends select the same records

A query document and an SQL condition that are made from one clause are true of the same plain
records. Both sides are compared with what the clause asks for (`Document.satisfies_clause`,
`Clause.eval_condition`).
-/

namespace RecordStore

namespace Sql

/-! ## Conjunctions -/

theorem and3_some (a b : Bool) : and3 (some a) (some b) = some (a && b) := by
  cases a <;> cases b <;> rfl

theorem Condition.eval_of_isAlways {condition : Condition} (h : condition.isAlways = true)
    (env : Env) : condition.eval env = some true := by
  cases condition with
  | always => rfl
  | _ => cases h

section

variable {α : Type} {env : Env} {f : α → Condition} {g : α → Bool} {parts : List α}

theorem evalAll_map (h : ∀ a ∈ parts, (f a).eval env = some (g a)) :
    Condition.evalAll (parts.map f) env = some (parts.all g) := by
  induction parts with
  | nil => rfl
  | cons a rest ih =>
    rw [List.map_cons, Condition.evalAll, h a List.mem_cons_self,
      ih fun b hb => h b (List.mem_cons_of_mem _ hb), and3_some, List.all_cons]

/-- A conjunction is true if all of its parts are, and false otherwise; those that are left out are
always true. -/
theorem eval_all (h : ∀ a ∈ parts, (f a).eval env = some (g a)) :
    (all (parts.map f)).eval env = some (parts.all g) := by
  have holds_always : ∀ a ∈ parts, (f a).isAlways = true → g a = true := by
    intro a ha halways
    have holds := h a ha
    rw [Condition.eval_of_isAlways halways] at holds
    exact (Option.some.inj holds).symm
  have dropped : (parts.filter fun a => !(f a).isAlways).all g = parts.all g :=
    all_filter_of_forall fun a ha hkeep => holds_always a ha (by simpa using hkeep)
  have kept : ∀ a ∈ parts.filter fun a => !(f a).isAlways, (f a).eval env = some (g a) :=
    fun a ha => h a (List.mem_filter.1 ha).1
  have shape : (parts.map f).filter (!·.isAlways) =
      (parts.filter fun a => !(f a).isAlways).map f := by
    rw [List.filter_map]
    rfl
  rw [← dropped, all, shape]
  generalize parts.filter (fun a => !(f a).isAlways) = parts at kept
  rcases parts with _ | ⟨first, _ | ⟨second, rest⟩⟩
  · rfl
  · simpa using kept first List.mem_cons_self
  · exact evalAll_map kept

end

end Sql

/-! ## Clauses -/

namespace Clause

theorem conditions_eq (clauses : List Clause) : conditions clauses = clauses.map condition := by
  induction clauses with
  | nil => rfl
  | cons clause rest ih => rw [conditions, ih, List.map_cons]

theorem eval_idAfter (r : Record) (cursor : String) :
    (Sql.idAfter cursor).eval ⟨r, []⟩ = some (compare r.id cursor == .gt) := by
  have id : (Sql.Term.column .id).eval ⟨r, []⟩ = .text r.id := rfl
  rw [Sql.idAfter, Sql.Condition.eval, id, Sql.Datum.ofParameter, Sql.test]
  simp [Sql.compare_text, Comparison.holds]

end Clause

/-! ## Queries -/

end RecordStore
