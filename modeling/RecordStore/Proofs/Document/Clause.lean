import RecordStore.Proofs.Document.Field
import RecordStore.Proofs.Document.Payload

/-!
# The meaning of query documents

What a clause asks of a record (`Clause.holds`), and that the query document of a clause is
satisfied exactly then (`Document.satisfies_clause`). Matching the document of a clause never fails,
whatever the clause and the record are.
-/

namespace RecordStore

open Document

namespace Clause

/-- Induction over the conjunctions of a clause. -/
@[elab_as_elim]
theorem induction {motive : Clause → Prop}
    (payload : ∀ path predicate, motive (.payload path predicate))
    (column : ∀ target predicate, motive (.column target predicate))
    (idAfter : ∀ cursor, motive (.idAfter cursor))
    (all : ∀ clauses, (∀ clause ∈ clauses, motive clause) → motive (.all clauses)) :
    ∀ clause, motive clause
  | .payload path predicate => payload path predicate
  | .column target predicate => column target predicate
  | .idAfter cursor => idAfter cursor
  | .all clauses => all clauses fun clause _ => induction payload column idAfter all clause

mutual

/-- Whether a record satisfies a clause. -/
def holds (r : Record) : Clause → Bool
  | .payload path (.exists flag) =>
    Predicate.selects (reachedAt (payloadKey path) r.toValue) (.exists flag)
  | .payload path predicate =>
    predicate.isNegative != Path.holds enter predicate.test path.segments r.payload
  | .column target predicate => predicate.selects [some (r.attribute target)]
  | .idAfter cursor => compare r.id cursor == .gt
  | .all clauses => allHold r clauses
termination_by structural clause => clause

/-- Whether a record satisfies all clauses. -/
def allHold (r : Record) : List Clause → Bool
  | [] => true
  | clause :: rest => clause.holds r && allHold r rest
termination_by structural clauses => clauses

end

theorem allHold_eq (r : Record) (clauses : List Clause) :
    allHold r clauses = clauses.all fun clause => clause.holds r := by
  induction clauses with
  | nil => rfl
  | cons clause rest ih => rw [allHold, ih, List.all_cons]

theorem holds_all (r : Record) (clauses : List Clause) :
    (Clause.all clauses).holds r = clauses.all fun clause => clause.holds r := by
  rw [holds, allHold_eq]

theorem holds_payload (r : Record) (path : Path) {predicate : Predicate}
    (h : ∀ flag, predicate ≠ .exists flag) :
    (Clause.payload path predicate).holds r =
      (predicate.isNegative != Path.holds enter predicate.test path.segments r.payload) := by
  cases predicate with
  | «exists» flag => exact absurd rfl (h flag)
  | _ => rfl

theorem documents_eq (clauses : List Clause) : documents clauses = clauses.map document := by
  induction clauses with
  | nil => rfl
  | cons clause rest ih => rw [documents, ih, List.map_cons]

end Clause

namespace Document

/-! ## Conjunctions -/

section

variable {α : Type} {document : Value} {f : α → Value} {g : α → Bool} {filters : List α}

theorem satisfiesAll_map (h : ∀ a ∈ filters, satisfies document (f a) = .ok (g a)) :
    satisfiesAll document (filters.map f) = .ok (filters.all g) := by
  induction filters with
  | nil => rfl
  | cons a rest ih =>
    rw [List.map_cons, satisfiesAll, h a List.mem_cons_self, List.all_cons, ok_bind]
    cases g a with
    | false => rfl
    | true => exact ih fun b hb => h b (List.mem_cons_of_mem _ hb)

theorem satisfies_and (h : ∀ a ∈ filters, satisfies document (f a) = .ok (g a)) :
    satisfies document (single "$and" (.array (filters.map f))) = .ok (filters.all g) := by
  rw [single, satisfies, satisfiesClauses]
  rw [satisfiesAll_map h, ok_bind]
  cases filters.all g <;> rfl

/-- A conjunction is satisfied if all of its parts are; those that are left out always are. -/
theorem satisfies_all (h : ∀ a ∈ filters, satisfies document (f a) = .ok (g a)) :
    satisfies document (all (filters.map f)) = .ok (filters.all g) := by
  have holds_always : ∀ a ∈ filters, f a = always → g a = true := by
    intro a ha halways
    have holds : Except.ok (g a) = (Except.ok true : Except StoreError Bool) := by
      rw [← h a ha, halways]
      rfl
    exact Except.ok.inj holds
  have dropped : (filters.filter fun a => f a ≠ always).all g = filters.all g :=
    all_filter_of_forall fun a ha hkeep => holds_always a ha (by simpa using hkeep)
  have kept : ∀ a ∈ filters.filter fun a => f a ≠ always, satisfies document (f a) = .ok (g a) :=
    fun a ha => h a (List.mem_filter.1 ha).1
  have shape : (filters.map f).filter (· ≠ always) =
      (filters.filter fun a => f a ≠ always).map f := by
    rw [List.filter_map]
    rfl
  rw [← dropped, all, shape]
  generalize filters.filter (fun a => f a ≠ always) = filters at kept
  rcases filters with _ | ⟨first, _ | ⟨second, rest⟩⟩
  · rfl
  · simpa using kept first List.mem_cons_self
  · exact satisfies_and kept

end

/-! ## Clauses -/

theorem isOperator_payloadKey (path : Path) : isOperator (payloadKey path) = false := by
  rw [payloadKey]
  split
  · rfl
  · rw [isOperator, String.toList_append, String.toList_append]
    rfl

theorem satisfies_idAfter (r : Record) (cursor : String) :
    satisfies r.toValue (idAfter cursor) = .ok (compare r.id cursor == .gt) := by
  have condition : hasOperators [("$gt", .string cursor)] = true := by
    simp [hasOperators, isOperator]
  rw [idAfter, satisfies_single (isOperator_key .id), single, fieldHolds, reachedAt_attribute]
  simp only [condition, if_true]
  refine (operatorsHold_singleton rfl).trans ?_
  simp [comparesSome, candidates, Record.attribute, areComparable, Value.compare, Comparison.holds]

/-- The query document of a clause is satisfied exactly by the records that satisfy the clause. -/
theorem satisfies_clause (r : Record) (clause : Clause) :
    satisfies r.toValue clause.document = .ok (clause.holds r) := by
  induction clause using Clause.induction with
  | payload path predicate =>
    by_cases h : ∃ flag, predicate = .exists flag
    · obtain ⟨flag, rfl⟩ := h
      exact satisfies_fieldCondition (isOperator_payloadKey path) r.toValue (.exists flag)
    · have hexists : ∀ flag, predicate ≠ .exists flag := fun flag hflag => h ⟨flag, hflag⟩
      rw [Clause.holds_payload r path hexists]
      exact satisfies_payload r path hexists
  | column target predicate => exact satisfies_column r target predicate
  | idAfter cursor => exact satisfies_idAfter r cursor
  | all clauses ih =>
    rw [Clause.document, Clause.documents_eq, Clause.holds_all]
    exact satisfies_all ih

end Document

/-! ## Conditions on attributes -/

namespace Clause

theorem holds_column_string {r : Record} {target : Column} {s : String}
    (h : r.attribute target = .string s) (t : String) :
    (Clause.column target (.eq (.string t))).holds r = (s == t) := by
  rw [holds, Predicate.selects, h, equalsSome_singleton rfl, Value.equal]

theorem holds_idIn {r : Record} {ids : List String} :
    (Clause.idIn ids).holds r = true ↔ r.id ∈ ids := by
  rw [Clause.idIn, Clause.holds, Predicate.selects, List.any_map, List.any_eq_true]
  have single : (Value.string r.id).isArray = false := rfl
  simp only [Function.comp_apply, Record.attribute, equalsSome_singleton single, Value.equal,
    beq_iff_eq, exists_eq_right']

theorem holds_isNull_deletedAt (r : Record) (flag : Bool) :
    (Clause.isNull .deletedAt flag).holds r = (r.isDeleted != flag) := by
  have single : (r.attribute .deletedAt).isArray = false := by
    simp only [Record.attribute]
    cases r.deletedAt <;> rfl
  have isNull : (r.attribute .deletedAt).equal .null = !r.isDeleted := by
    simp only [Record.attribute, Record.isDeleted]
    cases r.deletedAt <;> rfl
  cases flag with
  | true =>
    rw [Clause.isNull, if_pos rfl, holds, Predicate.selects, equalsSome_singleton single, isNull,
      Bool.bne_true]
  | false =>
    rw [Clause.isNull, if_neg Bool.false_ne_true, holds, Predicate.selects,
      equalsSome_singleton single, isNull, Bool.not_not, Bool.bne_false]

end Clause

end RecordStore
