import RecordStore.Proofs.Query.Meaning

/-!
# Predicates of one family

Which predicates on an attribute are refused (`AttributeQuery.Refused`), and what becomes of the others.
An accepted query has operands of one family (`AttributeQuery.classify_cases`), which are all read, so
that nothing is lost: the predicates of the family are those of the query, with the doubles of its
numbers (`AttributeQuery.classify_exact`).
-/

namespace RecordStore

/-- The double of a number, and any other value as it is. -/
def Value.rounded : Value → Value
  | .number n => .double n.toDouble
  | v => v

/-! ## What a query asks for -/

namespace AttributeQuery

/-- The values with which an attribute is compared, alone or in a list. -/
inductive IsOperand (query : AttributeQuery) : Value → Prop
  | eq {v : Value} : query.eq = some v → IsOperand query v
  | neq {v : Value} : query.neq = some v → IsOperand query v
  | isIn {vs : List Value} {v : Value} : query.isIn = some vs → v ∈ vs → IsOperand query v
  | notIn {vs : List Value} {v : Value} : query.notIn = some vs → v ∈ vs → IsOperand query v

/-- Whether numbers are asked for, by an operand or by an operator that only numbers have. -/
def AsksNumber (query : AttributeQuery) : Prop :=
  (∃ n, query.IsOperand (.number n)) ∨ query.gt ≠ none ∨ query.gte ≠ none ∨ query.lt ≠ none ∨
    query.lte ≠ none ∨ query.between ≠ none

/-- Why predicates on an attribute belong to no family. -/
inductive Refused (query : AttributeQuery) : Prop
  /-- An operand is neither a string nor a number. -/
  | operand {v : Value} : query.IsOperand v → v.string? = none → v.number? = none → Refused query
  | mixed {s : String} : query.IsOperand (.string s) → query.AsksNumber → Refused query
  | bounds {bounds : List Bound} : query.between = some bounds → bounds.length ≠ 2 → Refused query

/-- The query with the doubles of its numbers. -/
def rounded (query : AttributeQuery) : AttributeQuery :=
  { query with
    eq := query.eq.map Value.rounded
    neq := query.neq.map Value.rounded
    isIn := query.isIn.map (List.map Value.rounded)
    notIn := query.notIn.map (List.map Value.rounded) }

end AttributeQuery

/-- The predicates of a family as predicates of any. -/
def TypedQuery.untyped : TypedQuery → AttributeQuery
  | .string query => query.untyped
  | .number query => query.untyped

/-! ## Operands -/

namespace Family

variable {v : Value} {family : Family} {operands : List Value}

theorem ofOperand_eq_string_iff : ofOperand v = .ok .string ↔ ∃ s, v = .string s := by
  cases v <;> simp [ofOperand, refuse]

theorem ofOperand_eq_number_iff : ofOperand v = .ok .number ↔ ∃ n, v = .number n := by
  cases v <;> simp [ofOperand, refuse]

theorem join_some (h : ∀ v ∈ operands, ofOperand v = .ok family) :
    join (some family) operands = .ok (some family) := by
  induction operands with
  | nil => rfl
  | cons v rest ih =>
    obtain ⟨hv, hrest⟩ := List.forall_mem_cons.1 h
    rw [join, hv, ok_bind, if_neg (by simp), ih hrest]

theorem join_none (hne : operands ≠ []) (h : ∀ v ∈ operands, ofOperand v = .ok family) :
    join none operands = .ok (some family) := by
  cases operands with
  | nil => exact absurd rfl hne
  | cons v rest =>
    obtain ⟨hv, hrest⟩ := List.forall_mem_cons.1 h
    rw [join, hv, ok_bind, if_neg (by simp), join_some hrest]

end Family

namespace AttributeQuery

variable {query : AttributeQuery} {typed : TypedQuery}

theorem mem_operands_iff {v : Value} : v ∈ query.operands ↔ query.IsOperand v := by
  constructor
  · exact forall_operands.2 ⟨fun _ => .eq, fun _ => .neq, fun _ => fun h _ => .isIn h,
      fun _ => fun h _ => .notIn h⟩ v
  · intro h
    have listed : ∀ v ∈ query.operands, v ∈ query.operands := fun _ => id
    obtain ⟨eq, neq, isIn, notIn⟩ := forall_operands.1 listed
    cases h with
    | eq h => exact eq _ h
    | neq h => exact neq _ h
    | isIn h hv => exact isIn _ h _ hv
    | notIn h hv => exact notIn _ h _ hv

theorem hasRange_iff : query.hasRange = true ↔ query.gt ≠ none ∨ query.gte ≠ none ∨
    query.lt ≠ none ∨ query.lte ≠ none ∨ query.between ≠ none := by
  simp only [hasRange, Bool.or_eq_true, Option.isSome_iff_ne_none, or_assoc]

theorem asksNumber_iff : query.AsksNumber ↔
    (∃ n, .number n ∈ query.operands) ∨ query.hasRange = true := by
  simp only [AsksNumber, mem_operands_iff, hasRange_iff]

theorem classify_of_strings (hoperands : ∀ v ∈ query.operands, ∃ s, v = .string s)
    (hrange : query.hasRange = false) : query.classify = .ok (.string query.strings) := by
  have strings := fun v hv => Family.ofOperand_eq_string_iff.2 (hoperands v hv)
  rw [classify, hrange, if_neg Bool.false_ne_true]
  by_cases hne : query.operands = []
  · rw [hne]
    rfl
  · rw [Family.join_none hne strings]
    rfl

theorem classify_of_numbers (hoperands : ∀ v ∈ query.operands, ∃ n, v = .number n)
    (hasks : query.operands ≠ [] ∨ query.hasRange = true) {between : Option (Bound × Bound)}
    (hbounds : query.betweenBounds? = .ok between) :
    query.classify = .ok (.number (query.numbers between)) := by
  have numbers := fun v hv => Family.ofOperand_eq_number_iff.2 (hoperands v hv)
  have joined : Family.join (if query.hasRange then some .number else none) query.operands =
      .ok (some .number) := by
    cases hrange : query.hasRange with
    | true => exact Family.join_some numbers
    | false =>
      refine Family.join_none (hasks.resolve_right ?_) numbers
      rw [hrange]
      exact Bool.false_ne_true
  rw [classify, joined, ok_bind]
  dsimp only
  rw [hbounds]
  rfl

theorem exists_betweenBounds (h : ∀ bounds, query.between = some bounds → bounds.length = 2) :
    ∃ between, query.betweenBounds? = .ok between := by
  rw [betweenBounds?]
  cases hbetween : query.between with
  | none => exact ⟨none, rfl⟩
  | some bounds =>
    have hlength := h bounds hbetween
    match bounds, hlength with
    | [low, high], _ => exact ⟨some (low, high), rfl⟩

theorem asksNumber_of_numbers (hoperands : ∀ v ∈ query.operands, ∃ n, v = .number n)
    (hasks : query.operands ≠ [] ∨ query.hasRange = true) : query.AsksNumber := by
  refine asksNumber_iff.2 (hasks.imp_left fun hne => ?_)
  obtain ⟨v, hv⟩ := List.exists_mem_of_ne_nil _ hne
  obtain ⟨n, rfl⟩ := hoperands v hv
  exact ⟨n, hv⟩

theorem not_asksNumber_of_strings (hoperands : ∀ v ∈ query.operands, ∃ s, v = .string s)
    (hrange : query.hasRange = false) : ¬ query.AsksNumber := by
  rw [asksNumber_iff, hrange]
  rintro (⟨n, hn⟩ | hhas)
  · obtain ⟨s, hs⟩ := hoperands _ hn
    cases hs
  · cases hhas

/-! ## Refusals -/

theorem kind_of_not_refused (h : ¬ query.Refused) {v : Value} (hv : v ∈ query.operands) :
    (∃ s, v = .string s) ∨ ∃ n, v = .number n := by
  cases v with
  | string s => exact .inl ⟨s, rfl⟩
  | number n => exact .inr ⟨n, rfl⟩
  | _ => exact absurd (.operand (mem_operands_iff.1 hv) rfl rfl) h

theorem exists_classify_of_not_refused (h : ¬ query.Refused) :
    ∃ typed, query.classify = .ok typed := by
  by_cases hasks : query.AsksNumber
  · have numbers : ∀ v ∈ query.operands, ∃ n, v = .number n := by
      intro v hv
      refine (kind_of_not_refused h hv).resolve_left ?_
      rintro ⟨s, rfl⟩
      exact h (.mixed (mem_operands_iff.1 hv) hasks)
    have asked : query.operands ≠ [] ∨ query.hasRange = true :=
      (asksNumber_iff.1 hasks).imp_left fun ⟨_, hn⟩ => List.ne_nil_of_mem hn
    obtain ⟨between, hbetween⟩ := exists_betweenBounds fun bounds hbounds =>
      Decidable.byContradiction fun hlength => h (.bounds hbounds hlength)
    exact ⟨_, classify_of_numbers numbers asked hbetween⟩
  · rw [asksNumber_iff, not_or] at hasks
    have strings : ∀ v ∈ query.operands, ∃ s, v = .string s := by
      intro v hv
      refine (kind_of_not_refused h hv).resolve_right ?_
      rintro ⟨n, rfl⟩
      exact hasks.1 ⟨n, hv⟩
    exact ⟨_, classify_of_strings strings (Bool.eq_false_iff.2 hasks.2)⟩

theorem not_refused_of_classify (h : query.classify = .ok typed) : ¬ query.Refused := by
  intro hrefused
  obtain ⟨numbers, -, between, hbetween, -⟩ | ⟨strings, hrange, -⟩ := classify_cases h
  · cases hrefused with
    | operand hv hstring hnumber =>
      obtain ⟨n, rfl⟩ := Family.ofOperand_eq_number_iff.1 (numbers _ (mem_operands_iff.2 hv))
      cases hnumber
    | mixed hs _ => cases numbers _ (mem_operands_iff.2 hs)
    | bounds hbounds hlength =>
      rw [between_of_betweenBounds? hbetween, Option.map_eq_some_iff] at hbounds
      obtain ⟨bounds, -, rfl⟩ := hbounds
      exact hlength rfl
  · replace strings := fun v hv => Family.ofOperand_eq_string_iff.1 (strings v hv)
    have asksNone := not_asksNumber_of_strings strings hrange
    cases hrefused with
    | operand hv hstring hnumber =>
      obtain ⟨s, rfl⟩ := strings _ (mem_operands_iff.2 hv)
      cases hstring
    | mixed _ hasks => exact asksNone hasks
    | bounds hbounds _ =>
      have asked : query.between ≠ none := by
        rw [hbounds]
        exact Option.some_ne_none _
      exact asksNone (.inr (.inr (.inr (.inr (.inr asked)))))

/-- A query is refused for one of the reasons to refuse it, and for nothing else. -/
theorem classify_error_iff : (∃ e, query.classify = .error e) ↔ query.Refused := by
  constructor
  · rintro ⟨e, he⟩
    refine Classical.byContradiction fun hrefused => ?_
    obtain ⟨typed, htyped⟩ := exists_classify_of_not_refused hrefused
    rw [he] at htyped
    cases htyped
  · intro hrefused
    cases hclassify : query.classify with
    | error e => exact ⟨e, rfl⟩
    | ok typed => exact absurd hrefused (not_refused_of_classify hclassify)

/-! ## What is kept of a query -/

section

variable {α : Type} {read : Value → Option α} {literal : α → Value}

theorem map_bind_read {operand : Option Value}
    (h : ∀ v, operand = some v → (read v).map literal = some v.rounded) :
    (operand.bind read).map literal = operand.map Value.rounded := by
  cases operand with
  | none => rfl
  | some v => exact h v rfl

theorem map_filterMap_read {operands : List Value}
    (h : ∀ v ∈ operands, (read v).map literal = some v.rounded) :
    (operands.filterMap read).map literal = operands.map Value.rounded := by
  induction operands with
  | nil => rfl
  | cons v rest ih =>
    obtain ⟨hv, hrest⟩ := List.forall_mem_cons.1 h
    obtain ⟨a, ha, hrounded⟩ := Option.map_eq_some_iff.1 hv
    rw [List.filterMap_cons_some ha, List.map_cons, List.map_cons, ih hrest, hrounded]

theorem map_map_read {operands : Option (List Value)}
    (h : ∀ vs, operands = some vs → ∀ v ∈ vs, (read v).map literal = some v.rounded) :
    (operands.map (List.filterMap read)).map (List.map literal) =
      operands.map (List.map Value.rounded) := by
  cases operands with
  | none => rfl
  | some vs => exact congrArg some (map_filterMap_read (h vs rfl))

end

theorem untyped_strings (hoperands : ∀ v ∈ query.operands, ∃ s, v = .string s)
    (hrange : query.hasRange = false) : query.strings.untyped = query.rounded := by
  have reads : ∀ v ∈ query.operands, v.string?.map Value.string = some v.rounded := by
    intro v hv
    obtain ⟨s, rfl⟩ := hoperands v hv
    rfl
  obtain ⟨eq, neq, isIn, notIn⟩ := forall_operands.1 reads
  simp only [hasRange, Bool.or_eq_false_iff, Option.isSome_eq_false_iff,
    Option.isNone_iff_eq_none] at hrange
  obtain ⟨⟨⟨⟨gt, gte⟩, lt⟩, lte⟩, between⟩ := hrange
  rw [StringQuery.untyped, rounded, gt, gte, lt, lte, between]
  simp only [strings, map_bind_read eq, map_bind_read neq, map_map_read isIn,
    map_map_read notIn]

theorem untyped_numbers (hoperands : ∀ v ∈ query.operands, ∃ n, v = .number n)
    {between : Option (Bound × Bound)} (hbetween : query.betweenBounds? = .ok between) :
    (query.numbers between).untyped = query.rounded := by
  have reads : ∀ v ∈ query.operands, (Wire.float? v).map Value.float = some v.rounded := by
    intro v hv
    obtain ⟨n, rfl⟩ := hoperands v hv
    rfl
  obtain ⟨eq, neq, isIn, notIn⟩ := forall_operands.1 reads
  have bounds := between_of_betweenBounds? hbetween
  rw [NumberQuery.untyped, rounded]
  simp only [numbers, map_bind_read eq, map_bind_read neq, map_map_read isIn,
    map_map_read notIn, bounds]

/-- A query is accepted unless there is a reason to refuse it. The predicates of the family are then
those of the query, and the family is that of numbers if the query asks for any. -/
theorem classify_exact (query : AttributeQuery) :
    ((∃ e, query.classify = .error e) ↔ query.Refused) ∧
      ∀ typed, query.classify = .ok typed →
        typed.untyped = query.rounded ∧
        ((∃ numbers, typed = .number numbers) ↔ query.AsksNumber) := by
  refine ⟨classify_error_iff, fun typed h => ?_⟩
  obtain ⟨numbers, hasks, between, hbetween, rfl⟩ | ⟨strings, hrange, rfl⟩ := classify_cases h
  · replace numbers := fun v hv => Family.ofOperand_eq_number_iff.1 (numbers v hv)
    exact ⟨untyped_numbers numbers hbetween,
      iff_of_true ⟨query.numbers between, rfl⟩ (asksNumber_of_numbers numbers hasks)⟩
  · replace strings := fun v hv => Family.ofOperand_eq_string_iff.1 (strings v hv)
    exact ⟨untyped_strings strings hrange,
      iff_of_false (fun ⟨_, h⟩ => by cases h) (not_asksNumber_of_strings strings hrange)⟩

/-- A list in which a number occurs twice and a range are kept, and a string among the numbers is a
reason to refuse the query. -/
theorem classify_exact_lists :
    let query : AttributeQuery :=
      { (default : AttributeQuery) with
        isIn := some [.int 2, .int 1, .int 2]
        between := some [.number (.finite .zero), .number (.finite .zero)] }
    let mixed := { query with neq := some (.string "a") }
    (∃ typed, query.classify = .ok typed ∧ typed.untyped = query.rounded ∧
      ∃ numbers, typed = .number numbers) ∧ ∃ e, mixed.classify = .error e := by
  intro query mixed
  have accepted : query.classify = .ok (.number (query.numbers (some (_, _)))) := rfl
  obtain ⟨kept, numeric⟩ := (classify_exact query).2 _ accepted
  exact ⟨⟨_, accepted, kept, numeric.2 (.inl ⟨.int 2, .isIn rfl (.head _)⟩)⟩,
    (classify_exact mixed).1.2 (.mixed (.neq rfl) (.inl ⟨.int 2, .isIn rfl (.head _)⟩))⟩

end AttributeQuery

end RecordStore
