import RecordStore.Proofs.Sql.Logic

/-!
# Equality with one of some values

Membership in a list asks for the texts of the list at once, for its numbers at once, and for its
other members one by one. It is true exactly if equality with one of the members is
(`Sql.Operand.eval_isIn`), whatever the operand is.
-/

namespace RecordStore

namespace Sql

namespace Operand

open Condition

variable (operand : Operand) (env : Env)

/-- A condition that is not null. -/
def IsDecided (condition : Condition) : Prop :=
  condition.eval env = some (condition.eval env == some true)

theorem eval_flag (condition : Condition) :
    (Condition.flag condition).eval env = some (condition.eval env == some true) := by
  rw [eval]

theorem isDecided_of_eval {condition : Condition} {b : Bool} (h : condition.eval env = some b) :
    IsDecided env condition := by
  rw [IsDecided, h]
  cases b <;> rfl

theorem isDecided_flag (condition : Condition) : IsDecided env (.flag condition) :=
  isDecided_of_eval env (eval_flag env condition)

theorem isDecided_ite {p : Prop} [Decidable p] {a b : Condition} (ha : IsDecided env a)
    (hb : IsDecided env b) : IsDecided env (if p then a else b) := by
  split
  · exact ha
  · exact hb

theorem isDecided_eq (v : Value) : IsDecided env (operand.eq v) := by
  have flag := isDecided_flag env
  cases v with
  | null =>
    have isNull : IsDecided env (.isNull operand.value) := isDecided_of_eval env (by rw [eval])
    exact isDecided_ite env (flag _) isNull
  | bool b => exact isDecided_ite env (flag _) (flag _)
  | number n => exact flag _
  | string s => exact flag _
  | array items => exact isDecided_ite env (flag _) (flag _)
  | object fields => exact isDecided_ite env (flag _) (flag _)

/-! ## Alternatives -/

/-- The members of a list by their kinds: the strings, the numbers and the others. -/
theorem any_members (isText isNumber : Bool) (texts numbers : Parameter → Bool)
    (others : Value → Bool) (values : List Value) :
    ((isText && (stringParameters values).any texts) ||
      ((isNumber && (numberParameters values).any numbers) ||
        (values.filter isOther).any others)) =
    values.any fun
      | .string s => isText && texts (.text s)
      | .number n => isNumber && numbers (.ofNumber n)
      | v => others v := by
  induction values with
  | nil => simp [stringParameters, numberParameters]
  | cons v rest ih =>
    rw [List.any_cons, ← ih]
    cases v <;>
      simp [stringParameters, numberParameters, isOther, Value.string?, Value.number?,
        Bool.and_or_distrib_left, Bool.or_assoc, Bool.or_left_comm]

/-- The conditions of which one has to hold. -/
def alternatives (values : List Value) : List Condition :=
  (if (stringParameters values).isEmpty then []
    else [operand.ofType "text" (.isIn operand.value (stringParameters values))]) ++
  (if (numberParameters values).isEmpty then []
    else [operand.ofNumberType (.isIn operand.value (numberParameters values))]) ++
  (values.filter isOther).map operand.eq

/-- Some conditions of which one has to hold, as one condition. -/
def someOf : List Condition → Condition
  | [] => .never
  | [condition] => condition
  | conditions => .flag (.any conditions)

theorem isIn_eq (values : List Value) : operand.isIn values = someOf (operand.alternatives values) :=
  rfl

section

variable {operand} {p : Condition → Prop}

theorem forall_alternatives {values : List Value}
    (texts : p (operand.ofType "text" (.isIn operand.value (stringParameters values))))
    (numbers : p (operand.ofNumberType (.isIn operand.value (numberParameters values))))
    (eq : ∀ v, p (operand.eq v)) : ∀ condition ∈ operand.alternatives values, p condition := by
  have one : ∀ {absent : Bool} {a : Condition}, p a →
      ∀ condition ∈ (if absent then [] else [a]), p condition := by
    intro absent a ha
    cases absent with
    | true => exact fun _ h => absurd h List.not_mem_nil
    | false => exact fun _ h => List.mem_singleton.1 h ▸ ha
  exact List.forall_mem_append.2 ⟨List.forall_mem_append.2 ⟨one texts, one numbers⟩,
    List.forall_mem_map.2 fun v _ => eq v⟩

/-- What all alternatives have and a disjunction takes over from its parts, membership in a list
has. -/
theorem isIn_induction (values : List Value) (never : p .never)
    (texts : p (operand.ofType "text" (.isIn operand.value (stringParameters values))))
    (numbers : p (operand.ofNumberType (.isIn operand.value (numberParameters values))))
    (eq : ∀ v, p (operand.eq v))
    (any : ∀ conditions, (∀ condition ∈ conditions, p condition) → p (.flag (.any conditions))) :
    p (operand.isIn values) := by
  have all := forall_alternatives texts numbers eq
  rw [isIn_eq]
  generalize operand.alternatives values = conditions at all
  rcases conditions with _ | ⟨first, _ | ⟨second, rest⟩⟩
  · exact never
  · exact all first List.mem_cons_self
  · exact any _ all

end

/-- One alternative stands as it is and several are joined, which makes no difference to conditions
that are true or false. -/
theorem eval_someOf {conditions : List Condition}
    (h : ∀ condition ∈ conditions, IsDecided env condition) :
    (someOf conditions).eval env =
      some (conditions.any fun condition => condition.eval env == some true) := by
  rcases conditions with _ | ⟨first, _ | ⟨second, rest⟩⟩
  · rfl
  · have decided : first.eval env = some (first.eval env == some true) :=
      h first List.mem_cons_self
    simpa [someOf] using decided
  · have joined : someOf (first :: second :: rest) = .flag (.any (first :: second :: rest)) := rfl
    rw [joined, eval_flag, eval, evalAny_eq_true]

theorem any_unless {α : Type} (absent : Bool) (a : α) (f : α → Bool) :
    (if absent then [] else [a]).any f = (!absent && f a) := by
  cases absent <;> simp

theorem isEmpty_or_any {α : Type} (f : α → Bool) (b : Bool) (items : List α) :
    (!items.isEmpty && (b && items.any f)) = (b && items.any f) := by
  cases items <;> simp

theorem any_alternatives (values : List Value) :
    ((operand.alternatives values).any fun condition => condition.eval env == some true) =
      values.any fun v => (operand.eq v).eval env == some true := by
  have members := any_members
    (operand.type.eval env == .text "text")
    (operand.type.eval env == .text "integer" || operand.type.eval env == .text "real")
    (fun p => (equals operand.value p).eval env == some true)
    (fun p => (equals operand.value p).eval env == some true)
    (fun v => (operand.eq v).eval env == some true) values
  rw [alternatives, List.any_append, List.any_append, any_unless, any_unless, eval_ofType,
    eval_ofNumberType, List.any_map, eval_isIn_eq_true, eval_isIn_eq_true]
  simp only [Option.some_beq_some, beq_true, isEmpty_or_any, Bool.or_assoc]
  refine members.trans (congrArg values.any (funext fun v => ?_))
  cases v <;> simp [Operand.eq, eval_ofType, eval_ofNumberType]

/-- Membership in a list is equality with one of its members. -/
theorem eval_isIn (values : List Value) :
    (operand.isIn values).eval env =
      some (values.any fun v => (operand.eq v).eval env == some true) := by
  rw [isIn_eq, eval_someOf, any_alternatives]
  exact forall_alternatives (isDecided_flag env _) (isDecided_flag env _)
    (isDecided_eq operand env)

end Operand

end Sql

end RecordStore
