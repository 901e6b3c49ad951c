import RecordStore.Proofs.Agreement
import RecordStore.Proofs.Sql.Statement

/-!
# Filters are true or false

Terms may be null, and so may tests of them, but no filter is (`Clause.isDecided_condition`). Tests of
terms stand in flags only, or they look at what is never null: the id of a row, or whether something is
null. This holds at the root and at the elements of arrays. So each row is selected by a predicate or by
its negation, and never by both, unless both fail for it (`Clause.condition_two_valued`).
-/

namespace RecordStore

namespace Sql

open Operand

/-! ## Atoms -/

namespace Operand

variable (operand : Operand) (env : Env)

theorem isDecided_isIn (values : List Value) : IsDecided env (operand.isIn values) :=
  isDecided_of_eval env (eval_isIn operand env values)

theorem isDecided_positive (predicate : Predicate) : IsDecided env (operand.positive predicate) := by
  cases predicate with
  | eq v => exact isDecided_eq operand env v
  | neq v => exact isDecided_eq operand env v
  | isIn values => exact isDecided_isIn operand env values
  | notIn values => exact isDecided_isIn operand env values
  | compare op bound => exact isDecided_flag env _
  | between low high => exact isDecided_flag env _
  | like needle caseSensitive => exact isDecided_flag env _
  | «exists» flag => exact isDecided_of_eval env (by rw [positive, Condition.eval])

end Operand

/-! ## Negation and conjunction -/

section

variable {env : Env}

/-- The negation of a condition that is not null holds exactly where the condition does not. -/
theorem eval_not {condition : Condition} (h : IsDecided env condition) :
    (Condition.not condition).eval env = some (!(condition.eval env == some true)) := by
  rw [Condition.eval]
  exact congrArg (Option.map (!·)) h

theorem isDecided_ofPositive (predicate : Predicate) {positive : Condition}
    (h : IsDecided env positive) : IsDecided env (ofPositive predicate positive) :=
  isDecided_ite env (isDecided_of_eval env (eval_not h)) h

/-- Parts that are not null make a conjunction that is not null. -/
theorem isDecided_all {conditions : List Condition}
    (h : ∀ condition ∈ conditions, IsDecided env condition) : IsDecided env (all conditions) := by
  have decided := eval_all (f := id) h
  rw [List.map_id] at decided
  exact isDecided_of_eval env decided

end

/-! ## Filters -/

/-- Below any number of wildcards, at whichever elements. -/
theorem isDecided_pathCondition (predicate : Predicate) (env : Env) (place : Place) (depth : Nat)
    (segments : List Segment) : IsDecided env (pathCondition predicate place depth segments) := by
  induction segments generalizing place with
  | nil => exact isDecided_positive _ env predicate
  | cons segment rest ih =>
    cases segment with
    | wildcard => exact isDecided_flag env _
    | key name => exact ih _
    | index i => exact ih _

theorem isDecided_payload (path : Path) (predicate : Predicate) (env : Env) :
    IsDecided env (payload path predicate) :=
  isDecided_ofPositive predicate (isDecided_pathCondition predicate env _ 0 path.segments)

theorem isDecided_column (target : Column) (predicate : Predicate) (env : Env) :
    IsDecided env (column target predicate) :=
  isDecided_ofPositive predicate (isDecided_positive (.ofColumn target) env predicate)

end Sql

/-- The condition of a clause is not null. -/
theorem Clause.isDecided_condition (clause : Clause) (r : Record) :
    Sql.Operand.IsDecided ⟨r, []⟩ clause.condition := by
  induction clause using Clause.induction with
  | payload path predicate => exact Sql.isDecided_payload path predicate _
  | column target predicate => exact Sql.isDecided_column target predicate _
  | idAfter cursor => exact Sql.Operand.isDecided_of_eval _ (eval_idAfter r cursor)
  | all clauses ih =>
    rw [Clause.condition, conditions_eq]
    refine Sql.isDecided_all fun condition hcondition => ?_
    obtain ⟨clause, hclause, rfl⟩ := List.mem_map.1 hcondition
    exact ih clause hclause

/-! ## What is decided of a row -/

namespace Sql

namespace Condition

/-- What a condition decides of a row, unless computing it fails. -/
def decision? (condition : Condition) (row : Record) : Option Bool :=
  if condition.fails ⟨row, []⟩ then none else some (condition.selects row)

variable {condition : Condition}

theorem fails_not (env : Env) : (Condition.not condition).fails env = condition.fails env := by
  rw [fails]

theorem selects_not {row : Record} (h : Operand.IsDecided ⟨row, []⟩ condition) :
    (Condition.not condition).selects row = !condition.selects row := by
  rw [selects, eval_not h, Option.some_beq_some, beq_true]
  rfl

theorem decision?_not {row : Record} (h : Operand.IsDecided ⟨row, []⟩ condition) :
    (Condition.not condition).decision? row = (condition.decision? row).map (!·) := by
  rw [decision?, decision?, fails_not, selects_not h]
  split <;> rfl

theorem total_depth_not :
    (Condition.not condition).depth.total = condition.depth.total + 1 := by
  rw [depth, Depth.total, Depth.total, Depth.under, Nat.add_right_comm]

theorem hasSubquery_not : (Condition.not condition).hasSubquery = condition.hasSubquery := by
  rw [hasSubquery, depth, Depth.under, hasSubquery]

theorem params_not : (Condition.not condition).fragment.params = condition.fragment.params := by
  rw [fragment]
  simp [Fragment.params_append, Fragment.parenthesized, Fragment.ofText]

end Condition

end Sql

/-! ## Predicates and their negations -/

/-- Predicates with one positive form, the second of which is negated. -/
structure Predicate.IsNegatedBy (predicate negation : Predicate) : Prop where
  isNegated_predicate : Sql.isNegated predicate = false
  isNegated_negation : Sql.isNegated negation = true
  positive : ∀ operand : Sql.Operand, operand.positive negation = operand.positive predicate

namespace Predicate.IsNegatedBy

theorem neq (v : Value) : IsNegatedBy (.eq v) (.neq v) := ⟨rfl, rfl, fun _ => rfl⟩

theorem notIn (values : List Value) : IsNegatedBy (.isIn values) (.notIn values) :=
  ⟨rfl, rfl, fun _ => rfl⟩

theorem missing : IsNegatedBy (.exists true) (.exists false) := ⟨rfl, rfl, fun _ => rfl⟩

end Predicate.IsNegatedBy

namespace Sql

variable {predicate negation : Predicate} (h : predicate.IsNegatedBy negation)

include h

theorem pathCondition_negation (place : Place) (depth : Nat) (segments : List Segment) :
    pathCondition negation place depth segments = pathCondition predicate place depth segments := by
  induction segments generalizing place depth with
  | nil => exact h.positive _
  | cons segment rest ih =>
    cases segment with
    | wildcard => rw [pathCondition, pathCondition, ih]
    | key name => exact ih _ _
    | index i => exact ih _ _

theorem ofPositive_negation (positive : Condition) :
    ofPositive negation positive = .not (ofPositive predicate positive) := by
  rw [ofPositive, ofPositive, h.isNegated_negation, h.isNegated_predicate]
  rfl

theorem payload_negation (path : Path) : payload path negation = .not (payload path predicate) := by
  rw [payload, pathCondition_negation h, ofPositive_negation h, payload]

theorem column_negation (target : Column) :
    column target negation = .not (column target predicate) := by
  rw [column, h.positive, ofPositive_negation h, column]

end Sql

/-! ### Conditions of one part -/

namespace Sql

/-- A condition that is no conjunction of conditions. -/
def Condition.IsPart (condition : Condition) : Prop := ∀ conditions, condition ≠ .all conditions

theorem Condition.IsPart.parts {condition : Condition} (h : condition.IsPart) :
    condition.parts = [condition] := by
  cases condition with
  | all conditions => exact absurd rfl (h conditions)
  | _ => rfl

namespace Operand

variable (operand : Operand)

theorem isPart_flag (condition : Condition) : (Condition.flag condition).IsPart := by
  rintro conditions ⟨⟩

theorem isPart_ite {p : Prop} [Decidable p] {a b : Condition} (ha : a.IsPart) (hb : b.IsPart) :
    (if p then a else b).IsPart := by
  split
  · exact ha
  · exact hb

theorem isPart_eq (v : Value) : (operand.eq v).IsPart := by
  have isNull : (Condition.isNull operand.value).IsPart := by rintro conditions ⟨⟩
  cases v with
  | null => exact isPart_ite (isPart_flag _) isNull
  | bool b => exact isPart_ite (isPart_flag _) (isPart_flag _)
  | number n => exact isPart_flag _
  | string s => exact isPart_flag _
  | array items => exact isPart_ite (isPart_flag _) (isPart_flag _)
  | object fields => exact isPart_ite (isPart_flag _) (isPart_flag _)

theorem isPart_isIn (values : List Value) : (operand.isIn values).IsPart :=
  isIn_induction values (by rintro conditions ⟨⟩) (isPart_flag _) (isPart_flag _)
    (isPart_eq operand) fun _ _ => isPart_flag _

theorem isPart_positive (predicate : Predicate) : (operand.positive predicate).IsPart := by
  cases predicate with
  | eq v => exact isPart_eq operand v
  | neq v => exact isPart_eq operand v
  | isIn values => exact isPart_isIn operand values
  | notIn values => exact isPart_isIn operand values
  | compare op bound => exact isPart_flag _
  | between low high => exact isPart_flag _
  | like needle caseSensitive => exact isPart_flag _
  | «exists» flag =>
    rintro conditions ⟨⟩

end Operand

theorem isPart_pathCondition (predicate : Predicate) (place : Place) (depth : Nat)
    (segments : List Segment) : (pathCondition predicate place depth segments).IsPart := by
  induction segments generalizing place with
  | nil => exact Operand.isPart_positive _ predicate
  | cons segment rest ih =>
    cases segment with
    | wildcard => exact Operand.isPart_flag _
    | key name => exact ih _
    | index i => exact ih _

theorem isPart_ofPositive (predicate : Predicate) {positive : Condition} (h : positive.IsPart) :
    (ofPositive predicate positive).IsPart :=
  Operand.isPart_ite (by rintro conditions ⟨⟩) h

theorem isPart_payload (path : Path) (predicate : Predicate) : (payload path predicate).IsPart :=
  isPart_ofPositive predicate (isPart_pathCondition predicate _ 0 path.segments)

theorem isPart_column (target : Column) (predicate : Predicate) :
    (column target predicate).IsPart :=
  isPart_ofPositive predicate (Operand.isPart_positive (.ofColumn target) predicate)

end Sql

/-! ### Counts -/

namespace Sql.Statement

variable {condition : Condition}

theorem isTooLarge_counting_not (h : (counting (.not condition)).isTooLarge = false) :
    (counting condition).isTooLarge = false := by
  have count : (counting (.not condition)).parameterCount = (counting condition).parameterCount :=
    congrArg (fun params => params.length + _ + _ + _) Condition.params_not
  have depth : (counting (.not condition)).condition.depth.total = condition.depth.total + 1 :=
    Condition.total_depth_not
  simp only [isTooLarge, Bool.or_eq_false_iff, decide_eq_false_iff_not, Nat.not_lt, count,
    depth] at h ⊢
  exact ⟨⟨Nat.le_of_succ_le h.1.1, h.1.2⟩, h.2⟩

/-- The counting of a negation is refused where that of the condition is, and may be too large
besides. -/
theorem refusal?_counting_not (hpart : condition.IsPart) (tables : List String) (rows : List Record) :
    (counting (.not condition)).refusal? tables rows =
        some (.backend "statement too large") ∨
      (counting (.not condition)).refusal? tables rows =
        (counting condition).refusal? tables rows := by
  have negated : (Condition.not condition).parts = [.not condition] := rfl
  rw [refusal?_counting negated, refusal?_counting hpart.parts]
  by_cases hlarge : (counting (.not condition)).isTooLarge
  · exact .inl (if_pos hlarge)
  · right
    rw [Bool.not_eq_true] at hlarge
    have lacks : (counting (.not condition)).lacksElements tables =
        (counting condition).lacksElements tables :=
      congrArg (· && _) Condition.hasSubquery_not
    simp only [hlarge, isTooLarge_counting_not hlarge, lacks, Condition.fails_not]

end Sql.Statement

theorem countP_add_countP_of_not {α : Type} {p q : α → Bool} (h : ∀ a, q a = !p a)
    (items : List α) : items.countP p + items.countP q = items.length := by
  rw [List.length_eq_countP_add_countP p, funext h]
  simp

/-- Clauses of which each row is selected by one and not by the other, unless both fail for it. What
the first does not count the second does, or it fails alike, or it is refused as too large: it is
nested one level more. -/
structure Clause.IsOpposedBy (clause negation : Clause) : Prop where
  decision : ∀ r : Record,
    negation.condition.decision? r = (clause.condition.decision? r).map (!·)
  count : ∀ (connection : Connection) (db : Database),
    let counted := ((tableBackend.count connection clause).result db).1
    let others := ((tableBackend.count connection negation).result db).1
    (∀ n, counted = .ok n → n ≤ db.rows.length) ∧
      (others = .error (.backend "statement too large") ∨
        others = counted.map fun n => db.rows.length - n)

section

variable {connection : Connection} {clause : Clause} {db : Database}

theorem count_ok (hconnection : db.refusal? connection = none)
    (h : (Sql.Statement.counting clause.condition).refusal? db.tables db.rows = none) :
    ((tableBackend.count connection clause).result db).1 =
      .ok (db.rows.countP clause.condition.selects) :=
  congrArg Prod.fst (Database.result_run hconnection h)

theorem count_refused (hconnection : db.refusal? connection = none) {e : StoreError}
    (h : (Sql.Statement.counting clause.condition).refusal? db.tables db.rows = some e) :
    ((tableBackend.count connection clause).result db).1 = .error e :=
  congrArg Prod.fst (Database.result_run_refused hconnection h)

theorem count_unconnected {e : StoreError} (h : db.refusal? connection = some e) :
    ((tableBackend.count connection clause).result db).1 = .error e :=
  congrArg Prod.fst (Database.result_access_refused Database.rowsPart
    (Rows.run db.tables (.counting clause.condition) fun rows =>
      (rows.countP clause.condition.selects, rows)) h)

end

theorem Clause.isOpposedBy {clause negation : Clause}
    (hnegation : negation.condition = .not clause.condition) (hpart : clause.condition.IsPart) :
    clause.IsOpposedBy negation := by
  constructor
  · intro r
    rw [hnegation, Sql.Condition.decision?_not (clause.isDecided_condition r)]
  intro connection db
  dsimp only
  have sum : db.rows.countP clause.condition.selects +
      db.rows.countP negation.condition.selects = db.rows.length :=
    countP_add_countP_of_not (fun r => by
      rw [hnegation, Sql.Condition.selects_not (clause.isDecided_condition r)]) db.rows
  cases hconnection : db.refusal? connection with
  | some e =>
    rw [count_unconnected hconnection, count_unconnected hconnection]
    exact ⟨fun n hn => (by cases hn), .inr rfl⟩
  | none =>
    have alike := Sql.Statement.refusal?_counting_not hpart db.tables db.rows
    rw [← hnegation] at alike
    cases hrefusal : (Sql.Statement.counting clause.condition).refusal? db.tables db.rows with
    | some e =>
      rw [count_refused hconnection hrefusal]
      refine ⟨fun n hn => (by cases hn), alike.imp (count_refused hconnection) fun same => ?_⟩
      exact count_refused hconnection (same.trans hrefusal)
    | none =>
      rw [count_ok hconnection hrefusal]
      refine ⟨fun n hn => ?_, alike.imp (count_refused hconnection) fun same => ?_⟩
      · cases hn
        omega
      · rw [count_ok hconnection (same.trans hrefusal), Except.map]
        congr 1
        omega

/-- Whether each predicate that has a negation is opposed by it, given what clauses are made of the
predicates. -/
structure TakesSides (clause : Predicate → Clause) : Prop where
  equality : ∀ v, (clause (.eq v)).IsOpposedBy (clause (.neq v))
  membership : ∀ values, (clause (.isIn values)).IsOpposedBy (clause (.notIn values))
  existence : (clause (.exists true)).IsOpposedBy (clause (.exists false))

theorem takesSides {clause : Predicate → Clause}
    (h : ∀ predicate negation : Predicate, predicate.IsNegatedBy negation →
      (clause predicate).IsOpposedBy (clause negation)) : TakesSides clause where
  equality v := h _ _ (.neq v)
  membership values := h _ _ (.notIn values)
  existence := h _ _ .missing

/-- The filters of all clauses are true or false of every row and never null. So on every path and on
every attribute a predicate and its negation fail for the same rows, and each other row is selected by
just one of them. -/
theorem Clause.condition_two_valued :
    (∀ (clause : Clause) (r : Record), ∃ b, clause.condition.eval ⟨r, []⟩ = some b) ∧
      (∀ path, TakesSides (Clause.payload path)) ∧ ∀ target, TakesSides (Clause.column target) :=
  ⟨fun clause r => ⟨_, clause.isDecided_condition r⟩,
    fun path => takesSides fun predicate _ h =>
      Clause.isOpposedBy (Sql.payload_negation h path) (Sql.isPart_payload path predicate),
    fun target => takesSides fun predicate _ h =>
      Clause.isOpposedBy (Sql.column_negation h target) (Sql.isPart_column target predicate)⟩

/-- At a path with a NUL neither a predicate nor its negation selects a row: both counts fail. -/
theorem Clause.condition_two_valued_nul :
    let r : Record := { (default : Record) with payload := .object [("x", .int 1)] }
    let db : Database := { Database.empty "objs" "obj_fields" with rows := [r] }
    let clause := fun flag => Clause.payload ⟨[.key "a\x00b"]⟩ (.exists flag)
    PartItem.clause ⟨.exists, "a\x00b", .bool true, none⟩ 0 = .ok (clause true) ∧
      ∀ flag, (clause flag).condition.decision? r = none ∧
        ((tableBackend.count .direct (clause flag)).result db).1 =
          .error (.backend "row cannot be looked at") := by
  refine ⟨rfl, fun flag => ?_⟩
  cases flag <;> exact ⟨rfl, rfl⟩

/-- Without a flag the comparison of what is missing is null, and so is its negation. -/
example : let missing : Sql.Condition := .equals (.payload ⟨none, [.key "a"]⟩) (.integer 1)
    missing.eval ⟨default, []⟩ = none ∧ (Sql.Condition.not missing).eval ⟨default, []⟩ = none ∧
      (Sql.Condition.flag missing).eval ⟨default, []⟩ = some false := by decide +kernel

end RecordStore
