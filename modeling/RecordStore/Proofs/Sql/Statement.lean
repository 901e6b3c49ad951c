import RecordStore.Proofs.Backend.Connection
import RecordStore.Proofs.Transaction.Rows
import RecordStore.Sql.Statement

/-!
# Statements that are accepted

A key of an order adds one parameter to a statement at most. So a condition that runs on some rows
(`Sql.Condition.Runs`) can be combined with any slice and any order of up to 2000 keys that can be
looked at in these rows (`Sql.Statement.refusal?_finding`).
-/

namespace RecordStore

namespace Sql

/-! ## Parameters -/

theorem Fragment.params_append (a b : Fragment) : (a ++ b).params = a.params ++ b.params := rfl

theorem Fragment.params_joined (separator : String) (fragments : List Fragment) :
    (joined separator fragments).params = fragments.flatMap Fragment.params := by
  induction fragments with
  | nil => rfl
  | cons first rest ih =>
    cases rest with
    | nil => simp [joined]
    | cons second rest =>
      rw [joined, params_append, params_append, ih, ofText, List.append_nil]
      · rfl
      · exact List.cons_ne_nil _ _

theorem length_params_fragment (keys : List SortKey) :
    (SortKey.fragment keys).params.length ≤ keys.length := by
  have one : ∀ target : SortTarget, target.term.fragment.params.length ≤ 1 := by
    intro target
    cases target with
    | column target => exact Nat.zero_le 1
    | payload path => exact Nat.le_refl 1
  rw [SortKey.fragment, Fragment.params_joined]
  induction keys with
  | nil => exact Nat.le_refl 0
  | cons key rest ih =>
    have first := one key.target
    rw [List.map_cons, List.flatMap_cons, List.length_append, Fragment.params_append,
      List.length_append, List.length_cons]
    have direction : (Fragment.ofText key.direction.keyword).params.length = 0 := rfl
    omega

/-! ## Places that can be looked at -/

theorem holdsNul_readSegment (segment : Segment) :
    holdsNul (readSegment segment) = holdsNul segment := by
  cases segment <;> rfl

/-- A path without NUL can be followed wherever it leads. -/
theorem comesToNul_eq_false {segments : List Segment}
    (h : ∀ segment ∈ segments, holdsNul segment = false) (v : Value) :
    comesToNul (segments.map readSegment) v = false := by
  induction segments generalizing v with
  | nil => rfl
  | cons segment rest ih =>
    obtain ⟨hsegment, hrest⟩ := List.forall_mem_cons.1 h
    rw [List.map_cons, comesToNul, holdsNul_readSegment, hsegment, Bool.false_or]
    cases step? v (readSegment segment) with
    | none => rfl
    | some w => exact ih hrest w

/-! ## Conditions that run -/

/-- Whether a condition can be computed for some rows in a database with some tables, with room left
for an order and a slice. -/
structure Condition.Runs (condition : Condition) (tables : List String) (rows : List Record) :
    Prop where
  depth : condition.depth.total ≤ Statement.maxDepth
  parameters :
    condition.fragment.params.length + Statement.maxKeys + 2 ≤ Statement.maxParameters
  elements : condition.hasSubquery = true → ∀ table ∈ tables, sameName elementsTable table = false
  parts : ∀ part ∈ condition.parts, ∀ row ∈ rows, part.fails ⟨row, []⟩ = false

/-- The condition that all rows satisfy runs in every database. -/
theorem runs_always (tables : List String) (rows : List Record) :
    Clause.always.condition.Runs tables rows where
  depth := by decide
  parameters := by decide
  elements h := absurd h (by decide)
  parts part hpart row _ := by
    rw [List.mem_singleton.1 hpart]
    rfl

theorem Condition.allFails_eq_false {env : Env} {conditions : List Condition}
    (h : ∀ condition ∈ conditions, condition.fails env = false) :
    allFails conditions env = false := by
  induction conditions with
  | nil => rfl
  | cons condition rest ih =>
    obtain ⟨hcondition, hrest⟩ := List.forall_mem_cons.1 h
    rw [allFails, hcondition, ih hrest, Bool.and_false, Bool.or_false]

namespace Statement

variable {condition : Condition} {tables : List String} {keys : List SortKey}

theorem isTooLarge_finding {rows : List Record} (h : condition.Runs tables rows) (hlength : keys.length ≤ maxKeys)
    (slice : Option Slice) : (finding condition keys slice).isTooLarge = false := by
  have parameters := h.parameters
  have ordering := length_params_fragment keys
  have slicing : (slice.map fun slice => slice.fragment.params.length).getD 0 ≤ 2 := by
    cases slice with
    | none => exact Nat.zero_le 2
    | some slice => exact Nat.le_refl 2
  have count : (finding condition keys slice).parameterCount =
      condition.fragment.params.length + (SortKey.fragment keys).params.length +
        (slice.map fun slice => slice.fragment.params.length).getD 0 + 0 := rfl
  rw [isTooLarge, Bool.or_eq_false_iff, Bool.or_eq_false_iff]
  refine ⟨⟨decide_eq_false (Nat.not_lt.2 h.depth), decide_eq_false (Nat.not_lt.2 hlength)⟩,
    decide_eq_false (Nat.not_lt.2 ?_)⟩
  omega

/-! ### Rows that are looked at -/

variable {s : Statement} {rows : List Record}

theorem mem_parts_of_mem_sequence {part : Condition} (h : part ∈ s.sequence) :
    part ∈ s.condition.parts := by
  simp only [sequence, List.partition_eq_filter_filter, List.mem_append, List.mem_filter] at h
  rcases h with (⟨h, -⟩ | ⟨⟨h, -⟩, -⟩) | ⟨⟨h, -⟩, -⟩ <;> exact h

theorem mem_of_mem_inSequence {row : Record} (h : row ∈ s.inSequence rows) : row ∈ rows := by
  unfold inSequence at h
  split at h
  · exact List.mem_mergeSort.1 (List.mem_reverse.1 h)
  · exact List.mem_mergeSort.1 h

theorem mem_of_mem_upTo {selects : Record → Bool} {n : Nat} {row : Record}
    (h : row ∈ upTo selects n rows) : row ∈ rows := by
  induction rows generalizing n with
  | nil => cases n <;> cases h
  | cons first rest ih =>
    cases n with
    | zero => cases h
    | succ n =>
      rcases List.mem_cons.1 h with rfl | h
      · exact List.mem_cons_self
      · exact List.mem_cons_of_mem _ (ih h)

theorem mem_of_mem_upToGroup {selects : Record → Bool} {alike : Record → Record → Bool} {n : Nat}
    {last : Option Record} {row : Record} (h : row ∈ upToGroup selects alike n last rows) :
    row ∈ rows := by
  induction rows generalizing n last with
  | nil => cases h
  | cons first rest ih =>
    rw [upToGroup] at h
    split at h
    · exact List.mem_cons.2 ((List.mem_cons.1 h).imp_right ih)
    · split at h
      · exact List.mem_singleton.1 h ▸ List.mem_cons_self
      · exact List.mem_cons.2 ((List.mem_cons.1 h).imp_right ih)

theorem mem_of_mem_visited {row : Record} (h : row ∈ s.visited rows) : row ∈ rows := by
  unfold visited at h
  split at h
  · exact h
  · exact h
  · split at h
    · exact mem_of_mem_inSequence (mem_of_mem_upTo h)
    · exact mem_of_mem_inSequence (mem_of_mem_upToGroup h)

theorem failsOn_eq_false {row : Record}
    (hparts : ∀ part ∈ s.condition.parts, part.fails ⟨row, []⟩ = false)
    (hkeys : ∀ key ∈ s.keys, key.target.term.fails ⟨row, []⟩ = false) : s.failsOn row = false := by
  have parts : Condition.allFails s.sequence ⟨row, []⟩ = false :=
    Condition.allFails_eq_false fun part hpart => hparts part (mem_parts_of_mem_sequence hpart)
  have keys : (s.computedKeys.any fun key => key.target.term.fails ⟨row, []⟩) = false := by
    rw [List.any_eq_false]
    intro key hkey
    rw [Bool.not_eq_true]
    refine hkeys key ?_
    unfold computedKeys at hkey
    split at hkey
    · cases hkey
    · exact hkey
  rw [failsOn, parts, keys, Bool.and_false, Bool.or_false, Bool.and_false]

theorem refusal?_finding (h : condition.Runs tables rows)
    (hkeys : ∀ key ∈ keys, ∀ row ∈ rows, key.target.term.fails ⟨row, []⟩ = false)
    (hlength : keys.length ≤ maxKeys) (slice : Option Slice) :
    (finding condition keys slice).refusal? tables rows = none := by
  have elements : (finding condition keys slice).lacksElements tables = false := by
    rw [lacksElements, Bool.and_eq_false_iff]
    by_cases hsubquery : condition.hasSubquery = true
    · right
      rw [List.any_eq_false]
      exact fun table htable => Bool.not_eq_true _ ▸ h.elements hsubquery table htable
    · left
      exact Bool.not_eq_true _ ▸ hsubquery
  have runs : ((finding condition keys slice).visited rows).any
      (finding condition keys slice).failsOn = false := by
    rw [List.any_eq_false]
    intro row hrow
    have hrow := mem_of_mem_visited hrow
    rw [failsOn_eq_false (fun part hpart => h.parts part hpart row hrow)
      fun key hkey => hkeys key hkey row hrow]
    exact Bool.false_ne_true
  rw [refusal?, isTooLarge_finding h hlength, elements, runs]
  rfl

/-- No order may have more than 2000 keys. -/
theorem refusal?_finding_of_lt (hlength : maxKeys < keys.length) (slice : Option Slice)
    (rows : List Record) :
    (finding condition keys slice).refusal? tables rows =
      some (.backend "statement too large") := by
  have large : (finding condition keys slice).isTooLarge = true := by
    simp [isTooLarge, finding, hlength]
  rw [refusal?, large]
  rfl

end Statement

/-! ### Counting -/

namespace Statement

variable {condition : Condition} {tables : List String} {rows : List Record}

theorem fails_of_isNever (h : condition.isNever = true) (env : Env) :
    condition.fails env = false := by
  cases condition with
  | never => rfl
  | _ => cases h

/-- A condition of one part is all that is looked at to count rows. -/
theorem failsOn_counting (h : condition.parts = [condition]) (row : Record) :
    (counting condition).failsOn row = condition.fails ⟨row, []⟩ := by
  have sequence : (counting condition).sequence = [condition] := by
    have parts : (counting condition).condition.parts = [condition] := h
    simp only [Statement.sequence, parts, List.partition_eq_filter_filter]
    by_cases hindexed : condition.looksOnlyAt (counting condition).index
    · simp [hindexed]
    · by_cases hnested : condition.hasSubquery <;> simp [hindexed, hnested]
  have keys : (counting condition).computedKeys = [] := ite_self _
  have parts : (counting condition).condition.parts = [condition] := h
  rw [failsOn, sequence, keys, parts, Condition.allFails, Condition.allFails]
  simp only [List.any_cons, List.any_nil, Bool.and_false, Bool.or_false]
  by_cases hnever : condition.isNever
  · rw [fails_of_isNever hnever, Bool.and_false]
  · simp [hnever]

theorem refusal?_counting (h : condition.parts = [condition]) :
    (counting condition).refusal? tables rows =
      if (counting condition).isTooLarge then some (.backend "statement too large")
      else if (counting condition).lacksElements tables then
        some (.backend "elements cannot be listed")
      else if rows.any fun row => condition.fails ⟨row, []⟩ then
        some (.backend "row cannot be looked at")
      else none := by
  have visited : (counting condition).visited rows = rows := rfl
  rw [refusal?, visited, funext (failsOn_counting h)]

end Statement

end Sql

/-! ## Running -/

namespace Database

variable {α : Type} {db : Database} {connection : Connection} {statement : Sql.Statement}
  {f : Rows → α × Rows}

theorem result_run (hconnection : db.refusal? connection = none)
    (h : statement.refusal? db.tables db.rows = none) :
    (run connection statement f).result db =
      (.ok (f db.rows).1, { db with rows := (f db.rows).2 }) := by
  have statement : (Rows.run db.tables statement f).result (rowsPart.get db) =
      (.ok (f db.rows).1, (f db.rows).2) := Rows.result_run h
  rw [run, Effect.result_depending]
  cases connection with
  | direct =>
    rw [result_access_direct_ok _ _ hconnection (congrArg Prod.fst statement), statement]
    rfl
  | bound n =>
    rw [result_access_bound _ _ hconnection, statement]
    rfl

theorem result_run_refused (hconnection : db.refusal? connection = none) {e : StoreError}
    (h : statement.refusal? db.tables db.rows = some e) :
    (run connection statement f).result db = (.error e, db) := by
  have statement : (Rows.run db.tables statement f).result (rowsPart.get db) =
      (.error e, db.rows) := Rows.result_run_refused h
  rw [run, Effect.result_depending]
  cases connection with
  | direct =>
    rw [result_access_direct_error _ _ hconnection (congrArg Prod.fst statement)]
  | bound n =>
    rw [result_access_bound _ _ hconnection, statement]
    rfl

end Database

end RecordStore
