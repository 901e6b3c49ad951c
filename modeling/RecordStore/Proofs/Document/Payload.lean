import RecordStore.Proofs.Document.Expression
import RecordStore.Proofs.Number

/-!
# Compiled payload predicates

A predicate on a payload path compiles to an expression that evaluates, on every record, to the
truth value that the predicate has for the payload (`satisfies_payload_eq_holdsAt`). The induction
follows the path: it keeps that the input of the compiled condition evaluates to the value reached
so far (`eval_pathCondition`). Below a wildcard the input is a variable of its own, which the map
over the elements has just bound; no outer variable is read there.

The evaluator reads positions as signed 64-bit integers (`Document.enter`). As no array in memory
has more elements than these can tell apart, that is the step of `Value.enter`.
-/

namespace RecordStore

namespace Document

open Expression

/-- One step of a compiled expression into a value. -/
def enter : Segment → Value → Value
  | .key name, v => (v.field? name).getD .null
  | .index i, v => elementAt v (.int i)
  | .wildcard, v => v

theorem enter_null (segment : Segment) : enter segment .null = .null := by
  cases segment <;> rfl

theorem read_null (segments : List Segment) : Path.read enter segments .null = .null := by
  induction segments with
  | nil => rfl
  | cons segment rest ih => exact (congrArg (Path.read enter rest) (enter_null segment)).trans ih

/-! ## Elements of arrays -/

theorem splitName_of_no_dot {cs : List Char} (h : '.' ∉ cs) : splitName cs = (cs, none) := by
  induction cs with
  | nil => rfl
  | cons c cs ih =>
    simp only [List.mem_cons, not_or] at h
    rw [splitName, if_neg (Ne.symm h.1), ih h.2]

theorem elementVariable_no_dot (depth : Nat) : '.' ∉ (elementVariable depth).toList := by
  have digits : '.' ∉ Nat.toDigits 10 depth := by
    intro h
    exact absurd (Nat.isDigit_of_mem_toDigits (by decide) (by decide) h) (by decide)
  simpa [elementVariable, Segment.indexText, String.toList_append] using digits

/-- The variable of the elements below some wildcards evaluates to the element that is bound. -/
theorem eval_elementVariable (depth : Nat) (element : Value) (σ : Bindings) :
    eval (.string ("$$" ++ elementVariable depth))
        { σ with bound := Keyed.insert (elementVariable depth) element σ.bound } =
      .ok element := by
  have name : ("$$" ++ elementVariable depth).toList =
      '$' :: '$' :: (elementVariable depth).toList := by
    rw [String.toList_append]
    rfl
  rw [eval, readString, name]
  simp [readVariable, splitName_of_no_dot (elementVariable_no_dot depth), String.ofList_toList]

/-- Whether a value is an array of which some element passes a test. -/
def someItem (g : Value → Bool) : Value → Bool
  | .array items => items.any g
  | _ => false

/-- The truth values of the elements, none for what is no array. -/
def itemTests (g : Value → Bool) : Value → List Value
  | .array items => items.map fun element => .bool (g element)
  | _ => []

theorem any_itemTests (g : Value → Bool) (x : Value) :
    (itemTests g x).any Value.isTrue = someItem g x := by
  cases x <;> simp [itemTests, someItem, Value.isTrue, Function.comp_def]

/-- A condition on the elements of an array, if it has a truth value for each of them. -/
theorem eval_someElement {input x condition : Value} {σ : Bindings} {g : Value → Bool}
    (h : eval input σ = .ok x) (depth : Nat)
    (hcondition : ∀ element,
      eval condition { σ with bound := Keyed.insert (elementVariable depth) element σ.bound } =
        .ok (.bool (g element))) :
    eval (someElement input depth condition) σ = .ok (.bool (someItem g x)) := by
  have empty : eval (.array []) σ = .ok (.array []) := rfl
  -- the input of the map: the array, or an empty one in place of anything else
  have array : eval (single "$cond" (.array [single "$isArray" (.array [input]), input,
      .array []])) σ = if x.isArray then eval input σ else eval (.array []) σ :=
    eval_cond (eval_isArray h)
  have body : ∀ items : List Value,
      mapOver σ (elementVariable depth) (fun σ => eval condition σ) items =
        .ok (items.map fun element => .bool (g element)) :=
    fun items => mapM_ok fun element _ => hcondition element
  have mapped : eval (single "$map" (.object [("as", .string (elementVariable depth)),
      ("in", condition), ("input", single "$cond"
        (.array [single "$isArray" (.array [input]), input, .array []]))])) σ =
      .ok (.array (itemTests g x)) := by
    rw [eval_single rfl]
    cases x <;>
      simp_all [Expression.map, Operands.ofValue, Operands.meaning?, Operands.text?,
        namedMeanings, Keyed.get?, Value.field?, Value.string?, Value.isArray, itemTests]
  rw [someElement, eval_single rfl]
  simp [first?_ofValue_list mapped, any_itemTests]

/-! ## Paths -/

/-- The condition of a path evaluates to what holds at the path, below the value of its input. -/
theorem eval_pathCondition (predicate : Predicate) (segments : List Segment) :
    ∀ (input : Value) (depth : Nat) (σ : Bindings) (x : Value),
      IsReading input → eval input σ = .ok x →
      eval (pathCondition predicate input depth segments) σ =
        .ok (.bool (Path.holds enter predicate.test segments x)) := by
  induction segments with
  | nil =>
    intro input depth σ x hinput h
    exact eval_valueCondition hinput h predicate
  | cons segment rest ih =>
    intro input depth σ x hinput h
    cases segment with
    | key name =>
      exact ih (fieldExpr name input) depth σ _ (isReading_single _ _) (eval_fieldExpr h name)
    | index i =>
      exact ih (elementExpr i input) depth σ _ (isReading_single _ _) (eval_elementExpr h i)
    | wildcard =>
      have some_element := eval_someElement h depth fun element =>
        ih _ (depth + 1) _ element (isReading_string _) (eval_elementVariable depth element σ)
      refine some_element.trans ?_
      cases x <;> rfl

theorem eval_root (r : Record) :
    eval (.string ("$" ++ Record.payloadKey)) ⟨r.toValue, []⟩ = .ok r.payload := rfl

/-- The filter of a payload predicate is satisfied or not, on every record. -/
theorem satisfies_payload (r : Record) (path : Path) {predicate : Predicate}
    (h : ∀ flag, predicate ≠ .exists flag) :
    satisfies r.toValue (payload path predicate) =
      .ok (predicate.isNegative != Path.holds enter predicate.test path.segments r.payload) := by
  have condition := eval_pathCondition predicate path.segments _ 0 _ _
    (isReading_string _) (eval_root r)
  have negated := eval_not condition
  have filter : payload path predicate = single "$expr"
      (if predicate.isNegative then single "$not" (.array [pathCondition predicate
          (.string ("$" ++ Record.payloadKey)) 0 path.segments])
        else pathCondition predicate (.string ("$" ++ Record.payloadKey)) 0 path.segments) := by
    cases predicate with
    | «exists» flag => exact absurd rfl (h flag)
    | _ => rfl
  rw [filter]
  cases hn : predicate.isNegative <;>
    cases hh : Path.holds enter predicate.test path.segments r.payload <;>
    simp_all [single, satisfies, satisfiesClauses, Expression.evaluate, Except.map, Value.isTrue]

/-! ## The reference meaning -/

theorem elementAt_of_some {items : List Value} {n : Int} {i : Int64}
    (h : (Number.int n).int64? = some i) (hi : 0 ≤ i.toInt) :
    elementAt (.array items) (.int n) = (items[i.toInt.toNat]?).getD .null := by
  have nonneg : ¬ i.toInt < 0 := by omega
  simp only [elementAt, Value.int, Value.number?, Option.bind_some, h, nonneg, if_false]

theorem elementAt_of_none {items : List Value} {n : Int} (h : (Number.int n).int64? = none) :
    elementAt (.array items) (.int n) = .null := by
  simp only [elementAt, Value.int, Value.number?, Option.bind_some, h]

/-- A position that no signed 64-bit integer tells is past the end of the array. -/
theorem elementAt_natCast {items : List Value} {i : Nat}
    (h : i < 2 ^ 63 ∨ items.length ≤ 2 ^ 63) :
    elementAt (.array items) (.int i) = (items[i]?).getD .null := by
  by_cases hi : i < 2 ^ 63
  · have bounds : -2 ^ 63 ≤ (i : Int) ∧ (i : Int) < 2 ^ 63 := by omega
    have position := Number.toInt_ofInt bounds
    rw [elementAt_of_some (Number.int64?_of_bounds bounds) (by omega), position, Int.toNat_natCast]
  · have missing : items[i]? = none := List.getElem?_eq_none (by omega)
    rw [elementAt_of_none (Number.int64?_of_not_bounds (by omega)), missing, Option.getD_none]

theorem enter_eq {segment : Segment} (hs : segment ≠ .wildcard) {v : Value}
    (h : ∀ i items, segment = .index i → v = .array items → i < 2 ^ 63 ∨ items.length ≤ 2 ^ 63) :
    enter segment v = Value.enter segment v := by
  cases segment with
  | wildcard => exact absurd rfl hs
  | key name => cases v <;> rfl
  | index i =>
    cases v with
    | array items =>
      have found := elementAt_natCast (h i items rfl rfl)
      exact found
    | _ => rfl

theorem holds_enter_eq (test : Value → Bool) (segments : List Segment) {v : Value}
    (h : v.ArraysWithin (2 ^ 63)) :
    Path.holds enter test segments v = Path.holds Value.enter test segments v := by
  refine Path.holds_congr (fun _ harray _ helement => harray.item helement)
    (fun segment _ hv => hv.enter (by rintro _ ⟨⟩) segment) ?_ h
  exact fun segment _ hs v hv => enter_eq hs fun _ items _ harray => Or.inr (hv.self items harray)

/-- The filter of a payload predicate selects exactly the records whose payload has the predicate
at the path, and matching never fails. The bound on arrays is that of an address space. -/
theorem satisfies_payload_eq_holdsAt (r : Record) (path : Path) (predicate : Predicate)
    (hexists : ∀ flag, predicate ≠ .exists flag) (harrays : r.payload.ArraysWithin (2 ^ 63)) :
    satisfies r.toValue (payload path predicate) = .ok (predicate.holdsAt path r.payload) := by
  rw [satisfies_payload r path hexists, holds_enter_eq _ _ harrays]
  rfl

/-- The literal is a string that would read a field, and one of the strings lies in an array. -/
theorem satisfies_payload_nested_wildcards :
    satisfies
        { (default : Record) with
          payload := .object [("items", .array [
            .object [("tags", .array [.int 1, .string "$id"])],
            .object [("tags", .string "$id")]])] }.toValue
        (payload ⟨[.key "items", .wildcard, .key "tags", .wildcard]⟩ (.neq (.string "$id"))) =
      .ok false := by
  refine (satisfies_payload_eq_holdsAt _ _ _ (by rintro _ ⟨⟩) ?_).trans rfl
  simp [Value.ArraysWithin, Value.Every, Value.EveryItem, Value.EveryField, Value.int]

end Document

end RecordStore
