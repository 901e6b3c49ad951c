import RecordStore.Document.Filter
import RecordStore.Document.Match
import RecordStore.Proofs.Outcome
import RecordStore.Proofs.Payload.Meaning
import RecordStore.Proofs.Value.Order

/-!
# Evaluation of compiled expressions

What each building block of a compiled filter evaluates to, given the values of its inputs. Inputs
are expressions that are no lists (`IsReading`), so that an operator with one of them as its only
operand takes it as such. At the end stands the value of the positive form of a predicate
(`eval_valueCondition`).
-/

namespace RecordStore

namespace Expression

open Document

/-! ## Operators -/

section

variable (operands : Operands) (σ : Bindings)

@[simp]
theorem apply_literal : apply "$literal" operands σ = .ok operands.raw := rfl

@[simp]
theorem apply_and :
    apply "$and" operands σ = (do return .bool (← allTrue σ operands.positional)) := rfl

@[simp]
theorem apply_or :
    apply "$or" operands σ = (do return .bool (← someTrue σ operands.positional)) := rfl

@[simp]
theorem apply_not : apply "$not" operands σ =
    (do return .bool (!((← operands.first? σ).any Value.isTrue))) := rfl

@[simp]
theorem apply_eq : apply "$eq" operands σ = (do
    let (a, b) ← operands.pair "$eq" σ
    return .bool (a.compare b == .eq)) := rfl

@[simp]
theorem apply_ne : apply "$ne" operands σ = (do
    let (a, b) ← operands.pair "$ne" σ
    return .bool (a.compare b != .eq)) := rfl

@[simp]
theorem apply_comparisonKey (op : Comparison) : apply (comparisonKey op) operands σ = (do
    let (a, b) ← operands.pair (comparisonKey op) σ
    return .bool (op.holds (a.compare b))) := by
  cases op <;> rfl

@[simp]
theorem apply_cond : apply "$cond" operands σ = (do
    let (condition, yes, no) ← conditionParts operands
    if (← condition σ).isTrue then yes σ else no σ) := rfl

@[simp]
theorem apply_isArray : apply "$isArray" operands σ =
    (do return .bool ((← operands.first? σ).any Value.isArray)) := rfl

@[simp]
theorem apply_isNumber : apply "$isNumber" operands σ =
    (do return .bool ((← operands.first? σ).any fun v => v.number?.isSome)) := rfl

@[simp]
theorem apply_type : apply "$type" operands σ =
    (do return .string (typeName ((← operands.first? σ).getD .null))) := rfl

@[simp]
theorem apply_convert : apply "$convert" operands σ = convert operands σ := rfl

@[simp]
theorem apply_map : apply "$map" operands σ = Expression.map operands σ := rfl

@[simp]
theorem apply_anyElementTrue : apply "$anyElementTrue" operands σ = (do
    match ← operands.first? σ with
    | some (.array items) => return .bool (items.any Value.isTrue)
    | _ => refuse .elementsShape) := rfl

@[simp]
theorem apply_arrayElemAt : apply "$arrayElemAt" operands σ = (do
    let (v, index) ← operands.pair "$arrayElemAt" σ
    return elementAt v index) := rfl

@[simp]
theorem apply_getField : apply "$getField" operands σ = getField operands σ := rfl

@[simp]
theorem apply_regexMatch : apply "$regexMatch" operands σ = regexMatch operands σ := rfl

end

/-! ## Operands -/

/-- The operands that a value holds. -/
def Operands.ofValue (args : Value) : Operands where
  raw := args
  positional := match args with
    | .array items => meanings items
    | args => [fun σ => eval args σ]
  named := match args with
    | .object fields => namedMeanings fields
    | _ => []

theorem eval_single {op : String} (h : isOperator op = true) (args : Value) (σ : Bindings) :
    eval (single op args) σ = apply op (.ofValue args) σ := by
  rw [single, eval.eq_def]
  simp only [h, if_true]
  rfl

/-- An expression that is no list. -/
def IsReading (input : Value) : Prop := ∀ items, input ≠ .array items

theorem isReading_single (op : String) (args : Value) : IsReading (single op args) := by
  rintro items ⟨⟩

theorem isReading_string (s : String) : IsReading (.string s) := by
  rintro items ⟨⟩

variable {σ : Bindings} {input x : Value}

theorem first?_ofValue (hinput : IsReading input) (h : eval input σ = .ok x) :
    (Operands.ofValue input).first? σ = .ok (some x) := by
  have positional : (Operands.ofValue input).positional = [fun σ => eval input σ] := by
    cases input with
    | array items => exact absurd rfl (hinput items)
    | _ => rfl
  simp [Operands.first?, Operands.values, positional, h]

theorem first?_ofValue_list (h : eval input σ = .ok x) :
    (Operands.ofValue (.array [input])).first? σ = .ok (some x) := by
  simp [Operands.first?, Operands.values, Operands.ofValue, meanings, h]

theorem pair_ofValue {a b y : Value} (op : String) (ha : eval a σ = .ok x)
    (hb : eval b σ = .ok y) : (Operands.ofValue (.array [a, b])).pair op σ = .ok (x, y) := by
  simp [Operands.pair, Operands.values, Operands.ofValue, meanings, ha, hb]

/-! ## Logic and comparisons -/

theorem eval_literal (v : Value) (σ : Bindings) : eval (single "$literal" v) σ = .ok v := by
  rw [eval_single rfl]
  rfl

theorem eval_not (h : eval input σ = .ok x) :
    eval (single "$not" (.array [input])) σ = .ok (.bool !x.isTrue) := by
  rw [eval_single rfl]
  simp [first?_ofValue_list h]

theorem eval_eq {a b y : Value} (ha : eval a σ = .ok x) (hb : eval b σ = .ok y) :
    eval (single "$eq" (.array [a, b])) σ = .ok (.bool (x.compare y == .eq)) := by
  rw [eval_single rfl]
  simp [pair_ofValue _ ha hb]

theorem eval_ne {a b y : Value} (ha : eval a σ = .ok x) (hb : eval b σ = .ok y) :
    eval (single "$ne" (.array [a, b])) σ = .ok (.bool (x.compare y != .eq)) := by
  rw [eval_single rfl]
  simp [pair_ofValue _ ha hb]

theorem eval_comparison {a b y : Value} (op : Comparison) (ha : eval a σ = .ok x)
    (hb : eval b σ = .ok y) :
    eval (single (comparisonKey op) (.array [a, b])) σ =
      .ok (.bool (op.holds (x.compare y))) := by
  have operator : isOperator (comparisonKey op) = true := by cases op <;> rfl
  rw [eval_single operator]
  simp [pair_ofValue _ ha hb]

/-- A conjunction of conditions that all have truth values. -/
theorem eval_and {α : Type} (f : α → Value) (g : α → Bool) {items : List α}
    (h : ∀ a ∈ items, eval (f a) σ = .ok (.bool (g a))) :
    eval (single "$and" (.array (items.map f))) σ = .ok (.bool (items.all g)) := by
  have all : allTrue σ (meanings (items.map f)) = .ok (items.all g) := by
    induction items with
    | nil => rfl
    | cons a rest ih =>
      have head := h a List.mem_cons_self
      have tail := ih fun b hb => h b (List.mem_cons_of_mem _ hb)
      cases hg : g a <;> simp [meanings, allTrue, head, tail, Value.isTrue, hg]
  rw [eval_single rfl]
  simp [Operands.ofValue, all]

/-- The second of two conditions is evaluated only if the first is true. -/
theorem eval_and_pair {a b : Value} {p q : Bool} (ha : eval a σ = .ok (.bool p))
    (hb : p = true → eval b σ = .ok (.bool q)) :
    eval (single "$and" (.array [a, b])) σ = .ok (.bool (p && q)) := by
  rw [eval_single rfl]
  cases p with
  | false => simp [Operands.ofValue, meanings, allTrue, ha, Value.isTrue]
  | true =>
    cases q <;> simp [Operands.ofValue, meanings, allTrue, ha, hb rfl, Value.isTrue]

/-- A disjunction of conditions that all have truth values. -/
theorem eval_or {α : Type} (f : α → Value) (g : α → Bool) {items : List α}
    (h : ∀ a ∈ items, eval (f a) σ = .ok (.bool (g a))) :
    eval (single "$or" (.array (items.map f))) σ = .ok (.bool (items.any g)) := by
  have some : someTrue σ (meanings (items.map f)) = .ok (items.any g) := by
    induction items with
    | nil => rfl
    | cons a rest ih =>
      have head := h a List.mem_cons_self
      have tail := ih fun b hb => h b (List.mem_cons_of_mem _ hb)
      cases hg : g a <;> simp [meanings, someTrue, head, tail, Value.isTrue, hg]
  rw [eval_single rfl]
  simp [Operands.ofValue, some]

theorem eval_cond {condition yes no : Value} {b : Bool} (h : eval condition σ = .ok (.bool b)) :
    eval (single "$cond" (.array [condition, yes, no])) σ =
      if b then eval yes σ else eval no σ := by
  rw [eval_single rfl]
  cases b <;> simp [conditionParts, Operands.ofValue, meanings, h, Value.isTrue]

/-! ## Reading -/

theorem eval_fieldExpr (h : eval input σ = .ok x) (name : String) :
    eval (fieldExpr name input) σ = .ok ((x.field? name).getD .null) := by
  rw [fieldExpr, eval_single rfl]
  simp [getField, Operands.ofValue, Operands.text?, Value.field?, Keyed.get?,
    Value.string?, namedMeanings, Operands.value?, Operands.meaning?, h]

theorem eval_elementExpr (h : eval input σ = .ok x) (i : Nat) :
    eval (elementExpr i input) σ = .ok (elementAt x (.int i)) := by
  rw [elementExpr, eval_single rfl]
  simp [pair_ofValue _ h (show eval (.int i) σ = .ok (.int i) from rfl)]

/-! ## Tests of one value -/

theorem eval_isArray (h : eval input σ = .ok x) :
    eval (single "$isArray" (.array [input])) σ = .ok (.bool x.isArray) := by
  rw [eval_single rfl]
  simp [first?_ofValue_list h]

theorem eval_isNumber (hinput : IsReading input) (h : eval input σ = .ok x) :
    eval (single "$isNumber" input) σ = .ok (.bool x.number?.isSome) := by
  rw [eval_single rfl]
  simp [first?_ofValue hinput h]

theorem typeName_compare_string (x : Value) :
    ((Value.string (typeName x)).compare (.string "string") == .eq) = x.string?.isSome := by
  have named : ∀ s : String, ((Value.string s).compare (.string "string") == .eq) =
      (s == "string") := by
    intro s
    rw [Bool.eq_iff_iff]
    simp [Value.compare_eq_iff, Value.equal]
  rw [named]
  cases x with
  | number n =>
    cases n with
    | int n =>
      rw [typeName]
      split <;> rfl
    | double d => rfl
  | _ => rfl

theorem eval_isStringExpr (hinput : IsReading input) (h : eval input σ = .ok x) :
    eval (isStringExpr input) σ = .ok (.bool x.string?.isSome) := by
  have type : eval (single "$type" input) σ = .ok (.string (typeName x)) := by
    rw [eval_single rfl]
    simp [first?_ofValue hinput h]
  rw [isStringExpr, eval_eq type (show eval (.string "string") σ = .ok (.string "string") from rfl),
    typeName_compare_string]

/-! ## Numbers -/

theorem eval_float (x : Float64) (σ : Bindings) : eval (.float x) σ = .ok (.float x) := by
  cases x <;> rfl

theorem double_compare_float (d : Double) (x : Float64) :
    (Value.double d).compare (.float x) = d.compareBound x := by
  cases x with
  | finite bound => simp [Value.float, Value.double, Value.compare, Number.compare,
      Number.toDouble, Double.compareBound]
  | _ => rfl

/-- A number or null, as an expression has it. -/
def ofDouble? (d : Option Double) : Value := (d.map Value.double).getD .null

theorem eval_convert (h : eval input σ = .ok x)
    (hx : (x.number?.isSome || x.string?.isSome) = true) :
    eval (single "$convert" (.object [("input", input), ("onError", .null), ("onNull", .null),
      ("to", .string "double")])) σ = .ok (ofDouble? x.numeric?) := by
  have null : eval .null σ = .ok .null := rfl
  rw [eval_single rfl]
  cases x with
  | number n =>
    simp [convert, Operands.ofValue, Operands.value?, Operands.meaning?, Operands.text?,
      namedMeanings, Keyed.get?, Value.field?, Value.string?, h, Value.isNull, double?,
      Value.numeric?, ofDouble?]
  | string s =>
    cases hd : Numeral.double? s <;>
      simp [convert, Operands.ofValue, Operands.value?, Operands.meaning?, Operands.text?,
        namedMeanings, Keyed.get?, Value.field?, Value.string?, h, Value.isNull, double?, orNull,
        null, Value.numeric?, ofDouble?, hd]
  | _ => simp [Value.number?, Value.string?] at hx

theorem eval_numericExpr (hinput : IsReading input) (h : eval input σ = .ok x) :
    eval (numericExpr input) σ = .ok (ofDouble? x.numeric?) := by
  have each : ∀ a ∈ [(single "$isNumber" input, x.number?.isSome),
      (isStringExpr input, x.string?.isSome)], eval a.1 σ = .ok (.bool a.2) := by
    simp [eval_isNumber hinput h, eval_isStringExpr hinput h]
  have guard := eval_or Prod.fst Prod.snd each
  simp only [List.map_cons, List.map_nil, List.any_cons, List.any_nil, Bool.or_false] at guard
  rw [numericExpr, eval_cond guard]
  split
  · next hx => exact eval_convert h hx
  · cases x <;> simp_all [Value.number?, Value.string?, Value.numeric?, ofDouble?, eval]

theorem eval_numericCondition (hinput : IsReading input) (h : eval input σ = .ok x)
    (comparisons : List (Comparison × Float64)) :
    eval (numericCondition input comparisons) σ = .ok (.bool (x.numeric?.any fun d =>
      comparisons.all fun entry => entry.1.holds (d.compareBound entry.2))) := by
  have n := eval_numericExpr hinput h
  have notNull := eval_ne n (show eval .null σ = .ok .null from rfl)
  have each : ∀ a ∈ (single "$ne" (.array [numericExpr input, .null]),
        (ofDouble? x.numeric?).compare .null != .eq) ::
      comparisons.map (fun entry =>
        (single (comparisonKey entry.1) (.array [numericExpr input, .float entry.2]),
          entry.1.holds ((ofDouble? x.numeric?).compare (.float entry.2)))),
      eval a.1 σ = .ok (.bool a.2) := by
    intro a ha
    rcases List.mem_cons.1 ha with rfl | ha
    · exact notNull
    · obtain ⟨entry, -, rfl⟩ := List.mem_map.1 ha
      exact eval_comparison entry.1 n (eval_float entry.2 σ)
  have all := eval_and Prod.fst Prod.snd each
  simp only [List.map_cons, List.map_map, List.all_cons, List.all_map] at all
  rw [numericCondition]
  refine all.trans ?_
  cases x.numeric? with
  | none => simp [ofDouble?, Value.compare, Value.kindRank]
  | some d =>
    have above : (Value.double d).compare .null = .gt := rfl
    simp [ofDouble?, double_compare_float, above, Function.comp_def]

/-! ## Texts -/

/-- An escaped text stands for itself, since an escaped dollar sign starts with a backslash. -/
theorem eval_escapePattern (needle : String) (σ : Bindings) :
    eval (.string (escapePattern needle)) σ = .ok (.string (escapePattern needle)) := by
  have head : ∀ cs rest, escapePatternChars cs ≠ '$' :: rest := by
    intro cs rest
    cases cs with
    | nil => simp [escapePatternChars]
    | cons c cs =>
      rw [escapePatternChars_cons]
      split
      · simp
      · next hc =>
        rintro h
        obtain ⟨rfl, -⟩ := List.cons.inj h
        exact hc (by decide)
  rw [eval, readString, escapePattern, String.toList_ofList]
  split
  · next h => exact absurd h (head _ _)
  · next h => exact absurd h (head _ _)
  · rfl

theorem search_escapePattern (needle : String) (caseSensitive : Bool) :
    search (.string (escapePattern needle))
        (if caseSensitive then none else some (.string "i")) =
      .ok (Text.holds needle caseSensitive) := by
  have found : ∀ ignoreCase, (⟨[Pattern.literal needle.toList]⟩ : Pattern).isFoundIn ignoreCase =
      Text.holds needle !ignoreCase := by
    intro ignoreCase
    funext s
    exact Pattern.isFoundIn_literal needle ignoreCase s
  simp only [search, Pattern.parse?_escapePattern, found]
  cases caseSensitive <;> rfl

theorem eval_likeExpr (hinput : IsReading input) (h : eval input σ = .ok x) (needle : String)
    (caseSensitive : Bool) :
    eval (likeExpr input needle caseSensitive) σ =
      .ok (.bool (x.string?.any (Text.holds needle caseSensitive))) := by
  have pattern := eval_escapePattern needle σ
  have option : eval (.string "i") σ = .ok (.string "i") := rfl
  have found := search_escapePattern needle caseSensitive
  have isMatch : x.string?.isSome = true →
      eval (single "$regexMatch" (.object ([("input", input)] ++
        (if caseSensitive then [] else [("options", Value.string "i")]) ++
        [("regex", .string (escapePattern needle))]))) σ =
      .ok (.bool (x.string?.any (Text.holds needle caseSensitive))) := by
    intro hx
    obtain ⟨s, rfl⟩ : ∃ s, x = .string s := by
      cases x <;> simp_all [Value.string?]
    rw [eval_single rfl]
    cases caseSensitive <;>
      simp_all [regexMatch, Operands.ofValue, Operands.value?, Operands.meaning?,
        namedMeanings, Keyed.get?, orNull, Value.string?]
  refine (eval_and_pair (eval_isStringExpr hinput h) isMatch).trans ?_
  cases x <;> simp [Value.string?]

/-! ## Predicates -/

theorem eval_equalsExpr (h : eval input σ = .ok x) (w : Value) :
    eval (equalsExpr input w) σ = .ok (.bool (x.equal w)) := by
  rw [equalsExpr, eval_eq h (eval_literal w σ), Value.equal_eq_compare]

theorem eval_oneOfExpr (h : eval input σ = .ok x) (values : List Value) :
    eval (oneOfExpr input values) σ = .ok (.bool (values.any x.equal)) :=
  eval_or (equalsExpr input) x.equal fun w _ => eval_equalsExpr h w

/-- The positive form of a predicate evaluates to its test of the input. -/
theorem eval_valueCondition (hinput : IsReading input) (h : eval input σ = .ok x)
    (predicate : Predicate) :
    eval (valueCondition input predicate) σ = .ok (.bool (predicate.test x)) := by
  cases predicate with
  | eq w => exact eval_equalsExpr h w
  | neq w => exact eval_equalsExpr h w
  | isIn values => exact eval_oneOfExpr h values
  | notIn values => exact eval_oneOfExpr h values
  | compare op bound => 
    simpa [Predicate.test, valueCondition] using eval_numericCondition hinput h [(op, bound)]
  | between low high =>
    simpa [Predicate.test, valueCondition] using
      eval_numericCondition hinput h [(.gte, low), (.lte, high)]
  | like needle caseSensitive => exact eval_likeExpr hinput h needle caseSensitive
  | «exists» flag => rfl

end Expression

end RecordStore
