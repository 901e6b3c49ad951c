import RecordStore.Proofs.Document.Clause
import RecordStore.Proofs.Query.Shape
import RecordStore.Proofs.Sql.Place

/-!
# Texts of filters

The text of a filter says nothing about the data in a query. Each kind of condition has the same text
if its parts have, whatever its parameters are (`Sql.Condition.SameText`). Since the condition that
every row satisfies is told by its text (`Sql.Condition.isAlways_iff`), conjunctions of the same texts
leave out the same parts (`Sql.sameText_all`). So filters of queries of one shape have one text, and
so have orders (`Query.text_independent_of_data`).
-/

namespace RecordStore

namespace Sql

/-! ## Fragments -/

namespace Fragment

theorem sql_append (a b : Fragment) : (a ++ b).sql = a.sql ++ b.sql := rfl

/-- Fragments with the same text; their parameters may differ. -/
def SameText (a b : Fragment) : Prop := a.sql = b.sql

theorem SameText.append {a b c d : Fragment} (hab : a.SameText b) (hcd : c.SameText d) :
    (a ++ c).SameText (b ++ d) := congrArg₂ String.append hab hcd

theorem SameText.parenthesized {a b : Fragment} (h : a.SameText b) :
    a.parenthesized.SameText b.parenthesized := .append (.append rfl h) rfl

theorem SameText.joined (separator : String) {fragments others : List Fragment}
    (h : List.Forall₂ SameText fragments others) :
    (joined separator fragments).SameText (joined separator others) := by
  induction h with
  | nil => rfl
  | cons hab hrest ih =>
    cases hrest with
    | nil => exact hab
    | cons _ _ => exact .append (.append hab rfl) ih

end Fragment

/-! ## Places and terms -/

/-- Places of the same kind: both start at the root or at the element of the same array, and both or
neither have segments. -/
structure Place.SameShape (place other : Place) : Prop where
  element : place.element = other.element
  isNil : place.segments = [] ↔ other.segments = []

theorem Place.SameShape.step {place other : Place} (h : place.SameShape other)
    (segment segment' : Segment) :
    Place.SameShape ⟨place.element, place.segments ++ [segment]⟩
      ⟨other.element, other.segments ++ [segment']⟩ :=
  ⟨h.element, by simp⟩

theorem Place.SameShape.sameText {place other : Place} (h : place.SameShape other) :
    place.fragment.SameText other.fragment := by
  obtain ⟨element, segments⟩ := place
  obtain ⟨element', segments'⟩ := other
  obtain ⟨rfl, isNil⟩ := h
  cases element with
  | none => rfl
  | some depth =>
    cases segments with
    | nil =>
      cases isNil.1 rfl
      rfl
    | cons segment rest =>
      cases segments' with
      | nil => cases isNil.2 rfl
      | cons segment' rest' => rfl

theorem sameText_payloadCall (function : String) {place other : Place} (h : place.SameShape other) :
    (payloadCall function place).SameText (payloadCall function other) :=
  .append (.append rfl h.sameText) rfl

def Term.SameText (term other : Term) : Prop := term.fragment.SameText other.fragment

namespace Term.SameText

variable {place other : Place} (h : place.SameShape other)

include h

theorem payload : (Term.payload place).SameText (.payload other) :=
  sameText_payloadCall "json_extract" h

theorem payloadType : (Term.payloadType place).SameText (.payloadType other) :=
  sameText_payloadCall "json_type" h

theorem payloadNumber : (Term.payloadNumber place).SameText (.payloadNumber other) := by
  have value := sameText_payloadCall "json_extract" h
  have type := sameText_payloadCall "json_type" h
  exact .append (.append (.append (.append (.append (.append (.append (.append (.append (.append
    (.append (.append rfl type) rfl) value) rfl) value) rfl) value) rfl) value) rfl) value) rfl

end Term.SameText

/-! ## Conditions -/

namespace Condition

/-- Conditions with the same text. -/
def SameText (condition other : Condition) : Prop := condition.fragment.SameText other.fragment

namespace SameText

section

variable {term other : Term} (h : term.SameText other)

include h

theorem hasType (name : String) : (Condition.hasType term name).SameText (.hasType other name) :=
  .append h rfl

theorem hasNumberType : (Condition.hasNumberType term).SameText (.hasNumberType other) :=
  .append h rfl

theorem hasNullType : (Condition.hasNullType term).SameText (.hasNullType other) :=
  .append rfl (.append h rfl)

theorem equals (p q : Parameter) : (Condition.equals term p).SameText (.equals other q) :=
  .append h rfl

theorem equalsJson (v w : Value) : (Condition.equalsJson term v).SameText (.equalsJson other w) :=
  .append h rfl

theorem isIn {ps qs : List Parameter} (hlength : ps.length = qs.length) :
    (Condition.isIn term ps).SameText (.isIn other qs) :=
  have placeholder (p q : Parameter) : (Fragment.ofParameter p).SameText (.ofParameter q) := rfl
  have placeholders := forall₂_map_of_length_eq placeholder hlength
  .append h (.append (.append rfl (.joined ", " placeholders)) rfl)

theorem compares (op : Comparison) (p q : Parameter) :
    (Condition.compares term op p).SameText (.compares other op q) := .append h rfl

theorem between (low high low' high' : Parameter) :
    (Condition.between term low high).SameText (.between other low' high') := .append h rfl

theorem contains (needle needle' : String) (caseSensitive : Bool) :
    (Condition.contains term needle caseSensitive).SameText
      (.contains other needle' caseSensitive) := by
  cases caseSensitive with
  | true => exact .append rfl (.append h rfl)
  | false => exact .append rfl (.append h rfl)

theorem isNull : (Condition.isNull term).SameText (.isNull other) := .append h rfl

theorem isNotNull : (Condition.isNotNull term).SameText (.isNotNull other) := .append h rfl

end

theorem and {a b c d : Condition} (hab : a.SameText b) (hcd : c.SameText d) :
    (Condition.and a c).SameText (.and b d) := .append (.append hab rfl) hcd

theorem not {a b : Condition} (h : a.SameText b) : (Condition.not a).SameText (.not b) :=
  .append rfl h.parenthesized

theorem flag {a b : Condition} (h : a.SameText b) : (Condition.flag a).SameText (.flag b) :=
  .append (.append rfl h) rfl

theorem someElement {array other : Place} (harray : array.SameShape other) (depth : Nat)
    {a b : Condition} (h : a.SameText b) :
    (Condition.someElement array depth a).SameText (.someElement other depth b) :=
  .append (.append (.append (.append (.append (sameText_payloadCall "json_type" harray) rfl)
    (sameText_payloadCall "json_each" harray)) rfl) h) rfl

theorem fragments {conditions others : List Condition}
    (h : List.Forall₂ SameText conditions others) :
    List.Forall₂ Fragment.SameText (fragments conditions) (fragments others) := by
  induction h with
  | nil => exact .nil
  | cons hab _ ih => exact .cons (Fragment.SameText.parenthesized hab) ih

theorem all {conditions others : List Condition} (h : List.Forall₂ SameText conditions others) :
    (Condition.all conditions).SameText (.all others) := .joined " AND " (fragments h)

theorem any {conditions others : List Condition} (h : List.Forall₂ SameText conditions others) :
    (Condition.any conditions).SameText (.any others) := .joined " OR " (fragments h)

end SameText

/-! ### The condition that every row satisfies -/

/-- A text with a character that `Fragment.always` does not have. -/
def IsMarked (a : Fragment) : Prop := ∃ c ∈ a.sql.toList, c ∉ Fragment.always.sql.toList

namespace IsMarked

variable {a b : Fragment}

theorem left (h : IsMarked a) : IsMarked (a ++ b) := by
  obtain ⟨c, hc, hmark⟩ := h
  refine ⟨c, ?_, hmark⟩
  rw [Fragment.sql_append, String.toList_append]
  exact List.mem_append_left _ hc

theorem right (h : IsMarked b) : IsMarked (a ++ b) := by
  obtain ⟨c, hc, hmark⟩ := h
  refine ⟨c, ?_, hmark⟩
  rw [Fragment.sql_append, String.toList_append]
  exact List.mem_append_right _ hc

theorem ne (h : IsMarked a) : a.sql ≠ Fragment.always.sql := by
  obtain ⟨c, hc, hmark⟩ := h
  intro hsame
  rw [hsame] at hc
  exact hmark hc

theorem ofParameter (p : Parameter) : IsMarked (.ofParameter p) := by
  have placeholder : '?' ∈ "?".toList := by decide
  exact ⟨'?', placeholder, by decide⟩

theorem parenthesized : IsMarked a.parenthesized :=
  left (left ⟨'(', by decide, by decide⟩)

theorem joined (separator : String) (h : IsMarked a) (rest : List Fragment) :
    IsMarked (Fragment.joined separator (a :: rest)) := by
  cases rest with
  | nil => exact h
  | cons _ _ => exact left (left h)

end IsMarked

/-- All other texts but two short ones are marked, by a word or by a sign. -/
theorem sql_ne_always {condition : Condition} (h : condition.isAlways = false) :
    condition.fragment.sql ≠ Fragment.always.sql := by
  cases condition with
  | always => cases h
  | never => decide
  | hasType term name =>
    refine IsMarked.ne (.right ⟨'\'', ?_, by decide⟩)
    simp [Fragment.ofText]
  | hasNumberType term => exact IsMarked.ne (.right ⟨'I', by decide, by decide⟩)
  | hasNullType term => exact IsMarked.ne (.left ⟨'I', by decide, by decide⟩)
  | equals term p => exact IsMarked.ne (.right (.right (.ofParameter p)))
  | equalsJson term v => exact IsMarked.ne (.right (.left (.right (.ofParameter _))))
  | isIn term ps => exact IsMarked.ne (.right (.left (.left ⟨'I', by decide, by decide⟩)))
  | compares term op p => exact IsMarked.ne (.right (.right (.ofParameter p)))
  | between term low high => exact IsMarked.ne (.right (.right (.ofParameter high)))
  | contains term needle caseSensitive =>
    cases caseSensitive with
    | true => exact IsMarked.ne (.left ⟨'i', by decide, by decide⟩)
    | false => exact IsMarked.ne (.left ⟨'i', by decide, by decide⟩)
  | isNull term => exact IsMarked.ne (.right ⟨'I', by decide, by decide⟩)
  | isNotNull term => exact IsMarked.ne (.right ⟨'I', by decide, by decide⟩)
  | and a b => exact IsMarked.ne (.left (.right ⟨'A', by decide, by decide⟩))
  | not a => exact IsMarked.ne (.left ⟨'N', by decide, by decide⟩)
  | all conditions =>
    cases conditions with
    | nil => decide
    | cons a rest => exact IsMarked.ne (.joined " AND " .parenthesized _)
  | any conditions =>
    cases conditions with
    | nil => decide
    | cons a rest => exact IsMarked.ne (.joined " OR " .parenthesized _)
  | flag a => exact IsMarked.ne (.left (.left ⟨'C', by decide, by decide⟩))
  | someElement array depth a =>
    exact IsMarked.ne (.left (.left (.left (.left (.right ⟨'A', by decide, by decide⟩)))))

theorem eq_always {condition : Condition} (h : condition.isAlways = true) :
    condition = .always := by
  cases condition with
  | always => rfl
  | _ => cases h

/-- The condition that every row satisfies is the only one with its text. -/
theorem isAlways_iff (condition : Condition) :
    condition.isAlways = true ↔ condition.fragment.sql = Fragment.always.sql := by
  constructor
  · intro h
    rw [eq_always h]
    rfl
  · intro hsame
    by_contra h
    exact sql_ne_always (Bool.eq_false_iff.2 h) hsame

theorem decide_fragment_eq (condition : Condition) :
    decide (condition.fragment = Fragment.always) = condition.isAlways := by
  rw [Bool.eq_iff_iff, decide_eq_true_iff]
  constructor
  · intro h
    rw [isAlways_iff, h]
  · intro h
    rw [eq_always h]
    rfl

theorem fragments_eq (conditions : List Condition) :
    fragments conditions = (conditions.map fragment).map Fragment.parenthesized := by
  induction conditions with
  | nil => rfl
  | cons condition rest ih => rw [fragments, ih, List.map_cons, List.map_cons]

theorem SameText.isAlways {condition other : Condition} (h : condition.SameText other) :
    condition.isAlways = other.isAlways := by
  have same : condition.fragment.sql = other.fragment.sql := h
  rw [Bool.eq_iff_iff, isAlways_iff, isAlways_iff, same]

end Condition

/-! ## Atoms -/

/-- Operands whose terms have the same texts. -/
structure Operand.SameText (operand other : Operand) : Prop where
  type : operand.type.SameText other.type
  value : operand.value.SameText other.value
  number : operand.number.SameText other.number
  isPayload : operand.isPayload = other.isPayload

theorem Operand.isOther_eq_of_sameKind {v w : Value} (h : v.SameKind w) :
    isOther v = isOther w := by
  cases h <;> rfl

theorem forall₂_unlessEmpty {ps qs : List Parameter} (hlength : ps.length = qs.length)
    {a b : Condition} (h : a.SameText b) :
    List.Forall₂ Condition.SameText (if ps.isEmpty then [] else [a])
      (if qs.isEmpty then [] else [b]) := by
  cases ps with
  | nil =>
    cases qs with
    | nil => exact .nil
    | cons q rest => cases hlength
  | cons p rest =>
    cases qs with
    | nil => cases hlength
    | cons q rest' => exact .cons h .nil

/-- What membership in a list makes of its alternatives. -/
theorem sameText_anyOf {conditions others : List Condition} :
    List.Forall₂ Condition.SameText conditions others →
      Condition.SameText
        (match conditions with
          | [] => .never
          | [condition] => condition
          | conditions => .flag (.any conditions))
        (match others with
          | [] => .never
          | [condition] => condition
          | conditions => .flag (.any conditions)) := by
  intro h
  cases h with
  | nil => rfl
  | cons hab hrest =>
    cases hrest with
    | nil => exact hab
    | cons hcd hrest => exact .flag (.any (.cons hab (.cons hcd hrest)))

namespace Operand.SameText

theorem refl (operand : Operand) : operand.SameText operand := ⟨rfl, rfl, rfl, rfl⟩

theorem ofPlace {place other : Place} (h : place.SameShape other) :
    (Operand.ofPlace place).SameText (.ofPlace other) :=
  ⟨.payloadType h, .payload h, .payloadNumber h, rfl⟩

variable {operand other : Operand} (h : operand.SameText other)

include h

theorem ofType (name : String) {a b : Condition} (hab : a.SameText b) :
    (operand.ofType name a).SameText (other.ofType name b) :=
  .flag (.and (.hasType h.type name) hab)

theorem ofNumberType {a b : Condition} (hab : a.SameText b) :
    (operand.ofNumberType a).SameText (other.ofNumberType b) :=
  .flag (.and (.hasNumberType h.type) hab)

/-- Payloads and attributes each have a case of their own. -/
theorem ite {α : Type} {R : α → α → Prop} {a b c d : α} (hpayload : R a c) (hcolumn : R b d) :
    R (if operand.isPayload then a else b) (if other.isPayload then c else d) := by
  rw [h.isPayload]
  split
  · exact hpayload
  · exact hcolumn

theorem eq {v w : Value} (hvw : v.SameKind w) : (operand.eq v).SameText (other.eq w) := by
  have text (p q : Parameter) := h.ofType "text" (.equals h.value p q)
  cases hvw with
  | null => exact h.ite (.flag (.hasNullType h.type)) (.isNull h.value)
  | bool b => exact h.ite (.flag (.hasType h.type _)) (h.ofType "integer" (.equals h.value _ _))
  | number m n => exact h.ofNumberType (.equals h.value _ _)
  | string s t => exact text _ _
  | array items others => exact h.ite (h.ofType "array" (.equalsJson h.value _ _)) (text _ _)
  | object fields others => exact h.ite (h.ofType "object" (.equalsJson h.value _ _)) (text _ _)

/-- The strings as one list, if there are any, and the numbers as another; there are as many of both
in lists of the same kinds. -/
theorem isIn {values others : List Value} (hvalues : List.Forall₂ Value.SameKind values others) :
    (operand.isIn values).SameText (other.isIn others) := by
  have texts : (stringParameters values).length = (stringParameters others).length :=
    length_filterMap_eq (fun v w hvw => by
      rw [Option.isSome_map, Option.isSome_map, hvw.isSome_string?]) hvalues
  have numbers : (numberParameters values).length = (numberParameters others).length :=
    length_filterMap_eq (fun v w hvw => by
      rw [Option.isSome_map, Option.isSome_map, hvw.isSome_number?]) hvalues
  have others : List.Forall₂ Value.SameKind (values.filter isOther) (others.filter isOther) :=
    forall₂_filter (fun v w hvw => isOther_eq_of_sameKind hvw) hvalues
  exact sameText_anyOf (List.rel_append (List.rel_append
    (forall₂_unlessEmpty texts (h.ofType "text" (.isIn h.value texts)))
    (forall₂_unlessEmpty numbers (h.ofNumberType (.isIn h.value numbers))))
    (List.rel_map (fun v w hvw => h.eq hvw) others))

theorem positive {predicate predicate' : Predicate} (hp : predicate.SameShape predicate') :
    (operand.positive predicate).SameText (other.positive predicate') := by
  cases hp with
  | eq hvw => exact h.eq hvw
  | neq hvw => exact h.eq hvw
  | isIn hvalues => exact h.isIn hvalues
  | notIn hvalues => exact h.isIn hvalues
  | compare op bound bound' => exact .flag (.compares h.number op _ _)
  | between low high low' high' => exact .flag (.between h.number _ _ _ _)
  | like needle needle' caseSensitive =>
    exact h.ofType "text" (.contains h.value needle needle' caseSensitive)
  | «exists» flag =>
    have probe := h.ite h.type h.value
    exact .isNotNull probe

end Operand.SameText

/-! ## Filters -/

theorem isNegated_eq_of_sameShape {predicate predicate' : Predicate}
    (h : predicate.SameShape predicate') : isNegated predicate = isNegated predicate' := by
  cases h <;> rfl

theorem sameText_ofPositive {predicate predicate' : Predicate} (h : predicate.SameShape predicate')
    {a b : Condition} (hab : a.SameText b) :
    (ofPositive predicate a).SameText (ofPositive predicate' b) := by
  unfold ofPositive
  rw [isNegated_eq_of_sameShape h]
  split
  · exact .not hab
  · exact hab

/-- The induction is on the segments, in step with those of the other path. A wildcard opens a range
in both, and any other segment goes on the place in both. -/
theorem sameText_pathCondition {predicate predicate' : Predicate}
    (hpredicate : predicate.SameShape predicate') {segments others : List Segment}
    (h : segments.map (· == .wildcard) = others.map (· == .wildcard)) {place other : Place}
    (hplace : place.SameShape other) (depth : Nat) :
    (pathCondition predicate place depth segments).SameText
      (pathCondition predicate' other depth others) := by
  induction segments generalizing others place other depth with
  | nil =>
    cases others with
    | nil => exact (Operand.SameText.ofPlace hplace).positive hpredicate
    | cons segment' rest' => cases h
  | cons segment rest ih =>
    cases others with
    | nil => cases h
    | cons segment' rest' =>
      obtain ⟨hsegment, hrest⟩ := List.cons_eq_cons.1 h
      by_cases hw : segment = .wildcard
      · obtain rfl : segment' = .wildcard := by simpa [hw] using hsegment
        subst hw
        exact .flag (.someElement hplace depth (ih hrest ⟨rfl, Iff.rfl⟩ (depth + 1)))
      · have hw' : segment' ≠ .wildcard := by simpa [hw] using hsegment
        rw [pathCondition_cons _ hw, pathCondition_cons _ hw']
        exact ih hrest (hplace.step segment segment') depth

/-- Conjunctions leave out the same parts, since these are told by their texts. -/
theorem sameText_all {conditions others : List Condition}
    (h : List.Forall₂ Condition.SameText conditions others) :
    (all conditions).SameText (all others) := by
  have kept : List.Forall₂ Condition.SameText (conditions.filter (!·.isAlways))
      (others.filter (!·.isAlways)) :=
    forall₂_filter (fun a b hab => congrArg Bool.not hab.isAlways) h
  unfold all
  generalize conditions.filter (!·.isAlways) = conditions at kept
  generalize others.filter (!·.isAlways) = others at kept
  cases kept with
  | nil => rfl
  | cons hab hrest =>
    cases hrest with
    | nil => exact hab
    | cons hcd hrest => exact .all (.cons hab (.cons hcd hrest))

/-- Conjunctions of conditions are those of their texts, where the text alone tells which parts are
left out. -/
theorem fragment_all (conditions : List Condition) :
    (all conditions).fragment = Fragment.all (conditions.map Condition.fragment) := by
  have kept : (conditions.map Condition.fragment).filter (· ≠ Fragment.always) =
      (conditions.filter (!·.isAlways)).map Condition.fragment := by
    rw [List.filter_map]
    refine congrArg _ (List.filter_congr fun condition _ => ?_)
    rw [Function.comp_apply, decide_not, Bool.not_eq_eq_eq_not, Bool.not_not,
      Condition.decide_fragment_eq]
  unfold all Fragment.all
  rw [kept]
  generalize conditions.filter (!·.isAlways) = conditions
  rcases conditions with _ | ⟨first, _ | ⟨second, rest⟩⟩
  · rfl
  · rfl
  · exact congrArg (Fragment.joined " AND ") (Condition.fragments_eq _)

end Sql

/-- Clauses of one shape have conditions with one text. -/
theorem Clause.SameShape.sameText {clause clause' : Clause} (h : clause.SameShape clause') :
    clause.condition.SameText clause'.condition := by
  induction clause using Clause.induction generalizing clause' with
  | payload path predicate =>
    cases h with
    | payload hpath hpredicate =>
      exact Sql.sameText_ofPositive hpredicate
        (Sql.sameText_pathCondition hpredicate hpath ⟨rfl, Iff.rfl⟩ 0)
  | column target predicate =>
    cases h with
    | column target hpredicate =>
      exact Sql.sameText_ofPositive hpredicate ((Sql.Operand.SameText.refl _).positive hpredicate)
  | idAfter cursor =>
    cases h with
    | idAfter cursor cursor' => exact .compares rfl .gt _ _
  | all clauses ih =>
    cases h with
    | all hclauses =>
      refine Sql.sameText_all ?_
      induction hclauses with
      | nil => exact .nil
      | cons hclause _ rest =>
        exact .cons (ih _ List.mem_cons_self hclause)
          (rest fun clause hmem => ih clause (List.mem_cons_of_mem _ hmem))

theorem SortTarget.SameShape.sameText {target other : SortTarget} (h : target.SameShape other) :
    target.term.SameText other.term := by
  cases target with
  | column target => cases other with
    | column target' =>
      cases h
      rfl
    | payload path => exact absurd h id
  | payload path => cases other with
    | column target' => exact absurd h id
    | payload path' => rfl

/-- Keys of one shape are written with one text. -/
theorem SortKey.sameText_fragment {keys others : List SortKey}
    (h : List.Forall₂ SortKey.SameShape keys others) :
    (SortKey.fragment keys).SameText (SortKey.fragment others) := by
  refine .joined ", " (List.rel_map (fun key key' hkey => ?_) h)
  rw [hkey.direction]
  exact .append hkey.target.sameText rfl

namespace Query

/-- Filters of queries of one shape have one text, whatever the reference instants are, and so have
orders of one shape: what users fill in is in the parameters only. This holds although conjunctions
look at the texts of their parts to leave out those that every row satisfies. -/
theorem text_independent_of_data :
    (∀ (query other : Query) (reference reference' : Instant) (clause clause' : Clause),
      query.SameShape other → query.clause reference = .ok clause →
        other.clause reference' = .ok clause' →
          clause.condition.fragment.sql = clause'.condition.fragment.sql) ∧
    (∀ (items others : List SortItem) (keys keys' : List SortKey),
      List.Forall₂ SortItem.SameShape items others → SortKey.ofItems items = .ok keys →
        SortKey.ofItems others = .ok keys' →
          (SortKey.fragment keys).sql = (SortKey.fragment keys').sql) ∧
    ∀ conditions : List Sql.Condition, (Sql.all conditions).fragment =
      Sql.Fragment.all (conditions.map Sql.Condition.fragment) := by
  refine ⟨fun query other _ _ clause clause' h hclause hother => ?_,
    fun items others keys keys' h hkeys hother => ?_, Sql.fragment_all⟩
  · exact (h.clause hclause hother).sameText
  · exact SortKey.sameText_fragment (SortKey.sameShape_ofItems h hkeys hother)

/-- Names, positions, texts and numbers of two users, some of which would end a quotation. -/
theorem text_independent_of_data_two_users :
    let query : Query := {
      part := some ⟨
        some [⟨.eq, "items.[*].name", .string "x", none⟩,
          ⟨.notIn, "a.0", .array [.string "s", .int 1, .null, .object []], none⟩,
          ⟨.like, "t", .string "n", some false⟩],
        some [⟨.gt, "n", .int 3, none⟩]⟩
      attributes := some ⟨none, none, none,
        some ⟨some (.string "u"), none, none, none, none, none, none, none, none⟩,
        none, none, none, none, none⟩
      topLevel := some ⟨some true, some [], some ⟨none, none, some ["p", "q"], none⟩, none,
        some (.isNull true)⟩ }
    let other : Query := {
      part := some ⟨
        some [⟨.eq, "7.[*].'; --", .string "' OR '1' = '1", none⟩,
          ⟨.notIn, "b) OR (1.c", .array [.string "", .int (-5), .null, .object [("k", .null)]],
            none⟩,
          ⟨.like, "?", .string "?", some false⟩],
        some [⟨.gt, "m", .int 0, none⟩]⟩
      attributes := some ⟨none, none, none,
        some ⟨some (.string "1 = 1"), none, none, none, none, none, none, none, none⟩,
        none, none, none, none, none⟩
      topLevel := some ⟨some true, some ["f"], some ⟨none, none, some ["'", "\""], none⟩, none,
        some (.isNull true)⟩ }
    let items : List SortItem := [⟨"objRecord.a.b", .desc⟩, ⟨"tag", .asc⟩]
    let others : List SortItem := [⟨"c'.0", .desc⟩, ⟨"tag", .asc⟩]
    query.SameShape other ∧ List.Forall₂ SortItem.SameShape items others ∧
      ∃ clause clause' keys keys', query.clause 0 = .ok clause ∧
        other.clause 1000 = .ok clause' ∧ SortKey.ofItems items = .ok keys ∧
        SortKey.ofItems others = .ok keys' ∧
        clause.condition.fragment.sql = clause'.condition.fragment.sql ∧
        (SortKey.fragment keys).sql = (SortKey.fragment keys').sql := by
  intro query other items others
  have parsed : ∀ {raw raw' : String} {path path' : Path}, Path.parse raw = .ok path →
      Path.parse raw' = .ok path' → path.SameShape path' → ∀ p p', Path.parse raw = .ok p →
        Path.parse raw' = .ok p' → p.SameShape p' := by
    intro raw raw' path path' hpath hpath' h p p' hp hp'
    rw [hpath] at hp
    rw [hpath'] at hp'
    cases hp
    cases hp'
    exact h
  have names : PartItem.SameShape ⟨.eq, "items.[*].name", .string "x", none⟩
      ⟨.eq, "7.[*].'; --", .string "' OR '1' = '1", none⟩ :=
    ⟨rfl, rfl, parsed rfl rfl rfl, .string _ _, fun h => by cases h <;> contradiction⟩
  have members : PartItem.SameShape
      ⟨.notIn, "a.0", .array [.string "s", .int 1, .null, .object []], none⟩
      ⟨.notIn, "b) OR (1.c", .array [.string "", .int (-5), .null, .object [("k", .null)]],
        none⟩ := by
    refine ⟨rfl, rfl, parsed rfl rfl rfl, .array _ _, fun _ values values' h h' => ?_⟩
    cases h
    cases h'
    exact .cons (.string _ _) (.cons (.number _ _) (.cons .null (.cons (.object _ _) .nil)))
  have texts : PartItem.SameShape ⟨.like, "t", .string "n", some false⟩
      ⟨.like, "?", .string "?", some false⟩ :=
    ⟨rfl, rfl, parsed rfl rfl rfl, .string _ _, fun h => by cases h <;> contradiction⟩
  have numbers : PartItem.SameShape ⟨.gt, "n", .int 3, none⟩ ⟨.gt, "m", .int 0, none⟩ :=
    ⟨rfl, rfl, parsed rfl rfl rfl, .number _ _, fun h => by cases h <;> contradiction⟩
  have attributes : AttributeQuery.SameShape
      ⟨some (.string "u"), none, none, none, none, none, none, none, none⟩
      ⟨some (.string "1 = 1"), none, none, none, none, none, none, none, none⟩ :=
    ⟨.some (.string _ _), .none, .none, .none, rfl, rfl, rfl, rfl, rfl⟩
  have shape : query.SameShape other :=
    ⟨.some ⟨.some (.cons names (.cons members (.cons texts .nil))), .some (.cons numbers .nil)⟩,
      .some ⟨.none, .none, .none, .some attributes, .none, .none, .none, .none, .none⟩,
      .some ⟨rfl, rfl, .some ⟨rfl, rfl, rfl, rfl⟩, .none, .some rfl⟩⟩
  have order : List.Forall₂ SortItem.SameShape items others := by
    refine .cons ⟨rfl, fun target target' h h' => ?_⟩ <|
      .cons ⟨rfl, fun target target' h h' => ?_⟩ .nil
    · cases h
      cases h'
      rfl
    · cases h
      cases h'
      rfl
  obtain ⟨filters, orders, -⟩ := text_independent_of_data
  exact ⟨shape, order, _, _, _, _, rfl, rfl, rfl, rfl,
    filters query other 0 1000 _ _ shape rfl rfl, orders items others _ _ order rfl rfl⟩

end Query

end RecordStore
