import RecordStore.Proofs.Dialect
import RecordStore.Proofs.Path.Text
import RecordStore.Proofs.Sql.Statement
import RecordStore.Sql.Schema

/-!
# Placeholders and parameters

All that is written as SQL has as many placeholders as parameters (`Sql.Fragment.IsBalanced`). Fixed
texts have neither, a parameter is written as one placeholder, and whatever is put together from
balanced parts is balanced. Filling the placeholders in turn (`Sql.Fragment.filled`) is then the same
as filling those of each part with its own parameters, so that in a statement no parameter comes to
the placeholder of another one (`Dialect.sql_placeholders`).
-/

namespace RecordStore

namespace Sql

/-! ## Fragments -/

namespace Fragment

/-- As many placeholders as parameters. -/
def IsBalanced (a : Fragment) : Prop := a.sql.toList.count '?' = a.params.length

namespace IsBalanced

variable {a b : Fragment}

theorem ofText {text : String} (h : '?' ∉ text.toList) : (Fragment.ofText text).IsBalanced :=
  List.count_eq_zero.2 h

theorem ofParameter (p : Parameter) : (Fragment.ofParameter p).IsBalanced := by
  have placeholder : "?".toList.count '?' = 1 := by decide
  exact placeholder

theorem append (ha : a.IsBalanced) (hb : b.IsBalanced) : (a ++ b).IsBalanced := by
  rw [IsBalanced, sql_append, String.toList_append, List.count_append, params_append,
    List.length_append, ha, hb]

theorem parenthesized (h : a.IsBalanced) : a.parenthesized.IsBalanced :=
  ((ofText (by decide)).append h).append (ofText (by decide))

theorem joined {separator : String} (hseparator : '?' ∉ separator.toList)
    {fragments : List Fragment} (h : ∀ a ∈ fragments, a.IsBalanced) :
    (joined separator fragments).IsBalanced := by
  induction fragments with
  | nil => exact ofText (by decide)
  | cons first rest ih =>
    obtain ⟨hfirst, hrest⟩ := List.forall_mem_cons.1 h
    cases rest with
    | nil => exact hfirst
    | cons second rest => exact (hfirst.append (ofText hseparator)).append (ih hrest)

end IsBalanced

/-! ### Conjunctions -/

theorem sql_joined (separator : String) (fragments : List Fragment) :
    (joined separator fragments).sql = separator.intercalate (fragments.map Fragment.sql) := by
  induction fragments with
  | nil => rfl
  | cons first rest ih =>
    cases rest with
    | nil => exact String.intercalate_singleton.symm
    | cons second rest =>
      rw [List.map_cons, List.map_cons, String.intercalate_cons_cons, ← List.map_cons, ← ih]
      rfl

/-- The text of a conjunction, given the texts of its parts. -/
def conjunctionText : List String → String
  | [] => always.sql
  | [text] => text
  | texts => " AND ".intercalate (texts.map fun text => "(" ++ text ++ ")")

theorem params_parenthesized (a : Fragment) : a.parenthesized.params = a.params :=
  List.append_nil a.params

variable (fragments : List Fragment)

/-- What is made of the parts that are kept. -/
theorem all_induction {p : List Fragment → Fragment → Prop} (none : p [] always)
    (one : ∀ a, p [a] a)
    (many : ∀ first second rest, p (first :: second :: rest)
      (joined " AND " ((first :: second :: rest).map parenthesized))) :
    p (fragments.filter (· ≠ always)) (all fragments) := by
  unfold all
  generalize fragments.filter (· ≠ always) = kept
  rcases kept with _ | ⟨first, _ | ⟨second, rest⟩⟩
  · exact none
  · exact one first
  · exact many first second rest

/-- The text of a conjunction has those of the parts that are kept, in their sequence. -/
theorem sql_all :
    (all fragments).sql =
      conjunctionText ((fragments.filter (· ≠ always)).map Fragment.sql) := by
  refine all_induction fragments (p := fun kept all => all.sql = conjunctionText (kept.map sql))
    rfl (fun _ => rfl) fun first second rest => ?_
  have texts : ((first :: second :: rest).map parenthesized).map Fragment.sql =
      ((first :: second :: rest).map Fragment.sql).map fun text => "(" ++ text ++ ")" := by
    rw [List.map_map, List.map_map]
    rfl
  exact (sql_joined _ _).trans (congrArg " AND ".intercalate texts)

/-- The parameters of a conjunction are those of the parts that are kept, in the same sequence. -/
theorem params_all :
    (all fragments).params = (fragments.filter (· ≠ always)).flatMap Fragment.params := by
  refine all_induction fragments (p := fun kept all => all.params = kept.flatMap params)
    rfl (fun _ => (List.append_nil _).symm) fun first second rest => ?_
  rw [params_joined, List.flatMap_map]
  exact congrArg (List.flatMap · _) (funext params_parenthesized)

variable {fragments} in
theorem IsBalanced.all (h : ∀ a ∈ fragments, a.IsBalanced) :
    (Fragment.all fragments).IsBalanced := by
  have kept : ∀ a ∈ fragments.filter (· ≠ always), a.IsBalanced := fun a ha =>
    h a (List.mem_of_mem_filter ha)
  refine all_induction fragments (p := fun kept all => (∀ a ∈ kept, a.IsBalanced) → all.IsBalanced)
    (fun _ => ofText (by decide)) (fun a h => h a List.mem_cons_self) (fun _ _ _ h => ?_) kept
  exact joined (by decide) (List.forall_mem_map.2 fun a ha => (h a ha).parenthesized)

/-! ### Filling -/

/-- A text in which each placeholder is filled with the next parameter, as long as there is one. -/
def fill : List Char → List Parameter → List (Char ⊕ Parameter)
  | [], _ => []
  | c :: cs, ps =>
    if c = '?' then
      match ps with
      | p :: ps => .inr p :: fill cs ps
      | [] => .inl c :: fill cs []
    else .inl c :: fill cs ps

/-- A fragment with its parameters in place. -/
def filled (a : Fragment) : List (Char ⊕ Parameter) := fill a.sql.toList a.params

/-- A text without placeholders. -/
def plain (text : String) : List (Char ⊕ Parameter) := text.toList.map .inl

theorem fill_cons {c : Char} (hc : c ≠ '?') (cs : List Char) (ps : List Parameter) :
    fill (c :: cs) ps = .inl c :: fill cs ps := if_neg hc

theorem fill_placeholder (cs : List Char) (p : Parameter) (ps : List Parameter) :
    fill ('?' :: cs) (p :: ps) = .inr p :: fill cs ps := if_pos rfl

/-- The first characters take as many parameters as they have placeholders, and leave the others. -/
theorem fill_append {cs : List Char} {ps : List Parameter} (h : cs.count '?' = ps.length)
    (cs' : List Char) (ps' : List Parameter) :
    fill (cs ++ cs') (ps ++ ps') = fill cs ps ++ fill cs' ps' := by
  induction cs generalizing ps with
  | nil =>
    cases List.length_eq_zero_iff.1 h.symm
    rfl
  | cons c cs ih =>
    by_cases hc : c = '?'
    · subst hc
      rw [List.count_cons_self] at h
      cases ps with
      | nil => cases h
      | cons p ps =>
        rw [List.cons_append, List.cons_append, fill_placeholder, fill_placeholder,
          ih (Nat.succ.inj h), List.cons_append]
    · rw [List.count_cons_of_ne hc] at h
      rw [List.cons_append, fill_cons hc, fill_cons hc, ih h, List.cons_append]

theorem filled_append {a : Fragment} (ha : a.IsBalanced) (b : Fragment) :
    (a ++ b).filled = a.filled ++ b.filled := by
  rw [filled, sql_append, String.toList_append, params_append]
  exact fill_append ha _ _

theorem filled_ofText {text : String} (h : '?' ∉ text.toList) :
    (ofText text).filled = plain text := by
  unfold filled plain ofText
  dsimp only
  generalize text.toList = cs at h
  induction cs with
  | nil => rfl
  | cons c cs ih =>
    obtain ⟨hc, hcs⟩ := List.ne_and_not_mem_of_not_mem_cons h
    rw [fill_cons hc.symm, ih hcs, List.map_cons]

theorem filled_ofParameter (p : Parameter) : (ofParameter p).filled = [.inr p] := by
  have placeholder : "?".toList = ['?'] := by decide
  rw [filled, ofParameter, placeholder, fill_placeholder]
  rfl

end Fragment

open Fragment (IsBalanced)

/-! ## Places and terms -/

theorem not_mem_append {c : Char} {text text' : String} (h : c ∉ text.toList)
    (h' : c ∉ text'.toList) : c ∉ (text ++ text').toList := by
  rw [String.toList_append]
  exact List.not_mem_append h h'

theorem not_mem_intercalate {c : Char} {separator : String} {texts : List String}
    (hseparator : c ∉ separator.toList) (h : ∀ text ∈ texts, c ∉ text.toList) :
    c ∉ (separator.intercalate texts).toList := by
  induction texts with
  | nil => exact List.not_mem_nil
  | cons first rest ih =>
    obtain ⟨hfirst, hrest⟩ := List.forall_mem_cons.1 h
    cases rest with
    | nil => rwa [String.intercalate_singleton]
    | cons second rest =>
      rw [String.intercalate_cons_cons]
      exact not_mem_append (not_mem_append hfirst hseparator) (ih hrest)

theorem not_mem_elementName (depth : Nat) : '?' ∉ (elementName depth).toList := by
  rw [elementName]
  exact not_mem_append (by decide) (Segment.not_mem_indexText (by decide) depth)

theorem Place.isBalanced (place : Place) : place.fragment.IsBalanced := by
  obtain ⟨element, segments⟩ := place
  cases element with
  | none => exact .ofParameter _
  | some depth =>
    have key : (Fragment.ofText (elementName depth ++ ".fullkey")).IsBalanced :=
      .ofText (not_mem_append (not_mem_elementName depth) (by decide))
    cases segments with
    | nil => exact key
    | cons segment rest => exact (key.append (.ofText (by decide))).append (.ofParameter _)

theorem isBalanced_payloadCall {function : String} (h : '?' ∉ function.toList) (place : Place) :
    (payloadCall function place).IsBalanced := by
  have lead : '?' ∉ (function ++ "(" ++ payloadColumn ++ ", ").toList :=
    not_mem_append (not_mem_append (not_mem_append h (by decide)) (by decide)) (by decide)
  exact ((IsBalanced.ofText lead).append place.isBalanced).append (.ofText (by decide))

theorem not_mem_sqlName (target : Column) : '?' ∉ target.sqlName.toList := by
  cases target <;> decide

theorem Term.isBalanced (term : Term) : term.fragment.IsBalanced := by
  cases term with
  | column target => exact .ofText (not_mem_sqlName target)
  | columnType target =>
    exact .ofText (not_mem_append (not_mem_append (by decide) (not_mem_sqlName target)) (by decide))
  | columnNumber target =>
    have name := not_mem_sqlName target
    exact .ofText (not_mem_append (not_mem_append (not_mem_append (not_mem_append (by decide) name)
      (by decide)) name) (by decide))
  | payload place => exact isBalanced_payloadCall (by decide) place
  | payloadType place => exact isBalanced_payloadCall (by decide) place
  | payloadNumber place =>
    have value : (payloadCall "json_extract" place).IsBalanced :=
      isBalanced_payloadCall (by decide) place
    have type : (payloadCall "json_type" place).IsBalanced :=
      isBalanced_payloadCall (by decide) place
    have start : (Fragment.ofText "CASE " ++ payloadCall "json_type" place).IsBalanced :=
      .append (.ofText (by decide)) type
    have next {a : Fragment} (ha : a.IsBalanced) {text : String} (h : '?' ∉ text.toList) :
        (a ++ Fragment.ofText text ++ payloadCall "json_extract" place).IsBalanced :=
      .append (.append ha (.ofText h)) value
    exact .append (next (next (next (next (next start (by decide)) (by decide)) (by decide))
      (by decide)) (by decide)) (.ofText (by decide))

/-! ## Conditions -/

namespace Condition

/-- As many placeholders as parameters. -/
def IsBalanced (condition : Condition) : Prop := condition.fragment.IsBalanced

namespace IsBalanced

/-- Words and signs have no placeholders. -/
theorem followedBy (term : Term) {rest : Fragment} (h : rest.IsBalanced) :
    (term.followedBy rest).IsBalanced := term.isBalanced.append h

variable (term : Term)

theorem hasType {name : String} (h : '?' ∉ name.toList) :
    (Condition.hasType term name).IsBalanced :=
  followedBy term (.ofText (not_mem_append (not_mem_append (by decide) h) (by decide)))

theorem hasNumberType : (Condition.hasNumberType term).IsBalanced :=
  followedBy term (.ofText (by decide))

theorem hasNullType : (Condition.hasNullType term).IsBalanced :=
  .append (.ofText (by decide)) (followedBy term (.ofText (by decide)))

theorem equals (p : Parameter) : (Condition.equals term p).IsBalanced :=
  followedBy term (.append (.ofText (by decide)) (.ofParameter p))

theorem equalsJson (v : Value) : (Condition.equalsJson term v).IsBalanced :=
  followedBy term (.append (.append (.ofText (by decide)) (.ofParameter _)) (.ofText (by decide)))

theorem isIn (ps : List Parameter) : (Condition.isIn term ps).IsBalanced :=
  followedBy term (.append (.append (.ofText (by decide))
    (.joined (by decide) (List.forall_mem_map.2 fun p _ => .ofParameter p))) (.ofText (by decide)))

theorem compares (op : Comparison) (p : Parameter) : (Condition.compares term op p).IsBalanced := by
  have sign : '?' ∉ (" " ++ comparisonSign op ++ " ").toList := by cases op <;> decide
  exact followedBy term (.append (.ofText sign) (.ofParameter p))

theorem between (low high : Parameter) : (Condition.between term low high).IsBalanced :=
  followedBy term (.append (.append (.append (.ofText (by decide)) (.ofParameter low))
    (.ofText (by decide))) (.ofParameter high))

theorem contains (needle : String) (caseSensitive : Bool) :
    (Condition.contains term needle caseSensitive).IsBalanced := by
  cases caseSensitive with
  | true =>
    exact .append (.ofText (by decide)) (followedBy term
      (.append (.append (.ofText (by decide)) (.ofParameter _)) (.ofText (by decide))))
  | false =>
    exact .append (.ofText (by decide)) (followedBy term
      (.append (.append (.ofText (by decide)) (.ofParameter _)) (.ofText (by decide))))

theorem isNull : (Condition.isNull term).IsBalanced := followedBy term (.ofText (by decide))

theorem isNotNull : (Condition.isNotNull term).IsBalanced := followedBy term (.ofText (by decide))

variable {a b : Condition}

theorem and (ha : a.IsBalanced) (hb : b.IsBalanced) : (Condition.and a b).IsBalanced :=
  .append (.append ha (.ofText (by decide))) hb

theorem not (h : a.IsBalanced) : (Condition.not a).IsBalanced :=
  .append (.ofText (by decide)) h.parenthesized

theorem flag (h : a.IsBalanced) : (Condition.flag a).IsBalanced :=
  .append (.append (.ofText (by decide)) h) (.ofText (by decide))

theorem any {conditions : List Condition} (h : ∀ condition ∈ conditions, condition.IsBalanced) :
    (Condition.any conditions).IsBalanced := by
  have parts : ∀ a ∈ fragments conditions, a.IsBalanced := by
    rw [fragments_eq]
    exact List.forall_mem_map.2 (List.forall_mem_map.2 fun condition hcondition =>
      Fragment.IsBalanced.parenthesized (h condition hcondition))
  exact .joined (by decide) parts

theorem someElement (array : Place) (depth : Nat) (h : a.IsBalanced) :
    (Condition.someElement array depth a).IsBalanced := by
  have element : '?' ∉ (" AS " ++ elementName depth ++ " WHERE ").toList :=
    not_mem_append (not_mem_append (by decide) (not_mem_elementName depth)) (by decide)
  exact .append (.append (.append (.append (.append (isBalanced_payloadCall (by decide) array)
    (.ofText (by decide))) (isBalanced_payloadCall (by decide) array)) (.ofText element)) h)
    (.ofText (by decide))

end IsBalanced

end Condition

/-! ## Atoms -/

namespace Operand

variable (operand : Operand)

theorem isBalanced_ofType {name : String} (hname : '?' ∉ name.toList) {condition : Condition}
    (h : condition.IsBalanced) : (operand.ofType name condition).IsBalanced :=
  .flag (.and (.hasType _ hname) h)

theorem isBalanced_ofNumberType {condition : Condition} (h : condition.IsBalanced) :
    (operand.ofNumberType condition).IsBalanced := .flag (.and (.hasNumberType _) h)

theorem isBalanced_eq (v : Value) : (operand.eq v).IsBalanced := by
  have text (p : Parameter) : (operand.ofType "text" (.equals operand.value p)).IsBalanced :=
    operand.isBalanced_ofType (by decide) (.equals _ p)
  cases v with
  | null => exact iteInduction (fun _ => .flag (.hasNullType _)) fun _ => .isNull _
  | bool b =>
    refine iteInduction (fun _ => .flag (.hasType _ ?_))
      fun _ => operand.isBalanced_ofType (by decide) (.equals _ _)
    cases b <;> decide
  | number n => exact operand.isBalanced_ofNumberType (.equals _ _)
  | string s => exact text _
  | array items =>
    exact iteInduction (fun _ => operand.isBalanced_ofType (by decide) (.equalsJson _ _))
      fun _ => text _
  | object fields =>
    exact iteInduction (fun _ => operand.isBalanced_ofType (by decide) (.equalsJson _ _))
      fun _ => text _

/-- The strings and the numbers of a list have one placeholder each, and the other members those of
their own alternatives. -/
theorem isBalanced_isIn (values : List Value) : (operand.isIn values).IsBalanced :=
  isIn_induction values (.ofText (by decide)) (operand.isBalanced_ofType (by decide) (.isIn _ _))
    (operand.isBalanced_ofNumberType (.isIn _ _)) operand.isBalanced_eq fun _ h => .flag (.any h)

theorem isBalanced_positive (predicate : Predicate) : (operand.positive predicate).IsBalanced := by
  cases predicate with
  | eq v => exact operand.isBalanced_eq v
  | neq v => exact operand.isBalanced_eq v
  | isIn values => exact operand.isBalanced_isIn values
  | notIn values => exact operand.isBalanced_isIn values
  | compare op bound => exact .flag (.compares _ op _)
  | between low high => exact .flag (.between _ _ _)
  | like needle caseSensitive =>
    exact operand.isBalanced_ofType (by decide) (.contains _ needle caseSensitive)
  | «exists» flag => exact .isNotNull _

end Operand

/-! ## Filters and orders -/

theorem isBalanced_ofPositive (predicate : Predicate) {positive : Condition}
    (h : positive.IsBalanced) : (ofPositive predicate positive).IsBalanced :=
  iteInduction (fun _ => .not h) fun _ => h

/-- The induction is on the segments. A wildcard writes the place of the array twice, each time with its
own parameters, and then goes on from the elements. -/
theorem isBalanced_pathCondition (predicate : Predicate) (place : Place) (depth : Nat)
    (segments : List Segment) : (pathCondition predicate place depth segments).IsBalanced := by
  induction segments generalizing place depth with
  | nil => exact (Operand.ofPlace place).isBalanced_positive predicate
  | cons segment rest ih =>
    cases segment with
    | wildcard => exact .flag (.someElement place depth (ih ⟨some depth, []⟩ (depth + 1)))
    | key name => exact ih _ depth
    | index i => exact ih _ depth

end Sql

theorem Clause.isBalanced_condition (clause : Clause) : clause.condition.IsBalanced := by
  induction clause using Clause.induction with
  | payload path predicate =>
    exact Sql.isBalanced_ofPositive predicate (Sql.isBalanced_pathCondition predicate _ 0 _)
  | column target predicate =>
    exact Sql.isBalanced_ofPositive predicate (Sql.Operand.isBalanced_positive _ predicate)
  | idAfter cursor => exact .compares _ .gt _
  | all clauses ih =>
    rw [Clause.condition, conditions_eq, Sql.Condition.IsBalanced, Sql.fragment_all]
    exact .all (List.forall_mem_map.2 (List.forall_mem_map.2 ih))

theorem SortKey.isBalanced_fragment (keys : List SortKey) : (SortKey.fragment keys).IsBalanced := by
  refine .joined (by decide) (List.forall_mem_map.2 fun key _ => ?_)
  have keyword : '?' ∉ key.direction.keyword.toList := by cases key.direction <;> decide
  exact key.target.term.isBalanced.append (.ofText keyword)

/-! ## Statements -/

namespace Sql

theorem not_mem_columnNames (name : String) :
    ∀ column ∈ (recordsTable name).columnNames, '?' ∉ column.toList := by
  have same : (recordsTable name).columnNames = (recordsTable "").columnNames := rfl
  rw [same]
  decide +kernel

theorem not_mem_of_isIdentifier {name : String} (h : isIdentifier name = true) :
    '?' ∉ name.toList := by
  unfold isIdentifier at h
  split at h
  · cases h
  · next c cs hname =>
    rw [hname]
    rw [Bool.and_eq_true, List.all_eq_true] at h
    intro hmem
    rcases List.mem_cons.1 hmem with rfl | hmem
    · exact absurd h.1 (by decide)
    · exact absurd (h.2 '?' hmem) (by decide)

namespace TableSchema

theorem isBalanced_ordering {order : Fragment} (h : order.IsBalanced) :
    (ordering order).IsBalanced :=
  iteInduction (fun _ => .ofText (by decide)) fun _ => .append (.ofText (by decide)) h

theorem filled_ordering (order : Fragment) :
    (ordering order).filled =
      if order.sql.isEmpty then [] else Fragment.plain " ORDER BY " ++ order.filled := by
  have word : '?' ∉ " ORDER BY ".toList := by decide
  unfold ordering
  split
  · rfl
  · rw [Fragment.filled_append (.ofText word), Fragment.filled_ofText word]

/-- The number of rows that are wanted comes first, and then that of those that are skipped. -/
theorem filled_paging (slice : Slice) :
    (paging (some slice.fragment)).filled =
      Fragment.plain " LIMIT " ++ [.inr (.integer (Slice.parameter slice.limit))] ++
        Fragment.plain " OFFSET " ++ [.inr (.integer (Slice.parameter slice.skip))] := by
  have limit : '?' ∉ " LIMIT ".toList := by decide
  have offset : '?' ∉ " OFFSET ".toList := by decide
  have text : " " ++ "LIMIT ? OFFSET ?" = " LIMIT " ++ "?" ++ " OFFSET " ++ "?" := by decide
  have parts : paging (some slice.fragment) =
      Fragment.ofText " LIMIT " ++ .ofParameter (.integer (Slice.parameter slice.limit)) ++
        Fragment.ofText " OFFSET " ++ .ofParameter (.integer (Slice.parameter slice.skip)) :=
    congrArg (Fragment.mk · slice.fragment.params) text
  have first := (Fragment.IsBalanced.ofText limit).append
    (.ofParameter (.integer (Slice.parameter slice.limit)))
  rw [parts, Fragment.filled_append (first.append (.ofText offset)), Fragment.filled_append first,
    Fragment.filled_append (.ofText limit), Fragment.filled_ofText limit,
    Fragment.filled_ofText offset, Fragment.filled_ofParameter, Fragment.filled_ofParameter]

theorem not_mem_selectionLead {name : String} (h : isIdentifier name = true) :
    '?' ∉ (recordsTable name).selectionLead.toList := by
  have columns : '?' ∉ (", ".intercalate (recordsTable name).columnNames).toList :=
    not_mem_intercalate (by decide) (not_mem_columnNames name)
  rw [selectionLead]
  exact not_mem_append (not_mem_append (not_mem_append (not_mem_append (by decide) columns)
    (by decide)) (not_mem_of_isIdentifier h)) (by decide)

/-- The parts of a statement that finds rows are filled one by one. -/
theorem filled_selection {name : String} (hname : isIdentifier name = true)
    {condition order : Fragment} (hcondition : condition.IsBalanced) (horder : order.IsBalanced)
    (page : Option Fragment) :
    ((recordsTable name).selection condition order page).filled =
      Fragment.plain (recordsTable name).selectionLead ++ condition.filled ++
        (ordering order).filled ++ (paging page).filled := by
  have lead := not_mem_selectionLead hname
  have selecting := (Fragment.IsBalanced.ofText lead).append hcondition
  rw [selection, Fragment.filled_append (selecting.append (isBalanced_ordering horder)),
    Fragment.filled_append selecting, Fragment.filled_append (.ofText lead),
    Fragment.filled_ofText lead]

end TableSchema

end Sql

/-! ## Everything that is written -/

namespace Dialect

/-- All filters and orders that a dialect writes have some property. -/
structure WritesOnly (dialect : Dialect) (p : dialect.Filter → Prop) (q : dialect.Order → Prop) :
    Prop where
  filter : ∀ query reference filter, dialect.filter query reference = .ok filter → p filter
  payload : ∀ path predicate filter, dialect.payload path predicate = .ok filter → p filter
  column : ∀ target predicate filter, dialect.column target predicate = .ok filter → p filter
  idIn : ∀ ids filter, dialect.idIn ids = .ok filter → p filter
  idAfter : ∀ cursor, p (dialect.idAfter cursor)
  all : ∀ filters, (∀ filter ∈ filters, p filter) → p (dialect.all filters)
  sort : ∀ items order, dialect.sort items = .ok order → q order

theorem writesOnly_isBalanced :
    sql.WritesOnly Sql.Fragment.IsBalanced Sql.Fragment.IsBalanced where
  filter query reference filter h := by
    rw [writes_sql.filter] at h
    cases hclause : query.clause reference with
    | error e =>
      rw [hclause] at h
      cases h
    | ok clause =>
      rw [hclause] at h
      cases h
      exact clause.isBalanced_condition
  payload path predicate filter h := by
    cases h
    exact (Clause.payload path predicate).isBalanced_condition
  column target predicate filter h := by
    cases h
    exact (Clause.column target predicate).isBalanced_condition
  idIn ids filter h := by
    cases h
    exact (Clause.idIn ids).isBalanced_condition
  idAfter cursor := (Clause.idAfter cursor).isBalanced_condition
  all filters h := .all h
  sort items order h := by
    obtain ⟨keys, -, h⟩ := bind_eq_ok.1 h
    cases h
    exact SortKey.isBalanced_fragment keys

/-- All that is written as SQL has as many placeholders as parameters. A conjunction has the texts and
the parameters of the parts that it keeps, both in the sequence of the parts. So when the
placeholders of a statement that finds rows are filled in turn, those of its condition are filled
with the parameters of the condition, those of its order with the parameters of the order, and the
last two with the number of rows that are wanted and that of those that are skipped. -/
theorem sql_placeholders :
    sql.WritesOnly Sql.Fragment.IsBalanced Sql.Fragment.IsBalanced ∧
    (∀ filters : List Sql.Fragment,
      let kept := filters.filter (· ≠ Sql.Fragment.always)
      (sql.all filters).params = kept.flatMap Sql.Fragment.params ∧
        (sql.all filters).sql = Sql.Fragment.conjunctionText (kept.map Sql.Fragment.sql)) ∧
    ∀ (name : String) (condition order : Sql.Fragment), Sql.isIdentifier name = true →
      condition.IsBalanced → order.IsBalanced →
      let table := Sql.recordsTable name
      let sorted := Sql.Fragment.plain table.selectionLead ++ condition.filled ++
        if order.sql.isEmpty then [] else Sql.Fragment.plain " ORDER BY " ++ order.filled
      (table.selection condition order none).filled = sorted ∧
        ∀ slice : Slice, (table.selection condition order (some slice.fragment)).filled =
          sorted ++ (Sql.Fragment.plain " LIMIT " ++
            [.inr (.integer (Slice.parameter slice.limit))] ++ Sql.Fragment.plain " OFFSET " ++
            [.inr (.integer (Slice.parameter slice.skip))]) := by
  refine ⟨writesOnly_isBalanced, fun filters => ⟨Sql.Fragment.params_all filters,
    Sql.Fragment.sql_all filters⟩, fun name condition order hname hcondition horder => ?_⟩
  have parts := Sql.TableSchema.filled_selection hname hcondition horder
  refine ⟨?_, fun slice => ?_⟩
  · rw [parts, Sql.TableSchema.filled_ordering]
    exact List.append_nil _
  · rw [parts, Sql.TableSchema.filled_ordering, Sql.TableSchema.filled_paging]

/-- A path below the elements of an array, whose text stands at two placeholders, and a page. -/
theorem sql_placeholders_page :
    ∃ filter order,
      sql.filter ⟨some (.all [⟨.eq, "items.[*].sku", .string "A1", none⟩]), none, none⟩ 0 =
        .ok filter ∧ filter.params.length = 5 ∧ filter.IsBalanced ∧
      sql.sort [⟨"profile.name", .desc⟩] = .ok order ∧ order.IsBalanced ∧
      ((Sql.recordsTable "objs").selection filter order (some (Slice.fragment ⟨20, 10⟩))).filled =
        Sql.Fragment.plain (Sql.recordsTable "objs").selectionLead ++ filter.filled ++
          (if order.sql.isEmpty then [] else Sql.Fragment.plain " ORDER BY " ++ order.filled) ++
          (Sql.Fragment.plain " LIMIT " ++ [.inr (.integer (Slice.parameter 10))] ++
            Sql.Fragment.plain " OFFSET " ++ [.inr (.integer (Slice.parameter 20))]) := by
  have filter := sql_placeholders.1.filter
    ⟨some (.all [⟨.eq, "items.[*].sku", .string "A1", none⟩]), none, none⟩ 0 _ rfl
  have order := sql_placeholders.1.sort [⟨"profile.name", .desc⟩] _ rfl
  exact ⟨_, _, rfl, rfl, filter, rfl, order,
    (sql_placeholders.2.2 "objs" _ _ (by decide) filter order).2 ⟨20, 10⟩⟩

end Dialect

end RecordStore
