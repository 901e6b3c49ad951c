import Mathlib.Data.List.Forall2
import RecordStore.Proofs.Query.Plain
import RecordStore.Query.Order

/-!
# Queries of one shape

Two queries have the same shape (`Query.SameShape`) if they differ in what users fill in only: in
the names and numbers along paths, and in the literals that they ask for, of which just the kind is
the same. Accepted queries of one shape become clauses of one shape (`Query.SameShape.clause`),
whatever their reference instants, and orders of one shape become keys of one shape
(`SortKey.sameShape_ofItems`).
-/

namespace RecordStore

/-! ## Values and paths -/

/-- Values of the same kind; booleans are the same. -/
inductive Value.SameKind : Value → Value → Prop
  | null : SameKind .null .null
  | bool (b : Bool) : SameKind (.bool b) (.bool b)
  | number (m n : Number) : SameKind (.number m) (.number n)
  | string (s t : String) : SameKind (.string s) (.string t)
  | array (items others : List Value) : SameKind (.array items) (.array others)
  | object (fields others : Fields) : SameKind (.object fields) (.object others)

/-- Numbers that are written as values of the same kind: null is what is not finite. -/
def Float64.SameKind (x y : Float64) : Prop := (Value.float x).SameKind (.float y)

/-- Paths of as many segments, with wildcards at the same positions. -/
def Path.SameShape (path other : Path) : Prop :=
  path.segments.map (· == .wildcard) = other.segments.map (· == .wildcard)

/-! ## Queries -/

/-- Payload predicates that differ in their fields and operands only. -/
structure PartItem.SameShape (item other : PartItem) : Prop where
  op : item.op = other.op
  isCaseSensitive : item.isCaseSensitive = other.isCaseSensitive
  field : ∀ path path', Path.parse item.field = .ok path → Path.parse other.field = .ok path' →
    path.SameShape path'
  value : item.value.SameKind other.value
  /-- The literals of a list are of the same kinds one by one. -/
  literals : item.op = .isIn ∨ item.op = .notIn → ∀ values values',
    item.value = .array values → other.value = .array values' →
      List.Forall₂ Value.SameKind values values'

structure LogicalQuery.SameShape (logical other : LogicalQuery) : Prop where
  conjuncts : Option.Rel (List.Forall₂ PartItem.SameShape) logical.conjuncts other.conjuncts
  alternatives :
    Option.Rel (List.Forall₂ PartItem.SameShape) logical.alternatives other.alternatives

/-- String predicates with the same operators, on lists of the same lengths. -/
structure StringQuery.SameShape (query other : StringQuery) : Prop where
  eq : query.eq.isSome = other.eq.isSome
  neq : query.neq.isSome = other.neq.isSome
  isIn : query.isIn.map List.length = other.isIn.map List.length
  notIn : query.notIn.map List.length = other.notIn.map List.length

/-- Number predicates with the same operators, on lists of the same lengths, where null stands for
the same of the numbers. -/
structure NumberQuery.SameShape (query other : NumberQuery) : Prop where
  eq : Option.Rel Float64.SameKind query.eq other.eq
  neq : Option.Rel Float64.SameKind query.neq other.neq
  isIn : Option.Rel (List.Forall₂ Float64.SameKind) query.isIn other.isIn
  notIn : Option.Rel (List.Forall₂ Float64.SameKind) query.notIn other.notIn
  gt : query.gt.isSome = other.gt.isSome
  gte : query.gte.isSome = other.gte.isSome
  lt : query.lt.isSome = other.lt.isSome
  lte : query.lte.isSome = other.lte.isSome
  between : query.between.isSome = other.between.isSome

/-- Predicates on an attribute with the same operators, and with literals of the same kinds. -/
structure AttributeQuery.SameShape (query other : AttributeQuery) : Prop where
  eq : Option.Rel Value.SameKind query.eq other.eq
  neq : Option.Rel Value.SameKind query.neq other.neq
  isIn : Option.Rel (List.Forall₂ Value.SameKind) query.isIn other.isIn
  notIn : Option.Rel (List.Forall₂ Value.SameKind) query.notIn other.notIn
  gt : query.gt.isSome = other.gt.isSome
  gte : query.gte.isSome = other.gte.isSome
  lt : query.lt.isSome = other.lt.isSome
  lte : query.lte.isSome = other.lte.isSome
  between : query.between.isSome = other.between.isSome

/-- Predicates on the same attributes, of the same shapes. -/
structure MetaQuery.SameShape (query other : MetaQuery) : Prop where
  id : Option.Rel AttributeQuery.SameShape query.id other.id
  createdAt : Option.Rel AttributeQuery.SameShape query.createdAt other.createdAt
  updatedAt : Option.Rel AttributeQuery.SameShape query.updatedAt other.updatedAt
  createdBy : Option.Rel AttributeQuery.SameShape query.createdBy other.createdBy
  createdByType : Option.Rel AttributeQuery.SameShape query.createdByType other.createdByType
  updatedBy : Option.Rel AttributeQuery.SameShape query.updatedBy other.updatedBy
  updatedByType : Option.Rel AttributeQuery.SameShape query.updatedByType other.updatedByType
  deletedBy : Option.Rel AttributeQuery.SameShape query.deletedBy other.deletedBy
  deletedByType : Option.Rel AttributeQuery.SameShape query.deletedByType other.deletedByType

def DeletedAtQuery.SameShape : DeletedAtQuery → DeletedAtQuery → Prop
  | .isNull flag, .isNull other => flag = other
  | .number query, .number other => query.SameShape other
  | _, _ => False

structure TopLevelQuery.SameShape (query other : TopLevelQuery) : Prop where
  shouldIndex : query.shouldIndex = other.shouldIndex
  fieldsToIndex : query.fieldsToIndex.isSome = other.fieldsToIndex.isSome
  tag : Option.Rel StringQuery.SameShape query.tag other.tag
  groupId : Option.Rel StringQuery.SameShape query.groupId other.groupId
  deletedAt : Option.Rel DeletedAtQuery.SameShape query.deletedAt other.deletedAt

/-- Queries that differ in the names along their paths and in their literals only. -/
structure Query.SameShape (query other : Query) : Prop where
  part : Option.Rel LogicalQuery.SameShape query.part other.part
  attributes : Option.Rel MetaQuery.SameShape query.attributes other.attributes
  topLevel : Option.Rel TopLevelQuery.SameShape query.topLevel other.topLevel

/-! ## Orders -/

def SortTarget.SameShape : SortTarget → SortTarget → Prop
  | .column target, .column other => target = other
  | .payload path, .payload other => path.SameShape other
  | _, _ => False

/-- Sort fields with the same direction that ask for the same column, or for paths of one shape. -/
structure SortItem.SameShape (item other : SortItem) : Prop where
  direction : item.direction = other.direction
  target : ∀ target target', SortKey.targetOf item.field = .ok target →
    SortKey.targetOf other.field = .ok target' → target.SameShape target'

structure SortKey.SameShape (key other : SortKey) : Prop where
  direction : key.direction = other.direction
  target : key.target.SameShape other.target

/-! ## Clauses -/

/-- Predicates that differ in their operands only. -/
inductive Predicate.SameShape : Predicate → Predicate → Prop
  | eq {v w : Value} (h : v.SameKind w) : SameShape (.eq v) (.eq w)
  | neq {v w : Value} (h : v.SameKind w) : SameShape (.neq v) (.neq w)
  | isIn {values others : List Value} (h : List.Forall₂ Value.SameKind values others) :
    SameShape (.isIn values) (.isIn others)
  | notIn {values others : List Value} (h : List.Forall₂ Value.SameKind values others) :
    SameShape (.notIn values) (.notIn others)
  | compare (op : Comparison) (bound other : Float64) :
    SameShape (.compare op bound) (.compare op other)
  | between (low high low' high' : Float64) :
    SameShape (.between low high) (.between low' high')
  | like (needle other : String) (caseSensitive : Bool) :
    SameShape (.like needle caseSensitive) (.like other caseSensitive)
  | exists (flag : Bool) : SameShape (.exists flag) (.exists flag)

/-- Clauses that differ in their paths and operands only. -/
inductive Clause.SameShape : Clause → Clause → Prop
  | payload {path other : Path} {predicate predicate' : Predicate} (hpath : path.SameShape other)
    (hpredicate : predicate.SameShape predicate') :
    SameShape (.payload path predicate) (.payload other predicate')
  | column (target : Column) {predicate predicate' : Predicate}
    (hpredicate : predicate.SameShape predicate') :
    SameShape (.column target predicate) (.column target predicate')
  | idAfter (cursor other : String) : SameShape (.idAfter cursor) (.idAfter other)
  | all {clauses others : List Clause} (h : List.Forall₂ SameShape clauses others) :
    SameShape (.all clauses) (.all others)

/-! ## Lists and optional members -/

section

variable {α β γ δ ε : Type} {R : α → β → Prop} {S : γ → δ → Prop}

theorem rel_of_isSome_eq {found : Option α} {other : Option β} (h : found.isSome = other.isSome) :
    Option.Rel (fun _ _ => True) found other := by
  cases found with
  | none => cases other with
    | none => exact .none
    | some b => cases h
  | some a => cases other with
    | none => cases h
    | some b => exact .some trivial

theorem rel_of_length_eq {found : Option (List α)} {other : Option (List β)}
    (h : found.map List.length = other.map List.length) :
    Option.Rel (fun items others => items.length = others.length) found other := by
  cases found with
  | none => cases other with
    | none => exact .none
    | some b => cases h
  | some a => cases other with
    | none => cases h
    | some b => exact .some (Option.some.inj h)

theorem forall₂_toList {found : Option α} {other : Option β} (h : Option.Rel R found other) :
    List.Forall₂ R found.toList other.toList := by
  cases h with
  | none => exact .nil
  | some hab => exact .cons hab .nil

theorem forall₂_toList_map {found : Option α} {other : Option β} {f : α → γ} {g : β → δ}
    (h : Option.Rel R found other) (hfg : ∀ a b, R a b → S (f a) (g b)) :
    List.Forall₂ S (found.map f).toList (other.map g).toList := by
  cases h with
  | none => exact .nil
  | some hab => exact .cons (hfg _ _ hab) .nil

theorem forall₂_map_of_length_eq {f : α → γ} {g : β → δ} (hfg : ∀ a b, S (f a) (g b)) :
    ∀ {items : List α} {others : List β}, items.length = others.length →
      List.Forall₂ S (items.map f) (others.map g)
  | [], [], _ => .nil
  | a :: _, b :: _, h => .cons (hfg a b) (forall₂_map_of_length_eq hfg (Nat.succ.inj h))

theorem forall₂_getD {found : Option (List α)} {other : Option (List β)}
    (h : Option.Rel (List.Forall₂ R) found other) :
    List.Forall₂ R (found.getD []) (other.getD []) := by
  cases h with
  | none => exact .nil
  | some hitems => exact hitems

theorem forall₂_filter {p : α → Bool} {q : β → Bool} (hpq : ∀ a b, R a b → p a = q b)
    {items : List α} {others : List β} (h : List.Forall₂ R items others) :
    List.Forall₂ R (items.filter p) (others.filter q) :=
  List.rel_filter (fun a b hab => Bool.eq_iff_iff.1 (hpq a b hab)) h

/-- What accepted elements have in common, accepted lists have in common. -/
theorem forall₂_mapM {f : α → Except ε γ} {g : β → Except ε δ} {items : List α} {others : List β}
    {results : List γ} {results' : List δ} (h : List.Forall₂ R items others)
    (hresults : items.mapM f = .ok results) (hresults' : others.mapM g = .ok results')
    (hfg : ∀ a b, R a b → ∀ c d, f a = .ok c → g b = .ok d → S c d) :
    List.Forall₂ S results results' := by
  induction h generalizing results results' with
  | nil =>
    cases hresults
    cases hresults'
    exact .nil
  | cons hab _ ih =>
    rw [List.mapM_cons] at hresults hresults'
    obtain ⟨c, hc, hresults⟩ := bind_eq_ok.1 hresults
    obtain ⟨rest, hrest, hresults⟩ := bind_eq_ok.1 hresults
    obtain ⟨d, hd, hresults'⟩ := bind_eq_ok.1 hresults'
    obtain ⟨rest', hrest', hresults'⟩ := bind_eq_ok.1 hresults'
    cases hresults
    cases hresults'
    exact .cons (hfg _ _ hab c d hc hd) (ih hrest hrest')

/-- A reading that succeeds or fails by the kind of a value reads as many of lists of the same
kinds. -/
theorem length_filterMap_eq {f : Value → Option α} {g : Value → Option β}
    (hfg : ∀ v w, v.SameKind w → (f v).isSome = (g w).isSome) {values others : List Value}
    (h : List.Forall₂ Value.SameKind values others) :
    (values.filterMap f).length = (others.filterMap g).length :=
  (List.rel_filterMap (fun v w hvw => rel_of_isSome_eq (hfg v w hvw)) h).length_eq

theorem length_map_filterMap_eq {f : Value → Option α} {g : Value → Option β}
    (hfg : ∀ v w, v.SameKind w → (f v).isSome = (g w).isSome) {found other : Option (List Value)}
    (h : Option.Rel (List.Forall₂ Value.SameKind) found other) :
    (found.map (List.filterMap f)).map List.length =
      (other.map (List.filterMap g)).map List.length := by
  cases h with
  | none => rfl
  | some hvalues => exact congrArg some (length_filterMap_eq hfg hvalues)

theorem rel_bind {f : α → Option γ} {g : β → Option δ}
    (hfg : ∀ a b, R a b → Option.Rel S (f a) (g b)) {found : Option α} {other : Option β}
    (h : Option.Rel R found other) : Option.Rel S (found.bind f) (other.bind g) := by
  cases h with
  | none => exact .none
  | some hab => exact hfg _ _ hab

theorem rel_map_filterMap {f : α → Option γ} {g : β → Option δ}
    (hfg : ∀ a b, R a b → Option.Rel S (f a) (g b)) {found : Option (List α)}
    {other : Option (List β)} (h : Option.Rel (List.Forall₂ R) found other) :
    Option.Rel (List.Forall₂ S) (found.map (List.filterMap f)) (other.map (List.filterMap g)) := by
  cases h with
  | none => exact .none
  | some hitems => exact .some (List.rel_filterMap (fun a b hab => hfg a b hab) hitems)

theorem isSome_bind_eq {f : Value → Option α} {g : Value → Option β}
    (hfg : ∀ v w, v.SameKind w → (f v).isSome = (g w).isSome) {found other : Option Value}
    (h : Option.Rel Value.SameKind found other) :
    (found.bind f).isSome = (other.bind g).isSome := by
  cases h with
  | none => rfl
  | some hvw => exact hfg _ _ hvw

end

theorem Value.SameKind.isSome_string? {v w : Value} (h : v.SameKind w) :
    v.string?.isSome = w.string?.isSome := by
  cases h <;> rfl

theorem Value.SameKind.isSome_number? {v w : Value} (h : v.SameKind w) :
    v.number?.isSome = w.number?.isSome := by
  cases h <;> rfl

theorem Value.SameKind.rel_float? (v w : Value) (h : v.SameKind w) :
    Option.Rel Float64.SameKind (Wire.float? v) (Wire.float? w) := by
  cases h with
  | number m n => exact .some (.number _ _)
  | _ => exact .none

theorem Clause.SameShape.onColumn (target : Column) {predicates predicates' : List Predicate}
    (h : List.Forall₂ Predicate.SameShape predicates predicates') :
    (Clause.onColumn target predicates).SameShape (.onColumn target predicates') :=
  .all (List.rel_map (fun _ _ => .column target) h)

theorem Clause.SameShape.isNull (target : Column) (flag : Bool) :
    (Clause.isNull target flag).SameShape (.isNull target flag) := by
  cases flag with
  | true => exact .column target (.eq .null)
  | false => exact .column target (.neq .null)

/-! ## Payload predicates -/

theorem PartItem.SameShape.predicate {item other : PartItem} (h : item.SameShape other)
    {reference reference' : Instant} {predicate predicate' : Predicate}
    (hpredicate : item.predicate reference = .ok predicate)
    (hother : other.predicate reference' = .ok predicate') : predicate.SameShape predicate' := by
  have value := h.value
  have list : item.op = .isIn ∨ item.op = .notIn → ∀ {values values' : List Value},
      item.listOperand = .ok values → other.listOperand = .ok values' →
        List.Forall₂ Value.SameKind values values' := fun hop _ _ hvalues hvalues' =>
    h.literals hop _ _ (value_of_listOperand hvalues) (value_of_listOperand hvalues')
  have flags := h.isCaseSensitive
  obtain ⟨op, field, operand, caseSensitive⟩ := item
  obtain ⟨op', field', operand', caseSensitive'⟩ := other
  obtain rfl : op = op' := h.op
  cases op with
  | eq =>
    cases hpredicate
    cases hother
    exact .eq value
  | neq =>
    cases hpredicate
    cases hother
    exact .neq value
  | isIn =>
    obtain ⟨values, hvalues, hpredicate⟩ := bind_eq_ok.1 hpredicate
    obtain ⟨values', hvalues', hother⟩ := bind_eq_ok.1 hother
    cases hpredicate
    cases hother
    exact .isIn (list (.inl rfl) hvalues hvalues')
  | notIn =>
    obtain ⟨values, hvalues, hpredicate⟩ := bind_eq_ok.1 hpredicate
    obtain ⟨values', hvalues', hother⟩ := bind_eq_ok.1 hother
    cases hpredicate
    cases hother
    exact .notIn (list (.inr rfl) hvalues hvalues')
  | between =>
    obtain ⟨⟨low, high⟩, -, hpredicate⟩ := bind_eq_ok.1 hpredicate
    obtain ⟨⟨low', high'⟩, -, hother⟩ := bind_eq_ok.1 hother
    cases hpredicate
    cases hother
    exact .between low high low' high'
  | like =>
    obtain ⟨needle, -, hpredicate⟩ := bind_eq_ok.1 hpredicate
    obtain ⟨needle', -, hother⟩ := bind_eq_ok.1 hother
    cases hpredicate
    cases hother
    rw [flags]
    exact .like needle needle' _
  | «exists» =>
    obtain ⟨flag, hflag, hpredicate⟩ := bind_eq_ok.1 hpredicate
    obtain ⟨flag', hflag', hother⟩ := bind_eq_ok.1 hother
    cases hpredicate
    cases hother
    rw [value_of_existsOperand hflag, value_of_existsOperand hflag'] at value
    cases value
    exact .exists flag
  | _ =>
    obtain ⟨bound, -, hpredicate⟩ := bind_eq_ok.1 hpredicate
    obtain ⟨bound', -, hother⟩ := bind_eq_ok.1 hother
    cases hpredicate
    cases hother
    exact .compare _ bound bound'

theorem PartItem.SameShape.clause {item other : PartItem} (h : item.SameShape other)
    {reference reference' : Instant} {clause clause' : Clause}
    (hclause : item.clause reference = .ok clause)
    (hother : other.clause reference' = .ok clause') : clause.SameShape clause' := by
  obtain ⟨path, hpath, hclause⟩ := bind_eq_ok.1 hclause
  obtain ⟨path', hpath', hother⟩ := bind_eq_ok.1 hother
  obtain ⟨predicate, hpredicate, hclause⟩ := bind_eq_ok.1 hclause
  obtain ⟨predicate', hpredicate', hother⟩ := bind_eq_ok.1 hother
  cases hclause
  cases hother
  exact .payload (h.field path path' hpath hpath') (h.predicate hpredicate hpredicate')

theorem LogicalQuery.SameShape.clause {logical other : LogicalQuery} (h : logical.SameShape other)
    {reference reference' : Instant} {clause clause' : Clause}
    (hclause : logical.clause reference = .ok clause)
    (hother : other.clause reference' = .ok clause') : clause.SameShape clause' := by
  obtain ⟨clauses, hclauses, hclause⟩ := bind_eq_ok.1 hclause
  obtain ⟨clauses', hclauses', hother⟩ := bind_eq_ok.1 hother
  cases hclause
  cases hother
  have lists := List.rel_append (forall₂_toList h.conjuncts) (forall₂_toList h.alternatives)
  refine .all (forall₂_mapM lists hclauses hclauses' fun items items' hitems c c' hc hc' => ?_)
  obtain ⟨members, hmembers, hc⟩ := bind_eq_ok.1 hc
  obtain ⟨members', hmembers', hc'⟩ := bind_eq_ok.1 hc'
  cases hc
  cases hc'
  exact .all (forall₂_mapM hitems hmembers hmembers' fun _ _ hitem _ _ => hitem.clause)

/-! ## Attribute predicates -/

theorem StringQuery.SameShape.predicates {query other : StringQuery} (h : query.SameShape other) :
    List.Forall₂ Predicate.SameShape query.predicates other.predicates := by
  have list : ∀ {items others : List String}, items.length = others.length →
      List.Forall₂ Value.SameKind (items.map .string) (others.map .string) :=
    forall₂_map_of_length_eq .string
  refine List.rel_append (List.rel_append (List.rel_append ?_ ?_) ?_) ?_
  · exact forall₂_toList_map (rel_of_isSome_eq h.eq) fun s t _ => .eq (.string s t)
  · exact forall₂_toList_map (rel_of_isSome_eq h.neq) fun s t _ => .neq (.string s t)
  · exact forall₂_toList_map (rel_of_length_eq h.isIn) fun _ _ hlength => .isIn (list hlength)
  · exact forall₂_toList_map (rel_of_length_eq h.notIn) fun _ _ hlength => .notIn (list hlength)

theorem NumberQuery.SameShape.predicates {query other : NumberQuery} (h : query.SameShape other)
    (reference reference' : Instant) :
    List.Forall₂ Predicate.SameShape (query.predicates reference)
      (other.predicates reference') := by
  have list : ∀ {items others : List Float64}, List.Forall₂ Float64.SameKind items others →
      List.Forall₂ Value.SameKind (items.map .float) (others.map .float) :=
    fun h => List.forall₂_map_left_iff.2 (List.forall₂_map_right_iff.2 h)
  have compare : ∀ (op : Comparison) {bound bound' : Option Bound},
      bound.isSome = bound'.isSome → List.Forall₂ Predicate.SameShape
        (bound.map fun b => Predicate.compare op (b.resolve reference)).toList
        (bound'.map fun b => Predicate.compare op (b.resolve reference')).toList :=
    fun op _ _ hsome => forall₂_toList_map (rel_of_isSome_eq hsome) fun b b' _ => .compare op _ _
  refine List.rel_append (List.rel_append (List.rel_append (List.rel_append (List.rel_append
    (List.rel_append (List.rel_append (List.rel_append ?_ ?_) ?_) ?_) (compare .gt h.gt))
    (compare .gte h.gte)) (compare .lt h.lt)) (compare .lte h.lte)) ?_
  · exact forall₂_toList_map h.eq fun _ _ => .eq
  · exact forall₂_toList_map h.neq fun _ _ => .neq
  · exact forall₂_toList_map h.isIn fun _ _ hitems => .isIn (list hitems)
  · exact forall₂_toList_map h.notIn fun _ _ hitems => .notIn (list hitems)
  · exact forall₂_toList_map (rel_of_isSome_eq h.between) fun _ _ _ => .between _ _ _ _

namespace AttributeQuery

theorem family_eq_of_sameKind {v w : Value} (h : v.SameKind w) {family family' : Family}
    (hfamily : Family.ofOperand v = .ok family) (hother : Family.ofOperand w = .ok family') :
    family = family' := by
  cases h with
  | string s t =>
    cases hfamily
    cases hother
    rfl
  | number m n =>
    cases hfamily
    cases hother
    rfl
  | _ => cases hfamily

/-- Operands of the same kinds have the same family. -/
theorem join_eq_of_sameKind {operands others : List Value}
    (h : List.Forall₂ Value.SameKind operands others) {known joined joined' : Option Family}
    (hjoined : Family.join known operands = .ok joined)
    (hother : Family.join known others = .ok joined') : joined = joined' := by
  induction h generalizing known with
  | nil =>
    cases hjoined
    cases hother
    rfl
  | cons hvw _ ih =>
    obtain ⟨family, hfamily, hjoined⟩ := bind_eq_ok.1 hjoined
    obtain ⟨family', hfamily', hother⟩ := bind_eq_ok.1 hother
    cases family_eq_of_sameKind hvw hfamily hfamily'
    split at hjoined
    · cases hjoined
    · next hknown =>
      rw [if_neg hknown] at hother
      exact ih hjoined hother

theorem isSome_betweenBounds {query : AttributeQuery} {between : Option (Bound × Bound)}
    (h : query.betweenBounds? = .ok between) : between.isSome = query.between.isSome := by
  unfold betweenBounds? at h
  split at h
  · next hnone =>
    cases h
    rw [hnone]
    rfl
  · next hsome =>
    cases h
    rw [hsome]
    rfl
  · cases h

variable {query other : AttributeQuery} (h : query.SameShape other)

include h

theorem SameShape.hasRange : query.hasRange = other.hasRange := by
  rw [AttributeQuery.hasRange, AttributeQuery.hasRange, h.gt, h.gte, h.lt, h.lte, h.between]

theorem SameShape.operands : List.Forall₂ Value.SameKind query.operands other.operands :=
  List.rel_append (List.rel_append (List.rel_append (forall₂_toList h.eq) (forall₂_toList h.neq))
    (forall₂_getD h.isIn)) (forall₂_getD h.notIn)

theorem SameShape.strings : query.strings.SameShape other.strings where
  eq := isSome_bind_eq (fun _ _ => Value.SameKind.isSome_string?) h.eq
  neq := isSome_bind_eq (fun _ _ => Value.SameKind.isSome_string?) h.neq
  isIn := length_map_filterMap_eq (fun _ _ => Value.SameKind.isSome_string?) h.isIn
  notIn := length_map_filterMap_eq (fun _ _ => Value.SameKind.isSome_string?) h.notIn

theorem SameShape.numbers {between between' : Option (Bound × Bound)}
    (hbetween : between.isSome = between'.isSome) :
    (query.numbers between).SameShape (other.numbers between') where
  eq := rel_bind Value.SameKind.rel_float? h.eq
  neq := rel_bind Value.SameKind.rel_float? h.neq
  isIn := rel_map_filterMap Value.SameKind.rel_float? h.isIn
  notIn := rel_map_filterMap Value.SameKind.rel_float? h.notIn
  gt := h.gt
  gte := h.gte
  lt := h.lt
  lte := h.lte
  between := hbetween

theorem SameShape.clause {target : Column} {reference reference' : Instant}
    {clause clause' : Clause} (hclause : query.clause target reference = .ok clause)
    (hother : other.clause target reference' = .ok clause') : clause.SameShape clause' := by
  obtain ⟨typed, htyped, hclause⟩ := bind_eq_ok.1 hclause
  obtain ⟨typed', htyped', hother⟩ := bind_eq_ok.1 hother
  cases hclause
  cases hother
  obtain ⟨joined, hjoined, htyped⟩ := bind_eq_ok.1 htyped
  obtain ⟨joined', hjoined', htyped'⟩ := bind_eq_ok.1 htyped'
  rw [← h.hasRange] at hjoined'
  cases join_eq_of_sameKind h.operands hjoined hjoined'
  split at htyped
  · obtain ⟨between, hbetween, htyped⟩ := bind_eq_ok.1 htyped
    obtain ⟨between', hbetween', htyped'⟩ := bind_eq_ok.1 htyped'
    cases htyped
    cases htyped'
    have same : between.isSome = between'.isSome := by
      rw [isSome_betweenBounds hbetween, isSome_betweenBounds hbetween', h.between]
    exact .onColumn target ((h.numbers same).predicates reference reference')
  · next hstring =>
    split at htyped'
    · next hnumber => exact absurd rfl hstring
    cases htyped
    cases htyped'
    exact .onColumn target h.strings.predicates

end AttributeQuery

theorem MetaQuery.SameShape.entries {query other : MetaQuery} (h : query.SameShape other) :
    List.Forall₂ (fun entry entry' => entry.1 = entry'.1 ∧ entry.2.SameShape entry'.2)
      query.entries other.entries := by
  let Alike (entry entry' : Column × Option AttributeQuery) : Prop :=
    entry.1 = entry'.1 ∧ Option.Rel AttributeQuery.SameShape entry.2 entry'.2
  refine List.rel_filterMap (R := Alike) ?_ ?_
  · rintro ⟨target, found⟩ ⟨target', found'⟩ ⟨rfl, hfound⟩
    cases hfound with
    | none => exact .none
    | some hsame => exact .some ⟨rfl, hsame⟩
  · exact .cons ⟨rfl, h.id⟩ <| .cons ⟨rfl, h.createdAt⟩ <| .cons ⟨rfl, h.updatedAt⟩ <|
      .cons ⟨rfl, h.createdBy⟩ <| .cons ⟨rfl, h.createdByType⟩ <| .cons ⟨rfl, h.updatedBy⟩ <|
      .cons ⟨rfl, h.updatedByType⟩ <| .cons ⟨rfl, h.deletedBy⟩ <| .cons ⟨rfl, h.deletedByType⟩ .nil

theorem MetaQuery.SameShape.clause {query other : MetaQuery} (h : query.SameShape other)
    {reference reference' : Instant} {clause clause' : Clause}
    (hclause : query.clause reference = .ok clause)
    (hother : other.clause reference' = .ok clause') : clause.SameShape clause' := by
  obtain ⟨clauses, hclauses, hclause⟩ := bind_eq_ok.1 hclause
  obtain ⟨clauses', hclauses', hother⟩ := bind_eq_ok.1 hother
  cases hclause
  cases hother
  refine .all (forall₂_mapM h.entries hclauses hclauses' ?_)
  rintro ⟨target, entry⟩ ⟨target', entry'⟩ ⟨rfl, hentry⟩ c c' hc hc'
  exact hentry.clause hc hc'

/-! ## Queries -/

theorem DeletedAtQuery.SameShape.clause {query other : DeletedAtQuery} (h : query.SameShape other)
    (reference reference' : Instant) :
    (query.clause reference).SameShape (other.clause reference') := by
  cases query with
  | isNull flag => cases other with
    | isNull flag' =>
      cases h
      exact .isNull .deletedAt flag
    | number query' => exact absurd h id
  | number query => cases other with
    | isNull flag' => exact absurd h id
    | number query' =>
      exact .onColumn .deletedAt (NumberQuery.SameShape.predicates h reference reference')

theorem TopLevelQuery.SameShape.clause {query other : TopLevelQuery} (h : query.SameShape other)
    (reference reference' : Instant) :
    (query.clause reference).SameShape (other.clause reference') := by
  refine .all (List.rel_append (List.rel_append (List.rel_append (List.rel_append ?_ ?_) ?_) ?_) ?_)
  · rw [h.shouldIndex]
    cases other.shouldIndex with
    | none => exact .nil
    | some b => exact .cons (.column .shouldIndex (.eq (.bool b))) .nil
  · exact forall₂_toList_map (rel_of_isSome_eq h.fieldsToIndex) fun fields fields' _ =>
      .column .fieldsToIndex (.eq (.array _ _))
  · exact forall₂_toList_map h.tag fun _ _ htag => .onColumn .tag htag.predicates
  · exact forall₂_toList_map h.groupId fun _ _ hgroup => .onColumn .groupId hgroup.predicates
  · exact forall₂_toList_map h.deletedAt fun _ _ hdeleted => hdeleted.clause reference reference'

/-- Accepted queries of one shape become clauses of one shape, whatever their reference instants. -/
theorem Query.SameShape.clause {query other : Query} (h : query.SameShape other)
    {reference reference' : Instant} {clause clause' : Clause}
    (hclause : query.clause reference = .ok clause)
    (hother : other.clause reference' = .ok clause') : clause.SameShape clause' := by
  obtain ⟨part, hpart, hclause⟩ := bind_eq_ok.1 hclause
  obtain ⟨part', hpart', hother⟩ := bind_eq_ok.1 hother
  obtain ⟨attributes, hattributes, hclause⟩ := bind_eq_ok.1 hclause
  obtain ⟨attributes', hattributes', hother⟩ := bind_eq_ok.1 hother
  cases hclause
  cases hother
  refine .all (List.rel_append (List.rel_append ?_ ?_) ?_)
  · exact forall₂_mapM (forall₂_toList h.part) hpart hpart' fun _ _ hlogical _ _ => hlogical.clause
  · exact forall₂_mapM (forall₂_toList h.attributes) hattributes hattributes'
      fun _ _ hquery _ _ => hquery.clause
  · exact List.rel_map (fun _ _ hquery => hquery.clause reference reference')
      (forall₂_toList h.topLevel)

/-! ## Orders -/

theorem SortTarget.SameShape.isId {target other : SortTarget} (h : target.SameShape other) :
    target = .column .id ↔ other = .column .id := by
  cases target with
  | column target => cases other with
    | column target' =>
      cases h
      rfl
    | payload path => exact absurd h id
  | payload path => cases other with
    | column target' => exact absurd h id
    | payload path' => simp

namespace SortKey

theorem targetOf_of_resolve {item : SortItem} {key : SortKey} (h : resolve item = .ok key) :
    targetOf item.field = .ok key.target ∧ key.direction = item.direction := by
  obtain ⟨target, htarget, h⟩ := bind_eq_ok.1 h
  cases target with
  | column target =>
    cases h
    exact ⟨htarget, rfl⟩
  | payload path =>
    dsimp only at h
    split at h
    · cases h
    · cases h
      exact ⟨htarget, rfl⟩

theorem sameShape_of_resolve {item other : SortItem} (h : item.SameShape other)
    {key key' : SortKey} (hkey : resolve item = .ok key) (hother : resolve other = .ok key') :
    key.SameShape key' := by
  obtain ⟨htarget, hdirection⟩ := targetOf_of_resolve hkey
  obtain ⟨htarget', hdirection'⟩ := targetOf_of_resolve hother
  exact ⟨by rw [hdirection, hdirection', h.direction], h.target _ _ htarget htarget'⟩

theorem any_isId_eq {keys others : List SortKey} (h : List.Forall₂ SameShape keys others) :
    (keys.any fun key => key.target = .column .id) =
      others.any fun key => key.target = .column .id := by
  induction h with
  | nil => rfl
  | cons hkey _ ih =>
    rw [List.any_cons, List.any_cons, ih, decide_eq_decide.2 hkey.target.isId]

theorem sameShape_complete {keys others : List SortKey} (h : List.Forall₂ SameShape keys others) :
    List.Forall₂ SameShape (complete keys) (complete others) := by
  have byId : byId.SameShape byId := ⟨rfl, rfl⟩
  have begun : List.Forall₂ SameShape (if keys.isEmpty then [⟨.column .createdAt, .desc⟩] else keys)
      (if others.isEmpty then [⟨.column .createdAt, .desc⟩] else others) := by
    cases h with
    | nil => exact .cons ⟨rfl, rfl⟩ .nil
    | cons hkey hrest => exact .cons hkey hrest
  unfold complete
  generalize (if keys.isEmpty then [⟨.column .createdAt, .desc⟩] else keys) = keys at begun
  generalize (if others.isEmpty then [⟨.column .createdAt, .desc⟩] else others) = others at begun
  dsimp only
  rw [any_isId_eq begun]
  split
  · exact begun
  · exact List.rel_append begun (.cons byId .nil)

/-- Accepted orders of one shape become keys of one shape. -/
theorem sameShape_ofItems {items others : List SortItem}
    (h : List.Forall₂ SortItem.SameShape items others) {keys keys' : List SortKey}
    (hkeys : ofItems items = .ok keys) (hother : ofItems others = .ok keys') :
    List.Forall₂ SameShape keys keys' := by
  obtain ⟨resolved, hresolved, hkeys⟩ := bind_eq_ok.1 hkeys
  obtain ⟨resolved', hresolved', hother⟩ := bind_eq_ok.1 hother
  cases hkeys
  cases hother
  exact sameShape_complete (forall₂_mapM h hresolved hresolved' fun _ _ hitem _ _ =>
    sameShape_of_resolve hitem)

end SortKey

end RecordStore
