import RecordStore.Proofs.Catalog.Cover
import RecordStore.Proofs.Payload.Leaves

/-!
# The entries of an index

The index of a payload has an entry for each position of a leaf, and for each position of an array one
for each way through objects from its elements to leaves (`Value.HasEntry`). Where no key has a point,
positions have paths of their own (`Path.Leads.eq_of_joined_eq`), so that the index has exactly these
entries (`Value.index_exact`).
-/

namespace RecordStore

namespace Value

variable {items : List Value}

/-! ## Types of elements -/

theorem joined_elements (before : List Segment) (names : List String) :
    Path.joined (before ++ .wildcard :: names.map .key) =
      dotted (before.map Segment.text ++ Segment.wildcardText :: names) := by
  have texts : (names.map Segment.key).map Segment.text = names :=
    (List.map_map ..).trans (List.map_id names)
  rw [Path.joined, dotted, List.map_append, List.map_cons, texts]
  rfl

/-- The types that are known of a path after some leaves have been added. -/
theorem contains_addTypes (path : List String → String) (leaves : List (List String × LeafType))
    (known : List (String × TypeSet)) (p : String) (t : LeafType) :
    ((Keyed.get? p (leaves.foldl (fun known leaf => addType known (path leaf.1) leaf.2)
        known)).getD .empty).contains t = true ↔
      ((Keyed.get? p known).getD .empty).contains t = true ∨
        ∃ leaf ∈ leaves, path leaf.1 = p ∧ leaf.2 = t := by
  induction leaves generalizing known with
  | nil => simp
  | cons leaf rest ih =>
    have added : ((Keyed.get? p (addType known (path leaf.1) leaf.2)).getD .empty).contains t =
        true ↔ ((Keyed.get? p known).getD .empty).contains t = true ∨
          path leaf.1 = p ∧ leaf.2 = t := by
      rw [addType, Keyed.get?_insert]
      by_cases hp : p = path leaf.1
      · rw [if_pos hp, Option.getD_some, TypeSet.contains_union, Bool.or_eq_true,
          TypeSet.contains_singleton_iff, ← hp]
        exact or_congr_right (and_iff_right rfl).symm
      · rw [if_neg hp]
        exact (or_iff_left fun h => hp h.1.symm).symm
    rw [List.foldl_cons, ih, added, or_assoc]
    simp

theorem sorted_elementTypes (position : List String) (items : List Value) :
    Keyed.Sorted (elementTypes position items) := by
  unfold elementTypes
  generalize items.flatMap shallowLeaves = leaves
  suffices ∀ known : List (String × TypeSet), Keyed.Sorted known → Keyed.Sorted
      (leaves.foldl (fun known leaf =>
        addType known (dotted (position ++ Segment.wildcardText :: leaf.1)) leaf.2) known) from
    this [] Keyed.sorted_nil
  induction leaves with
  | nil => exact fun _ => id
  | cons leaf rest ih => exact fun _ h => ih _ (h.insert _ _)

/-- The types of a path are those of the leaves that stand behind its names in an element. -/
theorem contains_elementTypes (position : List String) (items : List Value) (p : String)
    (t : LeafType) :
    ((Keyed.get? p (elementTypes position items)).getD .empty).contains t = true ↔
      ∃ names, (Value.array items).HasLeaf (.wildcard :: names.map .key) t ∧
        dotted (position ++ Segment.wildcardText :: names) = p := by
  rw [elementTypes, contains_addTypes fun names =>
    dotted (position ++ Segment.wildcardText :: names)]
  refine (or_iff_right (by cases t <;> exact Bool.false_ne_true)).trans ?_
  constructor
  · rintro ⟨leaf, hleaf, hp, rfl⟩
    obtain ⟨v, hv, hleaf⟩ := List.mem_flatMap.1 hleaf
    exact ⟨leaf.1, hasLeaf_array.2 (.inr ⟨v, _, hv, rfl, (mem_shallowLeaves v _ _).1 hleaf⟩), hp⟩
  · rintro ⟨names, h, hp⟩
    obtain ⟨_, _, _, -, heq, -⟩ | ⟨v, rest, hv, heq, h⟩ := hasLeaf_array.1 h
    · cases heq
    · cases heq
      exact ⟨(names, t), List.mem_flatMap.2 ⟨v, hv, (mem_shallowLeaves v _ _).2 h⟩, hp, rfl⟩

theorem mem_elementTypes {position : List String} {p : String} {types : TypeSet} :
    (p, types) ∈ elementTypes position items ↔ types ≠ .empty ∧ ∀ t, types.contains t = true ↔
      ∃ names, (Value.array items).HasLeaf (.wildcard :: names.map .key) t ∧
        dotted (position ++ Segment.wildcardText :: names) = p := by
  have known := contains_elementTypes position items p
  constructor
  · intro h
    rw [(Keyed.mem_iff_get? (sorted_elementTypes position items)).1 h, Option.getD_some] at known
    exact ⟨ne_empty_of_mem_elementTypes h, known⟩
  · rintro ⟨hne, h⟩
    have same : (Keyed.get? p (elementTypes position items)).getD .empty = types :=
      TypeSet.ext fun t => Bool.eq_iff_iff.2 ((known t).trans (h t).symm)
    cases hp : Keyed.get? p (elementTypes position items) with
    | none =>
      rw [hp] at same
      exact absurd same.symm hne
    | some found =>
      rw [hp] at same
      exact same ▸ Keyed.mem_of_get? hp

end Value

/-! ## Descriptors -/

/-- What descriptors there are of a value, below the segments that lead to it: one for each of its
leaves, and those of the elements of each array inside it. -/
inductive Descriptor.Stands (before : List Segment) (v : Value) : Descriptor → Prop
  | leaf {segments : List Segment} {t : LeafType} : before ++ segments ≠ [] →
    .wildcard ∉ segments → v.HasLeaf segments t →
    Stands before v (.leaf (Path.joined (before ++ segments)) t)
  | elements {segments : List Segment} {items : List Value} {p : String} {types : TypeSet} :
    .wildcard ∉ segments → Path.Leads v segments (.array items) →
    (p, types) ∈ Value.elementTypes ((before ++ segments).map Segment.text) items →
    Stands before v (.compressed p types)

namespace Descriptor

variable {before : List Segment} {v : Value} {fields : Fields} {items : List Value} {d : Descriptor}

/-- What stands below the first segment stands below the whole way. -/
theorem Stands.cons {segment : Segment} {w : Value} (hsegment : segment ≠ .wildcard)
    (hleads : ∀ {rest x}, Path.Leads w rest x → Path.Leads v (segment :: rest) x)
    (h : Stands (before ++ [segment]) w d) : Stands before v d := by
  have no_wildcard : ∀ {segments : List Segment}, .wildcard ∉ segments →
      .wildcard ∉ segment :: segments :=
    fun h hmem => (List.mem_cons.1 hmem).elim (fun heq => hsegment heq.symm) h
  cases h with
  | leaf hne hplain hleaf =>
    obtain ⟨x, hx, ht⟩ := hleaf
    rw [List.append_assoc] at hne ⊢
    exact .leaf hne (no_wildcard hplain) ⟨x, hleads hx, ht⟩
  | elements hplain harray hmem =>
    rw [List.append_assoc] at hmem
    exact .elements (no_wildcard hplain) (hleads harray) hmem

theorem stands_leaf (h : v.IsLeaf) :
    Stands before v d ↔ before ≠ [] ∧ ∃ t, LeafType.ofLeaf? v = some t ∧
      d = .leaf (Path.joined before) t := by
  constructor
  · intro hd
    cases hd with
    | leaf hne hplain hleaf =>
      obtain ⟨rfl, ht⟩ := (Value.hasLeaf_leaf h).1 hleaf
      rw [List.append_nil] at hne ⊢
      exact ⟨hne, _, ht, rfl⟩
    | elements _ harray _ =>
      cases harray with
      | here => cases h.1
      | key => cases h.2
      | index => cases h.1
      | wildcard => cases h.1
  · rintro ⟨hne, t, ht, rfl⟩
    have leaf : Stands before v (.leaf (Path.joined (before ++ [])) t) :=
      .leaf (by rwa [List.append_nil]) List.not_mem_nil ((Value.hasLeaf_leaf h).2 ⟨rfl, ht⟩)
    rwa [List.append_nil] at leaf

theorem stands_object : Stands before (.object fields) d ↔
    ∃ name w, (name, w) ∈ fields ∧ Stands (before ++ [.key name]) w d := by
  constructor
  · intro hd
    cases hd with
    | leaf hne hplain hleaf =>
      obtain ⟨name, w, rest, hfield, rfl, hinside⟩ := Value.hasLeaf_object.1 hleaf
      refine ⟨name, w, hfield, ?_⟩
      rw [List.append_cons before _ rest] at hne ⊢
      exact .leaf hne (mt (List.mem_cons_of_mem _) hplain) hinside
    | elements hplain harray hmem =>
      cases harray with
      | @key _ name w _ _ hfield harray =>
        refine ⟨name, w, hfield, ?_⟩
        rw [List.append_cons] at hmem
        exact .elements (mt (List.mem_cons_of_mem _) hplain) harray hmem
  · rintro ⟨name, w, hfield, hd⟩
    exact hd.cons (by simp) fun hleads => .key hfield hleads

theorem stands_array : Stands before (.array items) d ↔
    (∃ i w, items[i]? = some w ∧ Stands (before ++ [.index i]) w d) ∨
      d ∈ Value.compressedDescriptors (before.map Segment.text) items := by
  constructor
  · intro hd
    cases hd with
    | leaf hne hplain hleaf =>
      obtain ⟨i, w, rest, hitem, rfl, hinside⟩ | ⟨_, _, -, rfl, -⟩ := Value.hasLeaf_array.1 hleaf
      · refine .inl ⟨i, w, hitem, ?_⟩
        rw [List.append_cons before _ rest] at hne ⊢
        exact .leaf hne (mt (List.mem_cons_of_mem _) hplain) hinside
      · exact absurd List.mem_cons_self hplain
    | elements hplain harray hmem =>
      cases harray with
      | here =>
        rw [List.append_nil] at hmem
        exact .inr (List.mem_map.2 ⟨_, hmem, rfl⟩)
      | @index _ i w _ _ hitem harray =>
        refine .inl ⟨i, w, hitem, ?_⟩
        rw [List.append_cons] at hmem
        exact .elements (mt (List.mem_cons_of_mem _) hplain) harray hmem
      | wildcard => exact absurd List.mem_cons_self hplain
  · rintro (⟨i, w, hitem, hd⟩ | hd)
    · exact hd.cons (by simp) fun hleads => .index hitem hleads
    · obtain ⟨entry, hentry, rfl⟩ := List.mem_map.1 hd
      have hmem : entry ∈ Value.elementTypes ((before ++ []).map Segment.text) items := by
        rwa [List.append_nil]
      exact .elements List.not_mem_nil (.here _) hmem

end Descriptor

namespace Value

open Descriptor (Stands)

theorem mem_descriptorsAt_leaf {before : List Segment} {v : Value} (h : v.IsLeaf) {d : Descriptor} :
    (d ∈ if (before.map Segment.text).isEmpty then [] else
      (LeafType.ofLeaf? v).toList.map fun t => .leaf (dotted (before.map Segment.text)) t) ↔
      Stands before v d := by
  rw [Descriptor.stands_leaf h]
  by_cases hne : before = []
  · simp [hne]
  · rw [if_neg (by simpa using hne), List.mem_map, and_iff_right hne]
    simp [eq_comm, Path.joined, dotted]

mutual

/-- The descriptors of a value are those that stand there. -/
theorem mem_descriptorsAt : ∀ (before : List Segment) (v : Value) (d : Descriptor),
    d ∈ descriptorsAt (before.map Segment.text) v ↔ Stands before v d
  | before, .object fields, d => by
    rw [Descriptor.stands_object]
    exact mem_descriptorsOfFields before fields d
  | before, .array items, d => by
    rw [Descriptor.stands_array, descriptorsAt, List.mem_append, mem_descriptorsOfItems]
    simp only [Nat.zero_add]
  | _, .null, _ | _, .bool _, _ | _, .number _, _ | _, .string _, _ =>
    mem_descriptorsAt_leaf ⟨rfl, rfl⟩
termination_by structural _ v => v

theorem mem_descriptorsOfFields : ∀ (before : List Segment) (fields : Fields) (d : Descriptor),
    d ∈ descriptorsOfFields (before.map Segment.text) fields ↔
      ∃ name w, (name, w) ∈ fields ∧ Stands (before ++ [.key name]) w d
  | _, [], _ => by simp [descriptorsOfFields]
  | before, (name, w) :: rest, d => by
    have position : before.map Segment.text ++ [name] =
        (before ++ [Segment.key name]).map Segment.text := by rw [List.map_append]; rfl
    rw [descriptorsOfFields, position, List.mem_append, mem_descriptorsAt, mem_descriptorsOfFields]
    constructor
    · rintro (h | ⟨other, v, hfield, h⟩)
      · exact ⟨name, w, List.mem_cons_self, h⟩
      · exact ⟨other, v, List.mem_cons_of_mem _ hfield, h⟩
    · rintro ⟨other, v, hfield, h⟩
      rcases List.mem_cons.1 hfield with heq | hfield
      · cases heq
        exact .inl h
      · exact .inr ⟨other, v, hfield, h⟩
termination_by structural _ fields => fields

theorem mem_descriptorsOfItems : ∀ (before : List Segment) (i : Nat) (items : List Value)
    (d : Descriptor), d ∈ descriptorsOfItems (before.map Segment.text) i items ↔
      ∃ j w, items[j]? = some w ∧ Stands (before ++ [.index (i + j)]) w d
  | _, _, [], _ => by simp [descriptorsOfItems]
  | before, i, w :: rest, d => by
    have position : before.map Segment.text ++ [Segment.indexText i] =
        (before ++ [Segment.index i]).map Segment.text := by rw [List.map_append]; rfl
    rw [descriptorsOfItems, position, List.mem_append, mem_descriptorsAt, mem_descriptorsOfItems]
    constructor
    · rintro (h | ⟨j, v, hitem, h⟩)
      · exact ⟨0, w, rfl, h⟩
      · refine ⟨j + 1, v, hitem, ?_⟩
        rwa [Nat.add_right_comm] at h
    · rintro ⟨j, v, hitem, h⟩
      cases j with
      | zero =>
        cases hitem
        exact .inl h
      | succ j =>
        refine .inr ⟨j, v, hitem, ?_⟩
        rwa [Nat.add_right_comm]
termination_by structural _ _ items => items

end

/-- A descriptor that stands in a value is about a leaf there. -/
theorem describes_of_stands {before : List Segment} {v : Value} {d : Descriptor}
    (h : Stands before v d) : d.Describes before v := by
  cases h with
  | @leaf segments t hne hplain hleaf =>
    obtain ⟨x, hx, ht⟩ := hleaf
    exact ⟨segments, x, hx, isLeaf_of_ofLeaf? ht, hne, rfl, hplain⟩
  | @elements segments items path types hplain harray hmem =>
    obtain ⟨hne, htypes⟩ := mem_elementTypes.1 hmem
    obtain ⟨t, ht⟩ := TypeSet.exists_contains_of_ne_empty hne
    obtain ⟨names, hleaf, hpath⟩ := (htypes t).1 ht
    obtain ⟨x, hx, ht⟩ := hasLeaf_append.2 ⟨_, harray, hleaf⟩
    refine ⟨_, x, hx, isLeaf_of_ofLeaf? ht, by simp, ?_, segments, _, rfl, hplain,
      Segment.areKeys_map_key names⟩
    rw [← List.append_assoc, joined_elements]
    exact hpath.symm

/-- Every descriptor of an index stands under its path and is about a leaf of the payload. -/
theorem describes_index {payload : Value} {entry : String × Descriptor}
    (h : entry ∈ payload.index) :
    entry.2.path = entry.1 ∧ entry.2.Describes [] payload := by
  obtain ⟨d, hd, rfl⟩ := List.mem_map.1 (Keyed.mem_of_mem_ofList h)
  exact ⟨rfl, describes_of_stands ((mem_descriptorsAt [] payload d).1 hd)⟩

end Value

/-! ## Entries -/

/-- The entries that the index of a payload has: one for each position of a leaf, and for each position
of an array one for each way through objects from its elements to leaves, with the types of all leaves
to which this way leads. -/
inductive Value.HasEntry (payload : Value) : String → Descriptor → Prop
  | leaf {segments : List Segment} {t : LeafType} : segments ≠ [] → .wildcard ∉ segments →
    payload.HasLeaf segments t →
    HasEntry payload (Path.joined segments) (.leaf (Path.joined segments) t)
  | elements {before : List Segment} {names : List String} {types : TypeSet} :
    .wildcard ∉ before → types ≠ .empty →
    (∀ t, types.contains t = true ↔ payload.HasLeaf (before ++ .wildcard :: names.map .key) t) →
    HasEntry payload (Path.joined (before ++ .wildcard :: names.map .key))
      (.compressed (Path.joined (before ++ .wildcard :: names.map .key)) types)

namespace Value

variable {payload : Value} {p : String} {d : Descriptor}

/-- An entry is at the position of a leaf, whose path tells it. -/
theorem HasEntry.exists_position (h : payload.HasEntry p d) :
    ∃ segments t, segments ≠ [] ∧ Segment.ArePosition segments ∧ payload.HasLeaf segments t ∧
      Path.joined segments = p ∧
      if .wildcard ∈ segments then
        ∃ types, d = .compressed p types ∧ ∀ t, types.contains t = true ↔ payload.HasLeaf segments t
      else d = .leaf p t := by
  cases h with
  | @leaf segments t hne hplain hleaf =>
    exact ⟨segments, t, hne, Segment.arePosition_of_plain hplain, hleaf, rfl, by rw [if_neg hplain]⟩
  | @elements before names types hplain hne htypes =>
    obtain ⟨t, ht⟩ := TypeSet.exists_contains_of_ne_empty hne
    refine ⟨_, t, by simp, Segment.arePosition_elements hplain names, (htypes t).1 ht, rfl, ?_⟩
    rw [if_pos (by simp)]
    exact ⟨types, rfl, htypes⟩

section

variable (hcanonical : payload.Canonical) (hkeys : payload.EveryKey fun name => '.' ∉ name.toList)

include hcanonical hkeys

/-- Positions of leaves have paths of their own. -/
theorem eq_of_hasLeaf {segments others : List Segment} {t u : LeafType}
    (h : payload.HasLeaf segments t) (h' : payload.HasLeaf others u)
    (hne : segments ≠ []) (hne' : others ≠ []) (hsegments : Segment.ArePosition segments)
    (hothers : Segment.ArePosition others) (hjoined : Path.joined segments = Path.joined others) :
    segments = others := by
  obtain ⟨x, hx, -⟩ := h
  obtain ⟨y, hy, -⟩ := h'
  exact hx.eq_of_joined_eq hcanonical hkeys hy hne hne' hsegments hothers hjoined

/-- The leaves of elements that share a path are those to which the same names lead. -/
theorem hasLeaf_elements_iff {before : List Segment} {items : List Value} {names : List String}
    (hplain : .wildcard ∉ before)
    (harray : Path.Leads payload before (.array items))
    (hsome : ∃ t, (Value.array items).HasLeaf (.wildcard :: names.map .key) t) (t : LeafType) :
    payload.HasLeaf (before ++ .wildcard :: names.map .key) t ↔
      ∃ others, (Value.array items).HasLeaf (.wildcard :: others.map .key) t ∧
        dotted (before.map Segment.text ++ Segment.wildcardText :: others) =
          Path.joined (before ++ .wildcard :: names.map .key) := by
  constructor
  · intro h
    obtain ⟨w, hw, h⟩ := hasLeaf_append.1 h
    cases harray.unique hcanonical hplain hw
    exact ⟨names, h, (joined_elements before names).symm⟩
  · rintro ⟨others, h, hpath⟩
    obtain ⟨u, hu⟩ := hsome
    have inside : payload.HasLeaf (before ++ .wildcard :: others.map .key) t :=
      hasLeaf_append.2 ⟨_, harray, h⟩
    have same := eq_of_hasLeaf hcanonical hkeys inside (hasLeaf_append.2 ⟨_, harray, hu⟩) (by simp)
      (by simp) (Segment.arePosition_elements hplain others)
      (Segment.arePosition_elements hplain names) ((joined_elements before others).trans hpath)
    exact same ▸ inside

/-- An entry is one of a descriptor that stands in the payload. -/
theorem hasEntry_iff_stands :
    payload.HasEntry p d ↔ Descriptor.Stands [] payload d ∧ d.path = p := by
  constructor
  · intro h
    cases h with
    | @leaf segments t hne hplain hleaf =>
      have stands : Descriptor.Stands [] payload (.leaf (Path.joined ([] ++ segments)) t) :=
        .leaf hne hplain hleaf
      exact ⟨stands, rfl⟩
    | @elements before names types hplain hne htypes =>
      obtain ⟨t, ht⟩ := TypeSet.exists_contains_of_ne_empty hne
      obtain ⟨w, hw, hleaf⟩ := hasLeaf_append.1 ((htypes t).1 ht)
      obtain ⟨items, rfl⟩ : ∃ items, w = .array items := by
        obtain ⟨x, hx, -⟩ := hleaf
        cases hx
        exact ⟨_, rfl⟩
      refine ⟨.elements hplain hw (mem_elementTypes.2 ⟨hne, fun t => (htypes t).trans ?_⟩), rfl⟩
      exact hasLeaf_elements_iff hcanonical hkeys hplain hw ⟨_, hleaf⟩ t
  · rintro ⟨h, rfl⟩
    cases h with
    | leaf hne hplain hleaf => exact .leaf hne hplain hleaf
    | @elements before items path types hplain hw hmem =>
      obtain ⟨hne, htypes⟩ := mem_elementTypes.1 hmem
      obtain ⟨t, ht⟩ := TypeSet.exists_contains_of_ne_empty hne
      obtain ⟨names, hleaf, hpath⟩ := (htypes t).1 ht
      obtain rfl : Path.joined (before ++ .wildcard :: names.map .key) = path :=
        (joined_elements before names).trans hpath
      refine .elements hplain hne fun t => (htypes t).trans ?_
      exact (hasLeaf_elements_iff hcanonical hkeys hplain hw ⟨_, hleaf⟩ t).symm

/-- No two entries have the same path. -/
theorem HasEntry.eq {e : Descriptor} (h : payload.HasEntry p d) (h' : payload.HasEntry p e) :
    d = e := by
  obtain ⟨segments, t, hne, hposition, hleaf, hp, hd⟩ := h.exists_position
  obtain ⟨others, u, hne', hposition', hleaf', hp', he⟩ := h'.exists_position
  obtain rfl := eq_of_hasLeaf hcanonical hkeys hleaf hleaf' hne hne' hposition hposition'
    (hp.trans hp'.symm)
  by_cases hwildcard : .wildcard ∈ segments
  · rw [if_pos hwildcard] at hd he
    obtain ⟨types, rfl, htypes⟩ := hd
    obtain ⟨types', rfl, htypes'⟩ := he
    rw [TypeSet.ext fun t => Bool.eq_iff_iff.2 ((htypes t).trans (htypes' t).symm)]
  · rw [if_neg hwildcard] at hd he
    obtain ⟨x, hx, ht⟩ := hleaf
    obtain ⟨y, hy, hu⟩ := hleaf'
    cases hx.unique hcanonical hwildcard hy
    rw [hd, he, Option.some.inj (ht.symm.trans hu)]

end

/-- If no key of a payload has a point, the index has exactly one entry for each position of a leaf
but the root, and for each position of an array one for each way through objects that leads from some
of its elements to a leaf, with the types of all such leaves. Different positions have different
paths. -/
theorem index_exact (hcanonical : payload.Canonical)
    (hkeys : payload.EveryKey fun name => '.' ∉ name.toList) :
    (∀ p d, (p, d) ∈ payload.index ↔ payload.HasEntry p d) ∧
    (∀ before (names : List String) t, .wildcard ∉ before →
      payload.HasLeaf (before ++ .wildcard :: names.map .key) t →
      ∃ types, types.contains t = true ∧
        (Path.joined (before ++ .wildcard :: names.map .key),
          .compressed (Path.joined (before ++ .wildcard :: names.map .key)) types) ∈ payload.index) ∧
    ∀ segments others t u, payload.HasLeaf segments t → payload.HasLeaf others u →
      segments ≠ [] → others ≠ [] → Segment.ArePosition segments → Segment.ArePosition others →
      Path.joined segments = Path.joined others → segments = others := by
  have stands : ∀ p d, payload.HasEntry p d ↔ Descriptor.Stands [] payload d ∧ d.path = p :=
    fun p d => hasEntry_iff_stands hcanonical hkeys
  have entries : ∀ p d, (p, d) ∈ payload.index ↔ payload.HasEntry p d := by
    intro p d
    have listed : ∀ p d, (p, d) ∈ (descriptorsAt [] payload).map (fun d => (d.path, d)) ↔
        payload.HasEntry p d := by
      intro p d
      rw [stands, ← mem_descriptorsAt [] payload d, List.mem_map]
      constructor
      · rintro ⟨e, he, heq⟩
        cases heq
        exact ⟨he, rfl⟩
      · rintro ⟨hd, rfl⟩
        exact ⟨d, hd, rfl⟩
    rw [index, Keyed.mem_ofList_iff, listed]
    intro a ha b hb hab
    exact HasEntry.eq hcanonical hkeys ((listed a.1 a.2).1 ha) (hab ▸ (listed b.1 b.2).1 hb)
  refine ⟨entries, fun before names t hplain h => ?_,
    fun segments others t u h h' => eq_of_hasLeaf hcanonical hkeys h h'⟩
  obtain ⟨types, htypes⟩ := TypeSet.exists_contains_iff fun t =>
    payload.HasLeaf (before ++ .wildcard :: names.map .key) t
  have contains := (htypes t).2 h
  exact ⟨types, contains, (entries _ _).2
    (.elements hplain (TypeSet.ne_empty_of_contains contains) htypes)⟩

/-- An array of which two elements have leaves, one an array with a leaf, and one nothing. Keys may be
empty, or look like a wildcard. -/
theorem index_exact_nested :
    let payload : Value := .object [("", .array [.object [("b", .int 1)], .string "x",
      .array [.bool true], .object []]), ("[*]", .object [("b", .null)]), ("c", .array [])]
    payload.index.map Prod.fst = [".0.b", ".1", ".2.0", ".2.[*]", ".[*]", ".[*].b", "[*].b"] ∧
      payload.HasEntry ".[*].b" (.compressed ".[*].b" (.singleton .number)) ∧
      payload.HasEntry ".2.[*]" (.compressed ".2.[*]" (.singleton .boolean)) ∧
      payload.HasEntry "[*].b" (.leaf "[*].b" .null) ∧ ∀ d, ¬ payload.HasEntry ".[*].0" d := by
  intro payload
  have hcanonical : payload.Canonical := by
    have sorted : (["", "[*]", "c"] : List String).Pairwise (· < ·) := by decide
    refine ⟨sorted, ?_⟩
    simp [Value.Canonical, Value.CanonicalItems, Value.CanonicalFields, Keyed.Sorted, Keyed.keys,
      Value.int]
  have hkeys : payload.EveryKey fun name => '.' ∉ name.toList := by
    simp [payload, EveryKey, Every, EveryItem, EveryField, Value.int, or_imp, forall_and]
  have exact : ∀ p d, (p, d) ∈ payload.index ↔ payload.HasEntry p d :=
    (index_exact hcanonical hkeys).1
  have paths : payload.index.map Prod.fst =
      [".0.b", ".1", ".2.0", ".2.[*]", ".[*]", ".[*].b", "[*].b"] := by decide +kernel
  refine ⟨paths, (exact _ _).1 (by decide +kernel), (exact _ _).1 (by decide +kernel),
    (exact _ _).1 (by decide +kernel), fun d h => ?_⟩
  have listed : ".[*].0" ∈ payload.index.map Prod.fst := List.mem_map_of_mem ((exact _ _).2 h)
  rw [paths] at listed
  exact absurd listed (by decide)

end Value

end RecordStore
