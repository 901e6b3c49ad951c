import RecordStore.PayloadIndex
import RecordStore.Proofs.Keyed
import RecordStore.Proofs.Payload.Merge
import RecordStore.Proofs.Path.Text
import RecordStore.Proofs.Value.Every

/-!
# Leaves and their positions

Segments lead from a value to the values inside it (`Path.Leads`), a wildcard to any element of an
array. Where no key has a point, the positions that descriptors are about are told by their paths
(`Path.Leads.eq_of_joined_eq`).
-/

namespace RecordStore

/-- Segments lead from a value to another one inside it. -/
inductive Path.Leads : Value → List Segment → Value → Prop
  | here (v : Value) : Leads v [] v
  | key {fields : Fields} {name : String} {w x : Value} {rest : List Segment} :
    (name, w) ∈ fields → Leads w rest x → Leads (.object fields) (.key name :: rest) x
  | index {items : List Value} {i : Nat} {w x : Value} {rest : List Segment} :
    items[i]? = some w → Leads w rest x → Leads (.array items) (.index i :: rest) x
  | wildcard {items : List Value} {w x : Value} {rest : List Segment} :
    w ∈ items → Leads w rest x → Leads (.array items) (.wildcard :: rest) x

namespace Path

variable {v x : Value} {segments : List Segment}

/-- The first segment leads to a value, and the others lead on from there. -/
theorem leads_cons_iff {segment : Segment} :
    Leads v (segment :: segments) x ↔ ∃ w, Leads v [segment] w ∧ Leads w segments x := by
  constructor
  · intro h
    cases h with
    | @key _ _ w _ _ hfield h => exact ⟨w, .key hfield (.here w), h⟩
    | @index _ _ w _ _ hitem h => exact ⟨w, .index hitem (.here w), h⟩
    | @wildcard _ w _ _ hitem h => exact ⟨w, .wildcard hitem (.here w), h⟩
  · rintro ⟨w, hw, h⟩
    cases hw with
    | key hfield hw =>
      cases hw
      exact .key hfield h
    | index hitem hw =>
      cases hw
      exact .index hitem h
    | wildcard hitem hw =>
      cases hw
      exact .wildcard hitem h

theorem Leads.every {p : Value → Prop} (h : Leads v segments x) (hv : v.Every p) : x.Every p := by
  induction h with
  | here v => exact hv
  | key hfield _ ih => exact ih (hv.field hfield)
  | index hitem _ ih => exact ih (hv.item (List.mem_of_getElem? hitem))
  | wildcard hitem _ ih => exact ih (hv.item hitem)

theorem Leads.canonical (h : Leads v segments x) (hv : v.Canonical) : x.Canonical := by
  induction h with
  | here v => exact hv
  | key hfield _ ih => exact ih (hv.field hfield)
  | index hitem _ ih => exact ih (hv.item (List.mem_of_getElem? hitem))
  | wildcard hitem _ ih => exact ih (hv.item hitem)

end Path

/-! ## Leaves -/

/-- Neither an array nor an object. -/
def Value.IsLeaf (v : Value) : Prop := v.isArray = false ∧ v.isObject = false

/-- Which segments a descriptor is about: without wildcards if it is plain, and with only keys after
the one wildcard if it is compressed. -/
def Descriptor.IsAbout (d : Descriptor) (segments : List Segment) : Prop :=
  if d.isCompressed then
    ∃ before after, segments = before ++ .wildcard :: after ∧ .wildcard ∉ before ∧
      Segment.AreKeys after
  else .wildcard ∉ segments

/-- A descriptor is about a leaf inside a value, below the segments that lead to the value. -/
def Descriptor.Describes (d : Descriptor) (before : List Segment) (v : Value) : Prop :=
  ∃ segments x, Path.Leads v segments x ∧ x.IsLeaf ∧ before ++ segments ≠ [] ∧
    d.path = Path.joined (before ++ segments) ∧ d.IsAbout segments

/-- Segments lead to a leaf of a type. -/
def Value.HasLeaf (v : Value) (segments : List Segment) (t : LeafType) : Prop :=
  ∃ x, Path.Leads v segments x ∧ LeafType.ofLeaf? x = some t

namespace Value

variable {v : Value} {fields : Fields} {items : List Value} {segments before : List Segment}
  {t : LeafType}

theorem hasLeaf_object : (Value.object fields).HasLeaf segments t ↔
    ∃ name w rest, (name, w) ∈ fields ∧ segments = .key name :: rest ∧ w.HasLeaf rest t := by
  constructor
  · rintro ⟨x, h, hx⟩
    cases h with
    | here => cases hx
    | key hfield h => exact ⟨_, _, _, hfield, rfl, x, h, hx⟩
  · rintro ⟨name, w, rest, hfield, rfl, x, h, hx⟩
    exact ⟨x, .key hfield h, hx⟩

theorem hasLeaf_array : (Value.array items).HasLeaf segments t ↔
    (∃ i w rest, items[i]? = some w ∧ segments = .index i :: rest ∧ w.HasLeaf rest t) ∨
      ∃ w rest, w ∈ items ∧ segments = .wildcard :: rest ∧ w.HasLeaf rest t := by
  constructor
  · rintro ⟨x, h, hx⟩
    cases h with
    | here => cases hx
    | index hitem h => exact .inl ⟨_, _, _, hitem, rfl, x, h, hx⟩
    | wildcard hitem h => exact .inr ⟨_, _, hitem, rfl, x, h, hx⟩
  · rintro (⟨i, w, rest, hitem, rfl, x, h, hx⟩ | ⟨w, rest, hitem, rfl, x, h, hx⟩)
    · exact ⟨x, .index hitem h, hx⟩
    · exact ⟨x, .wildcard hitem h, hx⟩

theorem hasLeaf_leaf (h : v.IsLeaf) :
    v.HasLeaf segments t ↔ segments = [] ∧ LeafType.ofLeaf? v = some t := by
  constructor
  · rintro ⟨x, hleads, hx⟩
    cases hleads with
    | here => exact ⟨rfl, hx⟩
    | key => cases h.2
    | index => cases h.1
    | wildcard => cases h.1
  · rintro ⟨rfl, ht⟩
    exact ⟨v, .here v, ht⟩

theorem isLeaf_of_ofLeaf? (h : LeafType.ofLeaf? v = some t) : v.IsLeaf := by
  cases v with
  | array items => cases h
  | object fields => cases h
  | _ => exact ⟨rfl, rfl⟩

theorem hasLeaf_append {rest : List Segment} :
    v.HasLeaf (segments ++ rest) t ↔ ∃ w, Path.Leads v segments w ∧ w.HasLeaf rest t := by
  induction segments generalizing v with
  | nil =>
    refine ⟨fun h => ⟨v, .here v, h⟩, ?_⟩
    rintro ⟨w, hw, h⟩
    cases hw
    exact h
  | cons segment others ih =>
    have first : ∀ {s : List Segment}, v.HasLeaf (segment :: s) t ↔
        ∃ w, Path.Leads v [segment] w ∧ w.HasLeaf s t := by
      intro s
      constructor
      · rintro ⟨x, h, hx⟩
        obtain ⟨w, hw, h⟩ := Path.leads_cons_iff.1 h
        exact ⟨w, hw, x, h, hx⟩
      · rintro ⟨w, hw, x, h, hx⟩
        exact ⟨x, Path.leads_cons_iff.2 ⟨w, hw, h⟩, hx⟩
    rw [List.cons_append, first]
    constructor
    · rintro ⟨u, hu, h⟩
      obtain ⟨w, hw, h⟩ := ih.1 h
      exact ⟨w, Path.leads_cons_iff.2 ⟨u, hu, hw⟩, h⟩
    · rintro ⟨w, hw, h⟩
      obtain ⟨u, hu, hw⟩ := Path.leads_cons_iff.1 hw
      exact ⟨u, hu, ih.2 ⟨w, hw, h⟩⟩

/-! ## Leaves of elements -/

theorem mem_shallowLeaves_leaf (h : v.IsLeaf) {names : List String} :
    (names, t) ∈ (LeafType.ofLeaf? v).toList.map (fun t => (([] : List String), t)) ↔
      v.HasLeaf (names.map .key) t := by
  rw [hasLeaf_leaf h, List.map_eq_nil_iff]
  cases LeafType.ofLeaf? v <;> simp [eq_comm, and_comm]

mutual

/-- The leaves that are reached through objects alone are those to which keys lead. -/
theorem mem_shallowLeaves : ∀ (v : Value) (names : List String) (t : LeafType),
    (names, t) ∈ shallowLeaves v ↔ v.HasLeaf (names.map .key) t
  | .object fields, names, t => by
    rw [shallowLeaves, mem_shallowLeavesOfFields, hasLeaf_object]
    constructor
    · rintro ⟨name, w, rest, hfield, rfl, h⟩
      exact ⟨name, w, rest.map .key, hfield, rfl, h⟩
    · rintro ⟨name, w, rest, hfield, hnames, h⟩
      obtain ⟨name, names, rfl, hname, rfl⟩ := List.map_eq_cons_iff.1 hnames
      cases hname
      exact ⟨name, w, names, hfield, rfl, h⟩
  | .array items, names, t => by
    rw [hasLeaf_array]
    refine iff_of_false List.not_mem_nil ?_
    rintro (⟨_, _, _, -, hnames, -⟩ | ⟨_, _, -, hnames, -⟩) <;> cases names <;> cases hnames
  | .null, _, _ | .bool _, _, _ | .number _, _, _ | .string _, _, _ =>
    mem_shallowLeaves_leaf ⟨rfl, rfl⟩
termination_by structural v => v

theorem mem_shallowLeavesOfFields : ∀ (fields : Fields) (names : List String) (t : LeafType),
    (names, t) ∈ shallowLeavesOfFields fields ↔
      ∃ name w rest, (name, w) ∈ fields ∧ names = name :: rest ∧ w.HasLeaf (rest.map .key) t
  | [], _, _ => by simp [shallowLeavesOfFields]
  | (name, w) :: rest, names, t => by
    rw [shallowLeavesOfFields, List.mem_append, mem_shallowLeavesOfFields, List.mem_map]
    constructor
    · rintro (⟨⟨inner, u⟩, hinner, heq⟩ | ⟨other, x, inner, hfield, h⟩)
      · cases heq
        exact ⟨name, w, inner, List.mem_cons_self, rfl, (mem_shallowLeaves w inner u).1 hinner⟩
      · exact ⟨other, x, inner, List.mem_cons_of_mem _ hfield, h⟩
    · rintro ⟨other, x, inner, hfield, rfl, h⟩
      rcases List.mem_cons.1 hfield with heq | hfield
      · cases heq
        exact .inl ⟨(inner, t), (mem_shallowLeaves w inner t).2 h, rfl⟩
      · exact .inr ⟨other, x, inner, hfield, rfl, h⟩
termination_by structural fields => fields

end

end Value

/-! ## Positions -/

/-- Whether segments are those of a plain or of a compressed path: after a wildcard there are only
keys. -/
def Segment.ArePosition : List Segment → Prop
  | [] => True
  | .wildcard :: rest => AreKeys rest
  | _ :: rest => ArePosition rest

namespace Segment

theorem arePosition_append {before rest : List Segment} (h : .wildcard ∉ before)
    (hrest : ArePosition rest) : ArePosition (before ++ rest) := by
  induction before with
  | nil => exact hrest
  | cons segment before ih =>
    have others := ih (mt (List.mem_cons_of_mem _) h)
    cases segment with
    | wildcard => exact absurd List.mem_cons_self h
    | key => exact others
    | index => exact others

theorem arePosition_of_plain {segments : List Segment} (h : .wildcard ∉ segments) :
    ArePosition segments :=
  List.append_nil segments ▸ arePosition_append h trivial

theorem areKeys_map_key (names : List String) : AreKeys (names.map .key) := by
  intro segment hsegment
  obtain ⟨name, -, rfl⟩ := List.mem_map.1 hsegment
  exact ⟨name, rfl⟩

theorem arePosition_elements {before : List Segment} (h : .wildcard ∉ before)
    (names : List String) : ArePosition (before ++ .wildcard :: names.map .key) :=
  arePosition_append h (areKeys_map_key names)

theorem AreKeys.eq_of_texts {segments others : List Segment} (h : AreKeys segments)
    (hothers : AreKeys others) (htexts : segments.map text = others.map text) :
    segments = others := by
  induction segments generalizing others with
  | nil => exact (List.map_eq_nil_iff.1 htexts.symm).symm
  | cons segment rest ih =>
    obtain ⟨other, others, rfl, hother, hrest⟩ := List.map_eq_cons_iff.1 htexts.symm
    obtain ⟨⟨name, rfl⟩, hkeys⟩ := h.of_cons
    obtain ⟨⟨name', rfl⟩, hkeys'⟩ := hothers.of_cons
    rw [ih hkeys hkeys' hrest.symm]
    exact congrArg (fun name => .key name :: others) hother.symm

end Segment

namespace Path.Leads

variable {v x y : Value} {segments others : List Segment}

theorem key_of_mem (h : Leads v segments x) {q : String → Prop} (hkeys : v.EveryKey q)
    {name : String} (hname : .key name ∈ segments) : q name := by
  induction h with
  | here => exact absurd hname List.not_mem_nil
  | key hfield _ ih =>
    rcases List.mem_cons.1 hname with heq | hname
    · cases heq
      exact hkeys.key hfield
    · exact ih (hkeys.field hfield) hname
  | index hitem _ ih =>
    exact ih (hkeys.item (List.mem_of_getElem? hitem))
      ((List.mem_cons.1 hname).resolve_left Segment.noConfusion)
  | wildcard hitem _ ih =>
    exact ih (hkeys.item hitem) ((List.mem_cons.1 hname).resolve_left Segment.noConfusion)

theorem index_lt_of_mem (h : Leads v segments x) {n : Nat} (harrays : v.ArraysWithin n) {i : Nat}
    (hi : .index i ∈ segments) : i < n := by
  induction h with
  | here => exact absurd hi List.not_mem_nil
  | key hfield _ ih =>
    exact ih (harrays.field hfield) ((List.mem_cons.1 hi).resolve_left Segment.noConfusion)
  | @index items _ _ _ _ hitem _ ih =>
    rcases List.mem_cons.1 hi with heq | hi
    · cases heq
      exact Nat.lt_of_lt_of_le (List.getElem?_eq_some_iff.1 hitem).1 (harrays.self items rfl)
    · exact ih (harrays.item (List.mem_of_getElem? hitem)) hi
  | wildcard hitem _ ih =>
    exact ih (harrays.item hitem) ((List.mem_cons.1 hi).resolve_left Segment.noConfusion)

theorem no_dot (h : Leads v segments x) (hkeys : v.EveryKey fun name => '.' ∉ name.toList) :
    ∀ s ∈ segments.map Segment.text, '.' ∉ s.toList := by
  intro s hs
  obtain ⟨segment, hsegment, rfl⟩ := List.mem_map.1 hs
  cases segment with
  | key name => exact h.key_of_mem hkeys hsegment
  | index i => exact Segment.not_mem_indexText rfl i
  | wildcard => decide

/-- Without wildcards, segments lead to one value. -/
theorem unique (h : Leads v segments x) (hv : v.Canonical) (hplain : .wildcard ∉ segments)
    (h' : Leads v segments y) : x = y := by
  induction h with
  | here =>
    cases h'
    rfl
  | key hfield _ ih =>
    cases h' with
    | key hfield' h' =>
      have same := (Keyed.mem_iff_get? hv.1).1 hfield
      rw [(Keyed.mem_iff_get? hv.1).1 hfield'] at same
      cases same
      exact ih (hv.field hfield) (mt (List.mem_cons_of_mem _) hplain) h'
  | index hitem _ ih =>
    cases h' with
    | index hitem' h' =>
      rw [hitem] at hitem'
      cases hitem'
      exact ih (hv.item (List.mem_of_getElem? hitem)) (mt (List.mem_cons_of_mem _) hplain) h'
  | wildcard => exact absurd List.mem_cons_self hplain

/-- Positions in a value are told by the texts of their segments: whether a text is a key or an index
is told by the value that it leads on from. -/
theorem eq_of_texts (h : Leads v segments x) (hv : v.Canonical) (h' : Leads v others y)
    (hsegments : Segment.ArePosition segments) (hothers : Segment.ArePosition others)
    (htexts : segments.map Segment.text = others.map Segment.text) : segments = others := by
  induction h generalizing others with
  | here => exact (List.map_eq_nil_iff.1 htexts.symm).symm
  | @key fields name w _ rest hfield _ ih =>
    cases h' with
    | here => cases htexts
    | @key _ name' w' _ rest' hfield' h' =>
      obtain ⟨rfl, hrest⟩ : name = name' ∧ rest.map Segment.text = rest'.map Segment.text :=
        List.cons.inj htexts
      have same := (Keyed.mem_iff_get? hv.1).1 hfield
      rw [(Keyed.mem_iff_get? hv.1).1 hfield'] at same
      cases same
      rw [ih (hv.field hfield) h' hsegments hothers hrest]
  | @index items i w _ rest hitem _ ih =>
    cases h' with
    | here => cases htexts
    | @index _ j w' _ rest' hitem' h' =>
      obtain ⟨htext, hrest⟩ := List.cons.inj htexts
      cases Segment.indexText_inj htext
      rw [hitem] at hitem'
      cases hitem'
      rw [ih (hv.item (List.mem_of_getElem? hitem)) h' hsegments hothers hrest]
    | wildcard => exact absurd (List.cons.inj htexts).1 (Segment.indexText_ne_wildcardText i)
  | wildcard _ _ _ =>
    cases h' with
    | here => cases htexts
    | @index _ j => exact absurd (List.cons.inj htexts).1.symm (Segment.indexText_ne_wildcardText j)
    | wildcard =>
      rw [Segment.AreKeys.eq_of_texts hsegments hothers (List.cons.inj htexts).2]

/-- Where no key has a point, positions have paths of their own. -/
theorem eq_of_joined_eq (h : Leads v segments x) (hv : v.Canonical)
    (hkeys : v.EveryKey fun name => '.' ∉ name.toList) (h' : Leads v others y)
    (hne : segments ≠ []) (hne' : others ≠ []) (hsegments : Segment.ArePosition segments)
    (hothers : Segment.ArePosition others) (hjoined : joined segments = joined others) :
    segments = others := by
  refine h.eq_of_texts hv h' hsegments hothers ?_
  rw [← dottedParts_intercalate (by simpa using hne) (h.no_dot hkeys),
    ← dottedParts_intercalate (by simpa using hne') (h'.no_dot hkeys)]
  exact congrArg dottedParts hjoined

end Path.Leads

end RecordStore
