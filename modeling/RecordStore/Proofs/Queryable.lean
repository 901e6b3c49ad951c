import RecordStore.Proofs.Document.Clause
import RecordStore.Proofs.Payload.Again
import RecordStore.Proofs.Payload.Entries

/-!
# Queries for what is indexed

Where keys can be told from the other parts of a path (`Value.HasPathKeys`), the path of every
descriptor of an index can be queried (`Record.index_queryable`): it is read back as the segments
that lead to the leaf, and the query for equality finds the leaf there, or one of those below a
wildcard.
-/

namespace RecordStore

/-! ## Keys in paths -/

/-- A key that cannot be taken for anything else where it stands between points. -/
structure Value.IsPathKey (name : String) : Prop where
  ne_empty : name ≠ ""
  no_dot : '.' ∉ name.toList
  no_quote : '"' ∉ name.toList
  ne_wildcard : name ≠ Segment.wildcardText
  not_digits : ¬ ∀ c ∈ name.toList, Numeral.isDigit c = true

/-- Every object inside a value has such keys only. -/
def Value.HasPathKeys : Value → Prop := EveryKey IsPathKey

theorem Value.IsPathKey.isReadable {name : String} (h : IsPathKey name) :
    Segment.IsReadable (.key name) where
  ne_empty := h.ne_empty
  no_dot := h.no_dot
  no_quote := h.no_quote
  ne_wildcard := h.ne_wildcard
  no_word := by
    rw [word?, if_neg]
    exact fun hword => h.not_digits (List.all_eq_true.1 hword.2.1)

namespace Path.Leads

variable {v x : Value} {segments : List Segment}

/-- The segments that lead into a value are read back from their text. -/
theorem isReadable (h : Leads v segments x) (hkeys : v.HasPathKeys)
    (harrays : v.ArraysWithin (2 ^ 63)) : ∀ segment ∈ segments, segment.IsReadable := by
  intro segment hsegment
  cases segment with
  | key name => exact (h.key_of_mem hkeys hsegment).isReadable
  | index i => exact Nat.lt_trans (h.index_lt_of_mem harrays hsegment) (by decide)
  | wildcard => trivial

/-! ## Reading -/

variable {test : Value → Bool}

theorem enter_key {fields : Fields} (h : (Value.object fields).Canonical) {name : String}
    {w : Value} (hfield : (name, w) ∈ fields) : Value.enter (.key name) (.object fields) = w := by
  rw [Value.enter, (Keyed.mem_iff_get? h.1).1 hfield, Option.getD_some]

theorem enter_index {items : List Value} {i : Nat} {w : Value} (hitem : items[i]? = some w) :
    Value.enter (.index i) (.array items) = w := by
  rw [Value.enter, hitem, Option.getD_some]

/-- Without wildcards the test is of the value that the segments lead to. -/
theorem holds_eq (h : Leads v segments x) (hcanonical : v.Canonical)
    (hplain : .wildcard ∉ segments) : holds Value.enter test segments v = test x := by
  induction h with
  | here v => rfl
  | key hfield _ ih =>
    rw [holds_step (by simp), enter_key hcanonical hfield]
    exact ih (hcanonical.field hfield) (mt (List.mem_cons_of_mem _) hplain)
  | index hitem _ ih =>
    rw [holds_step (by simp), enter_index hitem]
    exact ih (hcanonical.item (List.mem_of_getElem? hitem)) (mt (List.mem_cons_of_mem _) hplain)
  | wildcard _ _ _ => exact absurd List.mem_cons_self hplain

/-- What any of the values passes that the segments lead to is found. -/
theorem holds_of_test (h : Leads v segments x) (hcanonical : v.Canonical) (htest : test x = true) :
    holds Value.enter test segments v = true := by
  induction h with
  | here v => exact htest
  | key hfield _ ih =>
    rw [holds_step (by simp), enter_key hcanonical hfield]
    exact ih (hcanonical.field hfield) htest
  | index hitem _ ih =>
    rw [holds_step (by simp), enter_index hitem]
    exact ih (hcanonical.item (List.mem_of_getElem? hitem)) htest
  | wildcard hitem _ ih =>
    exact List.any_eq_true.2 ⟨_, hitem, ih (hcanonical.item hitem) htest⟩

end Path.Leads

/-! ## Queries for equality -/

/-- Whether the query for equality with a value at a path is accepted, whatever the present and the
option that is not for it, and how its document is evaluated on a record. -/
def Record.AnswersEq (r : Record) (field : String) (w : Value) (matched : Bool) : Prop :=
  ∀ reference caseSensitive, ∃ clause,
    PartItem.clause ⟨.eq, field, w, caseSensitive⟩ reference = .ok clause ∧
      Document.satisfies r.toValue clause.document = .ok matched

theorem Record.answersEq_joined {r : Record} (harrays : r.payload.ArraysWithin (2 ^ 63))
    {segments : List Segment} (hne : segments ≠ [])
    (hsegments : ∀ segment ∈ segments, segment.IsReadable) (w : Value) :
    r.AnswersEq (Path.joined segments) w
      (Path.holds Value.enter (Predicate.eq w).test segments r.payload) := by
  intro reference caseSensitive
  refine ⟨.payload ⟨segments⟩ (.eq w), ?_, ?_⟩
  · rw [PartItem.clause, Path.parse_joined_readable hne hsegments]
    rfl
  · have positive : (Predicate.eq w).isNegative = false := rfl
    rw [Clause.document, Document.satisfies_payload r ⟨segments⟩ (by simp),
      Document.holds_enter_eq _ _ harrays, positive, Bool.false_bne]

/-- Every descriptor of an index is about a leaf of the payload, and the query for equality at its
path is accepted. At a plain path it compares with the leaf; at a compressed one it finds each of
the leaves there. -/
theorem Record.index_queryable {r : Record} (hcanonical : r.payload.Canonical)
    (hkeys : r.payload.HasPathKeys) (harrays : r.payload.ArraysWithin (2 ^ 63)) {p : String}
    {d : Descriptor} (h : (p, d) ∈ r.payload.index) :
    (∃ segments x, Path.Leads r.payload segments x ∧ x.IsLeaf ∧ Path.joined segments = p ∧
      d.IsAbout segments) ∧
    ∀ segments x, Path.Leads r.payload segments x → x.IsLeaf → Path.joined segments = p →
      (d.isCompressed = false → ∀ w, r.AnswersEq p w (x.equal w)) ∧
      (d.isCompressed = true → r.AnswersEq p x true) := by
  obtain ⟨hpath, known, leaf, hleads, hleaf, hne, hjoined, habout⟩ := Value.describes_index h
  rw [List.nil_append] at hne hjoined
  rw [hjoined] at hpath
  refine ⟨⟨known, leaf, hleads, hleaf, hpath, habout⟩, fun segments x hother _ hp => ?_⟩
  have readable := hleads.isReadable hkeys harrays
  obtain rfl : segments = known :=
    Path.eq_of_joined_eq (hother.isReadable hkeys harrays) hne readable (hp.trans hpath.symm)
  have answers := fun w => r.answersEq_joined harrays hne readable w
  rw [hp] at answers
  refine ⟨fun hplain w => ?_, fun _ => ?_⟩
  · rw [Descriptor.IsAbout, if_neg (by simpa using hplain)] at habout
    have compared := answers w
    rwa [hother.holds_eq hcanonical habout] at compared
  · have found := answers x
    have passes : (Predicate.eq x).test x = true := x.equal_self
    rwa [hother.holds_of_test hcanonical passes] at found

/-- An element of an array, which is indexed under its index and under a wildcard. -/
theorem Record.index_queryable_elements :
    let r : Record := { (default : Record) with
      payload := .object [("a", .array [.object [("b", .int 1)], .int 2]), ("c", .string "1")] }
    (r.payload.index.map Prod.fst = ["a.0.b", "a.1", "a.[*]", "a.[*].b", "c"]) ∧
      r.AnswersEq "a.0.b" (.string "1") false ∧ r.AnswersEq "a.[*]" (.int 2) true ∧
      r.AnswersEq "a.[*].b" (.int 1) true := by
  intro r
  have hcanonical : r.payload.Canonical := by
    have sorted : (["a", "c"] : List String).Pairwise (· < ·) := by decide
    refine ⟨sorted, ?_⟩
    simp [Value.Canonical, Value.CanonicalItems, Value.CanonicalFields, Keyed.Sorted, Keyed.keys,
      Value.int]
  have hkeys : r.payload.HasPathKeys := by
    have a : Value.IsPathKey "a" := ⟨by decide, by decide, by decide, by decide,
      fun h => absurd (h 'a' (by decide)) (by decide)⟩
    have b : Value.IsPathKey "b" := ⟨by decide, by decide, by decide, by decide,
      fun h => absurd (h 'b' (by decide)) (by decide)⟩
    have c : Value.IsPathKey "c" := ⟨by decide, by decide, by decide, by decide,
      fun h => absurd (h 'c' (by decide)) (by decide)⟩
    simp [r, Value.HasPathKeys, Value.EveryKey, Value.Every, Value.EveryItem, Value.EveryField,
      Value.int, or_imp, forall_and, a, b, c]
  have harrays : r.payload.ArraysWithin (2 ^ 63) := by
    simp [r, Value.ArraysWithin, Value.Every, Value.EveryItem, Value.EveryField, Value.int]
  have element : Path.Leads r.payload [.key "a", .index 0, .key "b"] (.int 1) :=
    .key List.mem_cons_self (.index (w := .object [("b", .int 1)]) rfl
      (.key List.mem_cons_self (.here _)))
  have second : Path.Leads r.payload [.key "a", .wildcard] (.int 2) :=
    .key List.mem_cons_self (.wildcard (List.mem_cons_of_mem _ List.mem_cons_self) (.here _))
  have first : Path.Leads r.payload [.key "a", .wildcard, .key "b"] (.int 1) :=
    .key List.mem_cons_self (.wildcard List.mem_cons_self (.key List.mem_cons_self (.here _)))
  have plain : ("a.0.b", Descriptor.leaf "a.0.b" .number) ∈ r.payload.index := by decide +kernel
  have compressed : ("a.[*]", Descriptor.compressed "a.[*]" (.singleton .number)) ∈
      r.payload.index := by decide +kernel
  have below : ("a.[*].b", Descriptor.compressed "a.[*].b" (.singleton .number)) ∈
      r.payload.index := by decide +kernel
  refine ⟨by decide +kernel, ?_, ?_, ?_⟩
  · exact ((Record.index_queryable hcanonical hkeys harrays plain).2 _ _ element ⟨rfl, rfl⟩ rfl).1
      rfl (.string "1")
  · exact ((Record.index_queryable hcanonical hkeys harrays compressed).2 _ _ second ⟨rfl, rfl⟩
      rfl).2 rfl
  · exact ((Record.index_queryable hcanonical hkeys harrays below).2 _ _ first ⟨rfl, rfl⟩ rfl).2 rfl

end RecordStore
