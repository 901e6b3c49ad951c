import RecordStore.Proofs.Document.Clause
import RecordStore.Proofs.Payload.Leaves

/-!
# What dotted keys reach

A query document names a place by a dotted key. Each part of it is the key of a field of an object,
digits too, or the index of an element of an array, which is also entered through each of its
objects (`Path.Finds`). What the key of a path reaches is what the path finds so
(`Document.exists_mem_reachedAt_iff`). That is no less than what its segments lead to
(`Path.Leads.finds`), and no more where no value on the way diverts them (`Path.Finds.leads`).
-/

namespace RecordStore

/-! ## Positions -/

theorem position?_indexText (i : Nat) :
    position? (Segment.indexText i) = word? (Nat.toDigits 10 i) := by
  have unsigned : ∀ digits, Nat.toDigits 10 i ≠ '+' :: digits := by
    intro digits h
    have plus : '+' ∈ Nat.toDigits 10 i := h ▸ List.mem_cons_self
    exact absurd (isDigit_of_mem_toDigits plus) (by decide)
  rw [position?, Segment.toList_indexText]
  split
  · next digits h => exact absurd h (unsigned digits)
  · rfl

/-- A key is no position in an array, as a number with a sign would be. -/
def Segment.IsUnsigned : Segment → Prop
  | .key name => position? name = none
  | _ => True

/-- The text of an index is a position in an array, and that of no other segment is. -/
theorem Segment.IsUnsigned.position?_eq_some_iff {segment : Segment} (h : segment.IsUnsigned)
    (hreadable : segment.IsReadable) (i : Nat) :
    position? segment.text = some i ↔ segment = .index i := by
  cases segment with
  | key name => simp [text, show position? name = none from h]
  | index j => simp [text, position?_indexText, word?_toDigits hreadable]
  | wildcard => simp [text, show position? wildcardText = none from rfl]

/-! ## Finding -/

/-- Some segments find a value inside another one where arrays are entered on the way. -/
inductive Path.Finds : Value → List Segment → Value → Prop
  | here (v : Value) : Finds v [] v
  | field {fields : Fields} {segment : Segment} {w x : Value} {rest : List Segment} :
    (segment.text, w) ∈ fields → Finds w rest x → Finds (.object fields) (segment :: rest) x
  | item {items : List Value} {i : Nat} {w x : Value} {rest : List Segment} :
    items[i]? = some w → Finds w rest x → Finds (.array items) (.index i :: rest) x
  | inside {items : List Value} {fields : Fields} {segment : Segment} {x : Value}
    {rest : List Segment} :
    .object fields ∈ items → Finds (.object fields) (segment :: rest) x →
      Finds (.array items) (segment :: rest) x

section

variable {segment : Segment} {rest : List Segment} {x : Value}

theorem Path.finds_object_iff {fields : Fields} :
    Finds (.object fields) (segment :: rest) x ↔
      ∃ w, (segment.text, w) ∈ fields ∧ Finds w rest x := by
  constructor
  · rintro (_ | ⟨hfield, hx⟩)
    exact ⟨_, hfield, hx⟩
  · rintro ⟨w, hfield, hx⟩
    exact .field hfield hx

theorem Path.finds_array_iff {items : List Value} :
    Finds (.array items) (segment :: rest) x ↔
      (∃ i w, segment = .index i ∧ items[i]? = some w ∧ Finds w rest x) ∨
        ∃ fields, .object fields ∈ items ∧ Finds (.object fields) (segment :: rest) x := by
  constructor
  · intro h
    cases h with
    | item hitem hx => exact .inl ⟨_, _, rfl, hitem, hx⟩
    | inside hitem hx => exact .inr ⟨_, hitem, hx⟩
  · rintro (⟨i, w, rfl, hitem, hx⟩ | ⟨fields, hitem, hx⟩)
    · exact .item hitem hx
    · exact .inside hitem hx

end

namespace Document

section

variable {part : String} {rest : List String} {x : Value}

theorem mem_reached_object {fields : Fields} :
    some x ∈ reached (part :: rest) (.object fields) ↔
      ∃ w, Keyed.get? part fields = some w ∧ some x ∈ reached rest w := by
  rw [reached]
  cases Keyed.get? part fields <;> simp

theorem mem_reached_array {items : List Value} :
    some x ∈ reached (part :: rest) (.array items) ↔
      (∃ i w, position? part = some i ∧ items[i]? = some w ∧ some x ∈ reached rest w) ∨
        ∃ fields, .object fields ∈ items ∧ some x ∈ reached (part :: rest) (.object fields) := by
  rw [reached, List.mem_append]
  refine or_congr ?_ ?_
  · cases position? part with
    | none => simp
    | some i => cases hitem : items[i]? <;> simp [hitem]
  · rw [List.mem_flatMap]
    constructor
    · rintro ⟨item, hitem, hx⟩
      obtain ⟨hitem, hobject⟩ := List.mem_filter.1 hitem
      cases item with
      | object fields => exact ⟨fields, hitem, hx⟩
      | _ => cases hobject
    · rintro ⟨fields, hitem, hx⟩
      exact ⟨.object fields, List.mem_filter.2 ⟨hitem, rfl⟩, hx⟩

end

/-- The parts of a dotted key reach what the segments find whose texts they are. -/
theorem mem_reached_iff {segments : List Segment} {v x : Value} (h : v.Canonical)
    (hreadable : ∀ segment ∈ segments, segment.IsReadable)
    (hunsigned : ∀ segment ∈ segments, segment.IsUnsigned) :
    some x ∈ reached (segments.map Segment.text) v ↔ Path.Finds v segments x := by
  induction segments generalizing v with
  | nil =>
    rw [List.map_nil, reached, List.mem_singleton]
    constructor
    · rintro ⟨⟩
      exact .here _
    · rintro ⟨⟩
      rfl
  | cons segment rest ih =>
    obtain ⟨hsegment, hrest⟩ := List.forall_mem_cons.1 hreadable
    obtain ⟨hunsigned, hrest'⟩ := List.forall_mem_cons.1 hunsigned
    have position := hunsigned.position?_eq_some_iff hsegment
    replace ih := fun {v : Value} (h : v.Canonical) => ih h hrest hrest'
    have object : ∀ {fields : Fields}, (Value.object fields).Canonical →
        (some x ∈ reached (segment.text :: rest.map Segment.text) (.object fields) ↔
          Path.Finds (.object fields) (segment :: rest) x) := by
      intro fields h
      rw [mem_reached_object, Path.finds_object_iff]
      refine exists_congr fun w => ?_
      rw [← Keyed.mem_iff_get? h.1]
      exact and_congr_right fun hfield => ih (h.field hfield)
    rw [List.map_cons]
    cases v with
    | object fields => exact object h
    | array items =>
      rw [mem_reached_array, Path.finds_array_iff]
      refine or_congr (exists_congr fun i => exists_congr fun w => ?_)
        (exists_congr fun fields => and_congr_right fun hitem => object (h.item hitem))
      exact and_congr (position i)
        (and_congr_right fun hitem => ih (h.item (List.mem_of_getElem? hitem)))
    | _ =>
      constructor
      · exact fun hx => absurd (List.mem_singleton.1 hx) (Option.some_ne_none x)
      · rintro ⟨⟩

/-! ## Keys of paths -/

variable {path : Path}

/-- A path without wildcards has a part for each of its segments in its dotted key, behind the one
for the payload. -/
theorem dottedParts_payloadKey (hne : path.segments ≠ [])
    (hreadable : ∀ segment ∈ path.segments, segment.IsReadable)
    (hwildcard : .wildcard ∉ path.segments) :
    dottedParts (payloadKey path) = Record.payloadKey :: path.segments.map Segment.text := by
  have all : path.segments.filter (· ≠ .wildcard) = path.segments :=
    List.filter_eq_self.2 fun segment hsegment =>
      decide_eq_true fun heq => hwildcard (heq ▸ hsegment)
  have key : payloadKey path =
      ".".intercalate (Record.payloadKey :: path.segments.map Segment.text) := by
    rw [payloadKey, all, String.intercalate_cons_of_ne_nil (by simpa using hne)]
    split
    · next hempty => exact absurd hempty hne
    · rfl
  rw [key, dottedParts_intercalate (List.cons_ne_nil _ _)]
  refine List.forall_mem_cons.2 ⟨by decide, fun s hs => ?_⟩
  obtain ⟨segment, hsegment, rfl⟩ := List.mem_map.1 hs
  exact (hreadable segment hsegment).isPart.no_dot

/-- The dotted key of a path without wildcards reaches what the path finds in the payload. -/
theorem exists_mem_reachedAt_iff {r : Record} (h : r.payload.Canonical)
    (hne : path.segments ≠ []) (hreadable : ∀ segment ∈ path.segments, segment.IsReadable)
    (hunsigned : ∀ segment ∈ path.segments, segment.IsUnsigned)
    (hwildcard : .wildcard ∉ path.segments) :
    (reachedAt (payloadKey path) r.toValue).any Option.isSome = true ↔
      ∃ x, Path.Finds r.payload path.segments x := by
  have payload : reached (Record.payloadKey :: path.segments.map Segment.text) r.toValue =
      reached (path.segments.map Segment.text) r.payload := rfl
  have found : (reachedAt (payloadKey path) r.toValue).any Option.isSome =
      (reached (path.segments.map Segment.text) r.payload).any Option.isSome := by
    rw [reachedAt, dottedParts_payloadKey hne hreadable hwildcard, payload]
    split
    · next hnone => rw [hnone]; rfl
    · rfl
  rw [found, List.any_eq_true]
  constructor
  · rintro ⟨x, hx, hsome⟩
    obtain ⟨x, rfl⟩ := Option.isSome_iff_exists.1 hsome
    exact ⟨x, (mem_reached_iff h hreadable hunsigned).1 hx⟩
  · rintro ⟨x, hx⟩
    exact ⟨some x, (mem_reached_iff h hreadable hunsigned).2 hx, rfl⟩

end Document

/-! ## Diversions -/

/-- A dotted key goes elsewhere from a value than the segment: an index to a field of an object, and
any segment into an object in an array. -/
def Value.Diverts (segment : Segment) : Value → Prop
  | .object fields => ∃ i w, segment = .index i ∧ (segment.text, w) ∈ fields
  | .array items => ∃ fields w, .object fields ∈ items ∧ (segment.text, w) ∈ fields
  | _ => False

namespace Path

variable {v x : Value} {segments : List Segment}

/-- No value on the way along some segments diverts the one that follows. -/
def IsStraight (v : Value) : List Segment → Prop
  | [] => True
  | segment :: rest => ¬ v.Diverts segment ∧ ∀ w, Leads v [segment] w → IsStraight w rest

/-- What the segments lead to is found. -/
theorem Leads.finds (h : Leads v segments x) (hwildcard : .wildcard ∉ segments) :
    Finds v segments x := by
  induction h with
  | here v => exact .here v
  | key hfield _ ih => exact .field hfield (ih (mt (List.mem_cons_of_mem _) hwildcard))
  | index hitem _ ih => exact .item hitem (ih (mt (List.mem_cons_of_mem _) hwildcard))
  | wildcard _ _ _ => exact absurd List.mem_cons_self hwildcard

/-- On a straight way nothing is found but what the segments lead to. -/
theorem Finds.leads (h : Finds v segments x) (hstraight : IsStraight v segments)
    (hwildcard : .wildcard ∉ segments) : Leads v segments x := by
  induction h with
  | here v => exact .here v
  | @field fields segment w x rest hfield _ ih =>
    cases segment with
    | key name =>
      exact .key hfield (ih (hstraight.2 w (.key hfield (.here w)))
        (mt (List.mem_cons_of_mem _) hwildcard))
    | index i => exact absurd ⟨i, w, rfl, hfield⟩ hstraight.1
    | wildcard => exact absurd List.mem_cons_self hwildcard
  | @item items i w x rest hitem _ ih =>
    exact .index hitem (ih (hstraight.2 w (.index hitem (.here w)))
      (mt (List.mem_cons_of_mem _) hwildcard))
  | @inside items fields segment x rest hitem hfinds _ =>
    cases hfinds with
    | @field _ _ w _ _ hfield _ => exact absurd ⟨fields, w, hitem, hfield⟩ hstraight.1

end Path

end RecordStore
