import RecordStore.Proofs.Document.Traversal
import RecordStore.Proofs.Path.Digits

/-!
# Dotted texts as paths

Documents are sorted by what a dotted text leads to, and the parts of the text are read anew at every
value on the way. The text of a path leads to all that the path leads to, since a part is read as its
segment, and in an array also as a position if it is a key with a sign (`Path.lookupStep?_text`). So
both lead to the same in every document exactly if no key of the path is a number with a sign
(`Path.lookup?_text_eq_get?_iff`).
-/

namespace RecordStore

namespace Path

variable {segment : Segment} {segments : List Segment} {v x : Value}

/-! ## One step -/

/-- The element of an array of which a key is the position, as a number with a sign is. -/
def signedStep? : Value → Segment → Option Value
  | .array items, .key name => (position? name).bind fun i => items[i]?
  | _, _ => none

theorem signedStep?_of_isUnsigned (h : segment.IsUnsigned) (v : Value) :
    signedStep? v segment = none := by
  cases v with
  | array items =>
    cases segment with
    | key name => rw [signedStep?, show position? name = none from h, Option.bind_none]
    | _ => rfl
  | _ => rfl

/-- The text of a segment leads where the segment does, and from an array also by a key with a
sign. -/
theorem lookupStep?_text (hreadable : segment.IsReadable) (hplain : segment ≠ .wildcard) (v : Value) :
    v.lookupStep? segment.text = (step? v segment).or (signedStep? v segment) := by
  cases segment with
  | key name =>
    cases v with
    | array items => rfl
    | _ => exact Option.or_none.symm
  | index i =>
    cases v with
    | array items =>
      rw [Segment.text, Value.lookupStep?, position?_indexText, word?_toDigits hreadable]
      exact Option.or_none.symm
    | _ => exact Option.or_none.symm
  | wildcard => exact absurd rfl hplain

/-! ## All steps -/

theorem lookupParts?_of_follow? (hreadable : ∀ segment ∈ segments, segment.IsReadable)
    (h : follow? segments v = some x) : Value.lookupParts? (segments.map Segment.text) v = some x := by
  induction segments generalizing v with
  | nil => exact h
  | cons segment rest ih =>
    obtain ⟨hsegment, hrest⟩ := List.forall_mem_cons.1 hreadable
    obtain ⟨w, hw, h⟩ := Option.bind_eq_some_iff.1 h
    have hplain : segment ≠ .wildcard := by
      rintro rfl
      cases hw
    rw [List.map_cons, Value.lookupParts?, lookupStep?_text hsegment hplain, hw, Option.some_or,
      Option.bind_some]
    exact ih hrest h

theorem lookupParts?_texts (hreadable : ∀ segment ∈ segments, segment.IsReadable)
    (hplain : .wildcard ∉ segments) (hunsigned : ∀ segment ∈ segments, segment.IsUnsigned)
    (v : Value) : Value.lookupParts? (segments.map Segment.text) v = follow? segments v := by
  induction segments generalizing v with
  | nil => rfl
  | cons segment rest ih =>
    obtain ⟨hsegment, hrest⟩ := List.forall_mem_cons.1 hreadable
    obtain ⟨hsign, hsigns⟩ := List.forall_mem_cons.1 hunsigned
    rw [List.mem_cons, not_or] at hplain
    rw [List.map_cons, Value.lookupParts?, follow?, lookupStep?_text hsegment (Ne.symm hplain.1),
      signedStep?_of_isUnsigned hsign, Option.or_none]
    exact congrArg _ (funext fun w => ih hrest hplain.2 hsigns w)

/-! ## Documents that tell them apart -/

/-- Objects in each other have something at the end of any parts. -/
theorem exists_lookupParts? (parts : List String) :
    ∃ v x, Value.lookupParts? parts v = some x := by
  induction parts with
  | nil => exact ⟨.null, .null, rfl⟩
  | cons part rest ih =>
    obtain ⟨v, x, h⟩ := ih
    refine ⟨.object [(part, v)], x, ?_⟩
    have field : Value.lookupStep? part (.object [(part, v)]) = some v := if_pos rfl
    rw [Value.lookupParts?, field, Option.bind_some, h]

/-- With a key with a sign on it, a path misses in some document what its text finds. The document has
objects up to the first such key, and an array there. -/
theorem exists_lookupParts?_of_signed (hreadable : ∀ segment ∈ segments, segment.IsReadable)
    (hplain : .wildcard ∉ segments) (hsigned : ¬ ∀ segment ∈ segments, segment.IsUnsigned) :
    ∃ v x, follow? segments v = none ∧
      Value.lookupParts? (segments.map Segment.text) v = some x := by
  induction segments with
  | nil => exact absurd (fun _ h => absurd h List.not_mem_nil) hsigned
  | cons segment rest ih =>
    obtain ⟨hsegment, hrest⟩ := List.forall_mem_cons.1 hreadable
    rw [List.mem_cons, not_or] at hplain
    have step := lookupStep?_text hsegment (Ne.symm hplain.1)
    simp only [List.map_cons, Value.lookupParts?, follow?]
    by_cases hsign : segment.IsUnsigned
    · obtain ⟨v, x, hnone, hsome⟩ := ih hrest hplain.2 fun h =>
        hsigned (List.forall_mem_cons.2 ⟨hsign, h⟩)
      have found : step? (.object [(segment.text, v)]) segment = some v := by
        rw [step?_object (Ne.symm hplain.1)]
        exact if_pos rfl
      refine ⟨.object [(segment.text, v)], x, ?_⟩
      rw [step, found]
      exact ⟨hnone, hsome⟩
    · cases segment with
      | key name =>
        obtain ⟨i, hi⟩ := Option.ne_none_iff_exists'.1 hsign
        obtain ⟨v, x, h⟩ := exists_lookupParts? (rest.map Segment.text)
        have element : (List.replicate i Value.null ++ [v])[i]? = some v := by
          rw [List.getElem?_append_right (by simp)]
          simp
        have missed : step? (.array (List.replicate i .null ++ [v])) (.key name) = none := rfl
        have found : signedStep? (.array (List.replicate i .null ++ [v])) (.key name) = some v := by
          rw [signedStep?, hi, Option.bind_some, element]
        refine ⟨.array (List.replicate i .null ++ [v]), x, ?_⟩
        rw [step, missed, found]
        exact ⟨rfl, h⟩
      | _ => exact absurd trivial hsign

/-! ## Texts of paths -/

theorem lookup?_text (path : Path) (hne : path.segments ≠ [])
    (hreadable : ∀ segment ∈ path.segments, segment.IsReadable) (v : Value) :
    v.lookup? path.text = Value.lookupParts? (path.segments.map Segment.text) v := by
  have parts : dottedParts path.text = path.segments.map Segment.text := by
    refine dottedParts_intercalate (by simpa using hne) fun s hs => ?_
    obtain ⟨segment, hsegment, rfl⟩ := List.mem_map.1 hs
    exact (hreadable segment hsegment).isPart.no_dot
  rw [Value.lookup?, parts]

/-- The text of a path without wildcards leads to all that the path leads to. In all documents it leads
to nothing else if and only if no key of the path is a number with a sign. -/
theorem lookup?_text_eq_get?_iff {raw : String} {path : Path} (h : parse raw = .ok path)
    (hplain : path.hasWildcard = false) :
    (∀ v x, path.get? v = some x → v.lookup? path.text = some x) ∧
      ((∀ v : Value, v.lookup? path.text = path.get? v) ↔
        ∀ segment ∈ path.segments, segment.IsUnsigned) := by
  obtain ⟨hne, hreadable⟩ := isReadable_of_parse h
  have hwildcard : .wildcard ∉ path.segments := by simpa [hasWildcard] using hplain
  simp only [lookup?_text path hne hreadable]
  refine ⟨fun v x => lookupParts?_of_follow? hreadable, fun hsame => ?_,
    fun hunsigned => lookupParts?_texts hreadable hwildcard hunsigned⟩
  refine Classical.byContradiction fun hsigned => ?_
  obtain ⟨v, x, hnone, hsome⟩ := exists_lookupParts?_of_signed hreadable hwildcard hsigned
  rw [hsame v, get?, hnone] at hsome
  cases hsome

/-- An index, which is a key in an object, a key with a leading zero and a word too long for one. -/
theorem lookup?_text_eq_get?_iff_digits :
    let path : Path := ⟨[.key "a", .index 7, .key "99999999999999999999", .index 0]⟩
    parse "a.007.99999999999999999999.0" = .ok path ∧ path.hasWildcard = false ∧
      path.text = "a.7.99999999999999999999.0" ∧
      ∀ v : Value, v.lookup? "a.7.99999999999999999999.0" = path.get? v := by
  intro path
  have parsed : parse "a.007.99999999999999999999.0" = .ok path := rfl
  have written : path.text = "a.7.99999999999999999999.0" := by decide +kernel
  have unsigned : ∀ segment ∈ path.segments, segment.IsUnsigned := by
    have a : position? "a" = none := rfl
    have long : position? "99999999999999999999" = none := by decide +kernel
    simp [path, Segment.IsUnsigned, a, long]
  have same := (lookup?_text_eq_get?_iff parsed rfl).2.2 unsigned
  rw [written] at same
  exact ⟨parsed, rfl, written, same⟩

/-- A key with a sign is the position of an element to the text, and nothing in an array to the path. -/
theorem lookup?_text_ne_get? :
    parse "+1" = .ok ⟨[.key "+1"]⟩ ∧ hasWildcard ⟨[.key "+1"]⟩ = false ∧
      text ⟨[.key "+1"]⟩ = "+1" ∧
      (Value.array [.int 10, .int 20]).lookup? "+1" = some (.int 20) ∧
      get? ⟨[.key "+1"]⟩ (.array [.int 10, .int 20]) = none := by
  refine ⟨rfl, rfl, ?_, ?_, ?_⟩
  all_goals decide +kernel

end Path

end RecordStore
