import RecordStore.Path
import RecordStore.Proofs.Outcome

/-!
# Paths as dotted texts

Segments whose texts can stand between points are read part by part (`Path.parse_joined`). The
segments that a dotted text can name are written as they are read: `Path.parse` reads back the text of
such segments (`Path.parse_joined_readable`), and reads no others (`Path.isReadable_of_parse`).
-/

namespace RecordStore

/-! ## Numbers -/

theorem Numeral.ofDigits_toDigits (i : Nat) : ofDigits (Nat.toDigits 10 i) = i :=
  Nat.ofDigitChars_ten_toDigits

theorem isDigit_of_mem_toDigits {i : Nat} {c : Char} (h : c ∈ Nat.toDigits 10 i) :
    Numeral.isDigit c = true :=
  Nat.isDigit_of_mem_toDigits (by decide) (by decide) h

theorem word?_eq_some_iff {digits : List Char} {i : Nat} : word? digits = some i ↔
    digits ≠ [] ∧ digits.all Numeral.isDigit = true ∧ Numeral.ofDigits digits = i ∧ i < 2 ^ 64 := by
  unfold word?
  split
  · next hword =>
    rw [Option.some_inj]
    exact ⟨fun h => ⟨hword.1, hword.2.1, h, h ▸ hword.2.2⟩, fun h => h.2.2.1⟩
  · next hword =>
    refine iff_of_false (Option.some_ne_none i).symm fun h => hword ⟨h.1, h.2.1, ?_⟩
    rw [h.2.2.1]
    exact h.2.2.2

theorem word?_toDigits {i : Nat} (h : i < 2 ^ 64) : word? (Nat.toDigits 10 i) = some i := by
  have all : (Nat.toDigits 10 i).all Numeral.isDigit = true :=
    List.all_eq_true.2 fun c hc => isDigit_of_mem_toDigits hc
  rw [word?, Numeral.ofDigits_toDigits, if_pos ⟨Nat.toDigits_ne_nil, all, h⟩]

/-! ## Parts -/

theorem splitDots_eq_splitOn (cs : List Char) : splitDots cs = cs.splitOn '.' := by
  induction cs with
  | nil => rfl
  | cons c cs ih =>
    rw [splitDots, ih, List.splitOn_cons_eq_if_modifyHead]
    by_cases hc : c = '.'
    · rw [if_pos hc, if_pos (beq_iff_eq.2 hc)]
    · rw [if_neg hc, if_neg (mt beq_iff_eq.1 hc)]
      cases hparts : cs.splitOn '.' with
      | nil => exact absurd hparts (List.splitOn_ne_nil _ _)
      | cons part parts => rfl

theorem splitDots_ne_nil (cs : List Char) : splitDots cs ≠ [] :=
  splitDots_eq_splitOn cs ▸ List.splitOn_ne_nil _ _

theorem no_dot_of_mem_splitDots {cs part : List Char} (h : part ∈ splitDots cs) : '.' ∉ part := by
  induction cs generalizing part with
  | nil =>
    rw [splitDots, List.mem_singleton] at h
    exact h ▸ List.not_mem_nil
  | cons c cs ih =>
    rw [splitDots] at h
    by_cases hc : c = '.'
    · rw [if_pos hc] at h
      rcases List.mem_cons.1 h with rfl | h
      · exact List.not_mem_nil
      · exact ih h
    · rw [if_neg hc] at h
      cases hparts : splitDots cs with
      | nil => exact absurd hparts (splitDots_ne_nil cs)
      | cons first parts =>
        rw [hparts] at h
        rcases List.mem_cons.1 h with rfl | h
        · exact fun hdot => (List.mem_cons.1 hdot).elim (fun heq => hc heq.symm)
            (ih (hparts ▸ List.mem_cons_self))
        · exact ih (hparts ▸ List.mem_cons_of_mem _ h)

/-- The parts of texts that are joined by points are these texts. -/
theorem splitDots_intercalate {texts : List String} (hne : texts ≠ [])
    (h : ∀ s ∈ texts, '.' ∉ s.toList) :
    splitDots (".".intercalate texts).toList = texts.map String.toList := by
  rw [String.toList_intercalate, splitDots_eq_splitOn]
  refine List.splitOn_intercalate '.' (fun part hpart => ?_) (by simpa using hne)
  obtain ⟨s, hs, rfl⟩ := List.mem_map.1 hpart
  exact h s hs

theorem dottedParts_intercalate {texts : List String} (hne : texts ≠ [])
    (h : ∀ s ∈ texts, '.' ∉ s.toList) : dottedParts (".".intercalate texts) = texts := by
  rw [dottedParts, splitDots_intercalate hne h, List.map_map]
  exact (List.map_congr_left fun s _ => String.ofList_toList).trans (List.map_id texts)

/-! ## Segments -/

namespace Segment

/-- Whether the text of a segment is taken for one part where it stands between points. -/
structure IsPart (segment : Segment) : Prop where
  ne_empty : segment.text ≠ ""
  no_dot : '.' ∉ segment.text.toList
  no_quote : '"' ∉ segment.text.toList

instance (segment : Segment) : Decidable segment.IsPart :=
  decidable_of_iff
    (segment.text ≠ "" ∧ '.' ∉ segment.text.toList ∧ '"' ∉ segment.text.toList)
    ⟨fun h => ⟨h.1, h.2.1, h.2.2⟩, fun h => ⟨h.ne_empty, h.no_dot, h.no_quote⟩⟩

/-- The segment that is read for the text of a segment. -/
def reread (segment : Segment) : Segment := ofPart segment.text.toList

/-- Whether a key is read as a key where it stands between points. -/
structure IsReadableKey (name : String) : Prop where
  ne_empty : name ≠ ""
  no_dot : '.' ∉ name.toList
  no_quote : '"' ∉ name.toList
  ne_wildcard : name ≠ wildcardText
  no_word : word? name.toList = none

/-- Whether a segment is read as itself where it stands between points. -/
def IsReadable : Segment → Prop
  | .key name => IsReadableKey name
  | .index i => i < 2 ^ 64
  | .wildcard => True

variable {segment : Segment}

theorem ofPart_eq_wildcard_iff {part : List Char} :
    ofPart part = .wildcard ↔ part = wildcardText.toList := by
  unfold ofPart
  split
  · next h => exact iff_of_true rfl h
  · next h =>
    refine iff_of_false ?_ h
    split <;> exact Segment.noConfusion

theorem toList_indexText (i : Nat) : (indexText i).toList = Nat.toDigits 10 i :=
  String.toList_ofList

theorem not_mem_indexText {c : Char} (h : Numeral.isDigit c = false) (i : Nat) :
    c ∉ (indexText i).toList := by
  intro hc
  rw [toList_indexText] at hc
  rw [isDigit_of_mem_toDigits hc] at h
  cases h

theorem indexText_inj {i j : Nat} (h : indexText i = indexText j) : i = j := by
  have digits : Nat.toDigits 10 i = Nat.toDigits 10 j := by
    rw [← toList_indexText, h, toList_indexText]
  rw [← Numeral.ofDigits_toDigits i, digits, Numeral.ofDigits_toDigits]

theorem indexText_ne_wildcardText (i : Nat) : indexText i ≠ wildcardText := by
  intro h
  have bracket : '[' ∈ (indexText i).toList := h ▸ List.mem_cons_self
  exact not_mem_indexText rfl i bracket

theorem IsPart.parse_text (h : segment.IsPart) (raw : String) :
    parse raw segment.text.toList = .ok segment.reread := by
  have nonempty : segment.text.toList ≠ [] := fun hempty => h.ne_empty (String.toList_inj.1 hempty)
  rw [parse, if_neg, if_neg, reread]
  · simpa using h.no_quote
  · simpa using nonempty

theorem isPart_index (i : Nat) : (index i).IsPart where
  ne_empty hempty := by
    have nonempty : Nat.toDigits 10 i ≠ [] := Nat.toDigits_ne_nil
    rw [← toList_indexText] at nonempty
    exact nonempty (congrArg String.toList hempty)
  no_dot := not_mem_indexText rfl i
  no_quote := not_mem_indexText rfl i

theorem isPart_wildcard : wildcard.IsPart := ⟨by decide, by decide, by decide⟩

theorem IsReadable.isPart (h : segment.IsReadable) : segment.IsPart := by
  cases segment with
  | key name => exact ⟨h.ne_empty, h.no_dot, h.no_quote⟩
  | index i => exact isPart_index i
  | wildcard => exact isPart_wildcard

theorem reread_index {i : Nat} (h : i < 2 ^ 64) : (index i).reread = index i := by
  have other : Nat.toDigits 10 i ≠ wildcardText.toList := fun heq =>
    indexText_ne_wildcardText i (String.toList_inj.1 ((toList_indexText i).trans heq))
  rw [reread, text, toList_indexText, ofPart, if_neg other, word?_toDigits h]

theorem IsReadable.reread_eq (h : segment.IsReadable) : segment.reread = segment := by
  cases segment with
  | key name =>
    have other : name.toList ≠ wildcardText.toList := fun heq =>
      h.ne_wildcard (String.toList_inj.1 heq)
    rw [reread, text, ofPart, if_neg other, h.no_word, String.ofList_toList]
  | index i => exact reread_index h
  | wildcard => rfl

theorem isReadable_of_parse {raw : String} {part : List Char} (hdot : '.' ∉ part)
    (h : parse raw part = .ok segment) : segment.IsReadable := by
  unfold parse at h
  split at h
  · cases h
  · next hempty =>
    split at h
    · cases h
    · next hquote =>
      cases h
      unfold ofPart
      split
      · trivial
      · next hwildcard =>
        split
        · next i hword => exact (word?_eq_some_iff.1 hword).2.2.2
        · next hword =>
          refine ⟨fun hname => hempty ?_, ?_, ?_, fun hname => hwildcard ?_, ?_⟩
          · rw [List.isEmpty_iff, ← String.toList_ofList (l := part), hname]
            rfl
          · rwa [String.toList_ofList]
          · simpa using hquote
          · rw [← String.toList_ofList (l := part), hname]
          · rwa [String.toList_ofList]

end Segment

/-! ## Paths -/

namespace Path

variable {segments : List Segment}

theorem splitDots_joined (hne : segments ≠ []) (h : ∀ segment ∈ segments, segment.IsPart) :
    splitDots (joined segments).toList = segments.map fun segment => segment.text.toList := by
  rw [joined, splitDots_intercalate (by simpa using hne), List.map_map]
  · rfl
  · intro s hs
    obtain ⟨segment, hsegment, rfl⟩ := List.mem_map.1 hs
    exact (h segment hsegment).no_dot

theorem joined_ne_empty (hne : segments ≠ []) (h : ∀ segment ∈ segments, segment.IsPart) :
    joined segments ≠ "" := by
  intro hempty
  have parts := splitDots_joined hne h
  rw [hempty] at parts
  cases segments with
  | nil => exact hne rfl
  | cons segment rest =>
    exact (h segment List.mem_cons_self).ne_empty (String.toList_inj.1 (List.cons.inj parts).1.symm)

/-- The text of segments is read part by part. -/
theorem parse_joined (hne : segments ≠ []) (h : ∀ segment ∈ segments, segment.IsPart) :
    parse (joined segments) = .ok ⟨segments.map Segment.reread⟩ := by
  have parsed : (segments.map fun segment => segment.text.toList).mapM
      (Segment.parse (joined segments)) = .ok (segments.map Segment.reread) := by
    rw [mapM_ok (g := Segment.ofPart), List.map_map]
    · rfl
    · intro part hpart
      obtain ⟨segment, hsegment, rfl⟩ := List.mem_map.1 hpart
      exact (h segment hsegment).parse_text (joined segments)
  rw [parse, if_neg, splitDots_joined hne h, parsed, ok_bind]
  · rfl
  · simpa using joined_ne_empty hne h

/-- The text of readable segments is read back. -/
theorem parse_joined_readable (hne : segments ≠ [])
    (h : ∀ segment ∈ segments, segment.IsReadable) : parse (joined segments) = .ok ⟨segments⟩ := by
  have same : segments.map Segment.reread = segments :=
    (List.map_congr_left fun segment hsegment => (h segment hsegment).reread_eq).trans
      (List.map_id segments)
  rw [parse_joined hne fun segment hsegment => (h segment hsegment).isPart, same]

/-- The text of readable segments tells them. -/
theorem eq_of_joined_eq {others : List Segment} (h : ∀ segment ∈ segments, segment.IsReadable)
    (hne : others ≠ []) (hothers : ∀ segment ∈ others, segment.IsReadable)
    (hjoined : joined segments = joined others) : segments = others := by
  have hsegments : segments ≠ [] := by
    rintro rfl
    exact joined_ne_empty hne (fun segment hsegment => (hothers segment hsegment).isPart) hjoined.symm
  have read := parse_joined_readable hsegments h
  rw [hjoined, parse_joined_readable hne hothers] at read
  cases read
  rfl

/-- What is read from a text are readable segments, at least one. -/
theorem isReadable_of_parse {raw : String} {path : Path} (h : parse raw = .ok path) :
    path.segments ≠ [] ∧ ∀ segment ∈ path.segments, segment.IsReadable := by
  unfold parse at h
  split at h
  · cases h
  · obtain ⟨segments, hsegments, h⟩ := bind_eq_ok.1 h
    cases h
    refine ⟨?_, forall_of_mapM_ok hsegments fun part hpart segment hsegment =>
      Segment.isReadable_of_parse (no_dot_of_mem_splitDots hpart) hsegment⟩
    rintro rfl
    cases hparts : splitDots raw.toList with
    | nil => exact splitDots_ne_nil _ hparts
    | cons part parts =>
      rw [hparts, List.mapM_cons] at hsegments
      obtain ⟨segment, -, hsegments⟩ := bind_eq_ok.1 hsegments
      obtain ⟨rest, -, hsegments⟩ := bind_eq_ok.1 hsegments
      cases hsegments

end Path

end RecordStore
