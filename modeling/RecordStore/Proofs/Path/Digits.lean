import RecordStore.Proofs.Numeral.Short
import RecordStore.Proofs.Path.Text
import RecordStore.Proofs.Payload.Leaves

/-!
# Keys of digits

A key of digits that 64 bits hold is read as an index (`Segment.reread`), and an index leads to the
field of an object that has the number's own text as its key. This is the text of the key unless a zero
stands in front of its other digits (`Segment.text_reread_key_iff`). Without such keys a path is written
as it was read and leads where its segments do (`Path.text_reread_iff`, `Path.Leads.follow?_reread`).
-/

namespace RecordStore

/-! ## Digits -/

namespace Numeral

theorem digitChar_digit {c : Char} (h : isDigit c = true) : Nat.digitChar (digit c) = c := by
  have least : '0'.toNat ≤ c.toNat := by
    simp only [isDigit, Bool.and_eq_true, decide_eq_true_eq, Char.le_def] at h
    exact h.1
  apply Char.toNat_inj.1
  rw [Nat.toNat_digitChar_of_lt_ten (Nat.lt_succ_of_le (digit_le h)), digit]
  exact Nat.add_sub_of_le least

/-- Digits behind those of a number make those of the number that they denote together. -/
theorem toDigits_append {n : Nat} {cs : List Char} (hn : 0 < n) (hcs : cs.all isDigit = true) :
    Nat.toDigits 10 n ++ cs = Nat.toDigits 10 (ofDigitsFrom n cs) := by
  induction cs generalizing n with
  | nil => exact List.append_nil _
  | cons c cs ih =>
    simp only [List.all_cons, Bool.and_eq_true] at hcs
    have small : digit c < 10 := Nat.lt_succ_of_le (digit_le hcs.1)
    have next : Nat.toDigits 10 n ++ [c] = Nat.toDigits 10 (10 * n + digit c) := by
      rw [← Nat.toDigits_append_toDigits (by decide) hn small, Nat.toDigits_of_lt_base small,
        digitChar_digit hcs.1]
    calc Nat.toDigits 10 n ++ c :: cs
        = Nat.toDigits 10 n ++ [c] ++ cs := List.append_cons _ _ _
      _ = Nat.toDigits 10 (ofDigitsFrom n (c :: cs)) := by
        rw [next, ih (by omega) hcs.2, ofDigitsFrom_cons]

/-- Digits are those of the number that they denote, unless a zero stands in front of others. -/
theorem toDigits_ofDigits_eq_iff {c : Char} {cs : List Char} (h : (c :: cs).all isDigit = true) :
    Nat.toDigits 10 (ofDigits (c :: cs)) = c :: cs ↔ ¬ (c = '0' ∧ cs ≠ []) := by
  simp only [List.all_cons, Bool.and_eq_true] at h
  have value : ofDigits (c :: cs) = ofDigitsFrom (digit c) cs := by
    show ofDigitsFrom 0 (c :: cs) = _
    rw [ofDigitsFrom_cons, Nat.mul_zero, Nat.zero_add]
  have small : digit c < 10 := Nat.lt_succ_of_le (digit_le h.1)
  have first : Nat.toDigits 10 (digit c) = [c] := by
    rw [Nat.toDigits_of_lt_base small, digitChar_digit h.1]
  rw [value]
  by_cases hzero : c = '0'
  · subst hzero
    by_cases hcs : cs = []
    · subst hcs
      exact iff_of_true first (by simp)
    · refine iff_of_false (fun heq => ?_) (not_not_intro ⟨rfl, hcs⟩)
      -- the number is below the power of ten for which the other digits suffice
      have below : ofDigitsFrom 0 cs < 10 ^ cs.length := ofDigitsFrom_lt h.2 (by omega)
      have short := (Nat.length_toDigits_le_iff (by decide) (List.length_pos_iff.2 hcs)).2 below
      have long : (Nat.toDigits 10 (ofDigitsFrom 0 cs)).length = cs.length + 1 :=
        congrArg List.length heq
      omega
  · refine iff_of_true ?_ fun hspare => hzero hspare.1
    have positive : 0 < digit c := by
      refine Nat.pos_of_ne_zero fun hnull => hzero ?_
      rw [← digitChar_digit h.1, hnull]
      rfl
    rw [← toDigits_append positive h.2, first]
    rfl

end Numeral

/-! ## Segments -/

namespace Segment

/-- Whether a key is read as an index, and has a zero in front of other digits. -/
def hasSpareZero (name : String) : Bool :=
  (word? name.toList).isSome && name.toList.head? = some '0' && 1 < name.toList.length

theorem reread_key {name : String} (h : name ≠ wildcardText) :
    (key name).reread = (word? name.toList).elim (key name) index := by
  rw [reread, text, ofPart, if_neg (mt String.toList_inj.1 h)]
  cases word? name.toList with
  | none => exact congrArg key String.ofList_toList
  | some i => rfl

theorem text_reread_key_iff {name : String} :
    (key name).reread.text = name ↔ hasSpareZero name = false := by
  by_cases hwildcard : name = wildcardText
  · subst hwildcard
    exact iff_of_true rfl rfl
  rw [reread_key hwildcard, hasSpareZero]
  cases hword : word? name.toList with
  | none => exact iff_of_true rfl rfl
  | some i =>
    obtain ⟨hne, hdigits, rfl, -⟩ := word?_eq_some_iff.1 hword
    obtain ⟨c, cs, hname⟩ := List.exists_cons_of_ne_nil hne
    rw [hname] at hdigits
    have digits := Numeral.toDigits_ofDigits_eq_iff hdigits
    rw [← hname, ← toList_indexText, String.toList_inj] at digits
    rw [Option.elim_some, text, digits, hname]
    simp [List.length_pos_iff]

theorem reread_eq_wildcard_iff {segment : Segment} :
    segment.reread = .wildcard ↔ segment.text = wildcardText := by
  rw [reread, ofPart_eq_wildcard_iff, String.toList_inj]

/-- What is read for a text that can stand between points can stand there, too. -/
theorem IsPart.reread {segment : Segment} (h : segment.IsPart) : segment.reread.IsPart :=
  (isReadable_of_parse h.no_dot (h.parse_text "")).isPart

end Segment

/-! ## Paths -/

namespace Path

variable {segments others : List Segment}

theorem isPart_of_keys (h : ∀ name, .key name ∈ segments → (Segment.key name).IsPart) :
    ∀ segment ∈ segments, segment.IsPart := by
  intro segment hsegment
  cases segment with
  | key name => exact h name hsegment
  | index i => exact Segment.isPart_index i
  | wildcard => exact Segment.isPart_wildcard

/-- No wildcard is read where there is none. -/
theorem wildcard_not_mem_reread (hplain : .wildcard ∉ segments)
    (h : ∀ name, .key name ∈ segments → name ≠ Segment.wildcardText) :
    .wildcard ∉ segments.map Segment.reread := by
  intro hwildcard
  obtain ⟨segment, hsegment, hreread⟩ := List.mem_map.1 hwildcard
  have htext := Segment.reread_eq_wildcard_iff.1 hreread
  cases segment with
  | key name => exact h name hsegment htext
  | index i => exact Segment.indexText_ne_wildcardText i htext
  | wildcard => exact hplain hsegment

/-- Texts that can stand between points are told by their joined text. -/
theorem joined_inj (hne : segments ≠ []) (hne' : others ≠ [])
    (h : ∀ segment ∈ segments, segment.IsPart) (h' : ∀ segment ∈ others, segment.IsPart) :
    joined segments = joined others ↔ segments.map Segment.text = others.map Segment.text := by
  refine ⟨fun heq => ?_, fun heq => by rw [joined, heq, joined]⟩
  have parts := splitDots_joined hne h
  rw [heq, splitDots_joined hne' h'] at parts
  have texts := congrArg (List.map String.ofList) parts
  simpa only [List.map_map, Function.comp_def, String.ofList_toList] using texts.symm

/-- What is read for the text of segments is written as this text unless some key has a spare zero. -/
theorem text_reread_iff (hne : segments ≠ []) (h : ∀ segment ∈ segments, segment.IsPart)
    (hindex : ∀ i, .index i ∈ segments → i < 2 ^ 64) :
    text ⟨segments.map Segment.reread⟩ = joined segments ↔
      ∀ name, .key name ∈ segments → Segment.hasSpareZero name = false := by
  have parts : ∀ segment ∈ segments.map Segment.reread, segment.IsPart := by
    intro segment hsegment
    obtain ⟨old, hold, rfl⟩ := List.mem_map.1 hsegment
    exact (h old hold).reread
  rw [text, joined_inj (by simpa using hne) hne parts h, List.map_map, List.map_inj_left]
  constructor
  · exact fun hsame name hname => Segment.text_reread_key_iff.1 (hsame (.key name) hname)
  · intro hkeys segment hsegment
    cases segment with
    | key name => exact Segment.text_reread_key_iff.2 (hkeys name hsegment)
    | index i => exact congrArg Segment.text (Segment.reread_index (hindex i hsegment))
    | wildcard => rfl

theorem step?_object {fields : Fields} {segment : Segment} (h : segment ≠ .wildcard) :
    step? (.object fields) segment = (Value.object fields).field? segment.text := by
  cases segment with
  | key name => rfl
  | index i => rfl
  | wildcard => exact absurd rfl h

/-- A path that is read for segments and written as they are leads where they do. -/
theorem Leads.follow?_reread {v x : Value} (h : Leads v segments x) (hv : v.Canonical)
    (hplain : .wildcard ∉ segments.map Segment.reread)
    (hindex : ∀ i, .index i ∈ segments → i < 2 ^ 64)
    (hkeys : ∀ name, .key name ∈ segments → Segment.hasSpareZero name = false) :
    follow? (segments.map Segment.reread) v = some x := by
  induction h with
  | here => rfl
  | @key fields name w x rest hfield _ ih =>
    rw [List.map_cons, List.mem_cons, not_or] at hplain
    have found : (Value.object fields).field? name = some w := (Keyed.mem_iff_get? hv.1).1 hfield
    have same := Segment.text_reread_key_iff.2 (hkeys name List.mem_cons_self)
    rw [List.map_cons, follow?, step?_object (Ne.symm hplain.1), same, found, Option.bind_some]
    exact ih (hv.field hfield) hplain.2 (fun i hi => hindex i (List.mem_cons_of_mem _ hi))
      fun name hname => hkeys name (List.mem_cons_of_mem _ hname)
  | @index items i w x rest hitem _ ih =>
    rw [List.map_cons, List.mem_cons, not_or] at hplain
    rw [List.map_cons, Segment.reread_index (hindex i List.mem_cons_self), follow?, step?, hitem,
      Option.bind_some]
    exact ih (hv.item (List.mem_of_getElem? hitem)) hplain.2
      (fun i hi => hindex i (List.mem_cons_of_mem _ hi))
      fun name hname => hkeys name (List.mem_cons_of_mem _ hname)
  | wildcard => exact absurd List.mem_cons_self hplain

end Path

end RecordStore
