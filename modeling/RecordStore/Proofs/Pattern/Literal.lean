import RecordStore.Document.Filter
import RecordStore.Pattern
import RecordStore.Text.Occurrence

/-!
# Literal patterns

The pattern `escapePattern s` reads as the sequence of the characters of `s`
(`parse?_escapePattern`), and searching for such a sequence is searching for the text
(`sequenceFound_literal`). The search keeps, for every initial part of the sequence, whether it ends
the text read so far (`endings`); one more character takes these flags to those of the longer text
(`advance_endings`).
-/

namespace RecordStore

theorem Document.escapePatternChars_cons (c : Char) (cs : List Char) :
    escapePatternChars (c :: cs) =
      (if patternMeta.contains c then ['\\', c] else [c]) ++ escapePatternChars cs := rfl

namespace Pattern

open Document

/-- The sequence of parts that match the characters of a text, one each. -/
def literal (cs : List Char) : List Part := cs.map fun c => ⟨.char c, []⟩

/-! ## Reading -/

/-- A character without a meaning of its own stands for itself. -/
theorem readFrom?_plain {c : Char} (h : c ∉ patternMeta) (others : List (List Part))
    (parts : List Part) (cs : List Char) :
    readFrom? others parts (c :: cs) = readFrom? others (⟨.char c, []⟩ :: parts) cs := by
  simp only [patternMeta, List.mem_cons, List.not_mem_nil, or_false, not_or] at h
  rw [readFrom?.eq_def]
  split <;> simp_all

theorem readFrom?_escaped {c : Char} (h : c ∈ patternMeta) (others : List (List Part))
    (parts : List Part) (cs : List Char) :
    readFrom? others parts ('\\' :: c :: cs) = readFrom? others (⟨.char c, []⟩ :: parts) cs := by
  have escapable : patternMeta.all isEscapable = true := by decide
  exact if_pos (List.all_eq_true.1 escapable c h)

theorem readFrom?_escapePatternChars (others : List (List Part)) (cs : List Char) :
    ∀ parts, readFrom? others parts (escapePatternChars cs) =
      some (((parts.reverse ++ literal cs) :: others).reverse) := by
  induction cs with
  | nil =>
    intro parts
    rw [literal, List.map_nil, List.append_nil]
    rfl
  | cons c cs ih =>
    intro parts
    rw [escapePatternChars_cons]
    split
    · next h =>
      have h : c ∈ patternMeta := by simpa using h
      rw [List.cons_append, List.cons_append, List.nil_append, readFrom?_escaped h, ih]
      simp [literal]
    · next h =>
      have h : c ∉ patternMeta := by simpa using h
      rw [List.cons_append, List.nil_append, readFrom?_plain h, ih]
      simp [literal]

theorem sequenceDepth_literal (cs : List Char) : sequenceDepth (literal cs) ≤ 1 := by
  have flat : ((literal cs).map fun part => part.operators.length).foldl max 0 = 0 := by
    induction cs with
    | nil => rfl
    | cons c cs ih => simpa [literal] using ih
  rw [sequenceDepth, flat]
  split <;> omega

/-- An escaped text reads as the pattern of its characters. -/
theorem parse?_escapePattern (s : String) :
    parse? (escapePattern s) = some ⟨[literal s.toList]⟩ := by
  have depth : (⟨[literal s.toList]⟩ : Pattern).depth ≤ depthLimit := by
    have bound := sequenceDepth_literal s.toList
    have single : (⟨[literal s.toList]⟩ : Pattern).depth = sequenceDepth (literal s.toList) := by
      simp [Pattern.depth]
    rw [single, depthLimit]
    omega
  simp [parse?, escapePattern, String.toList_ofList, readFrom?_escapePatternChars, depth]

/-! ## Searching -/

/-- For every way to put some characters of `rest` behind `front`, in order, whether the result ends
a text. -/
def endings (text front : List Char) : (rest : List Char) → List Bool
  | [] => [front.isSuffixOf text]
  | c :: rest => front.isSuffixOf text :: endings text (front ++ [c]) rest

theorem isComplete_endings (text front rest : List Char) :
    isComplete (endings text front rest) = (front ++ rest).isSuffixOf text := by
  have ne_nil : ∀ front rest, endings text front rest ≠ [] := by
    intro front rest
    cases rest <;> simp [endings]
  induction rest generalizing front with
  | nil => simp [endings, isComplete]
  | cons c rest ih =>
    have := ih (front ++ [c])
    rw [isComplete, List.getLastD_eq_getLast?] at this
    rw [isComplete, endings, List.getLastD_eq_getLast?, List.getLast?_cons_of_ne_nil (ne_nil _ _),
      this]
    simp

/-- Nothing but the empty text ends the empty text. -/
theorem begin_literal (atEnd : Bool) (front rest : List Char) :
    begin atEnd front.isEmpty (literal rest) = endings [] front rest := by
  have empty : ∀ l : List Char, l.isSuffixOf [] = l.isEmpty := by
    intro l
    rw [Bool.eq_iff_iff]
    simp
  induction rest generalizing front with
  | nil => simp [literal, begin, endings, empty]
  | cons c rest ih =>
    have := ih (front ++ [c])
    rw [show (front ++ [c]).isEmpty = false by simp] at this
    simp only [literal, List.map_cons, begin, endings, empty]
    simpa [literal, Part.canSkip, Atom.holdsAt] using this

theorem isSuffixOf_concat (front text : List Char) (c d : Char) :
    (front ++ [c]).isSuffixOf (text ++ [d]) = (front.isSuffixOf text && c == d) := by
  simp [List.isSuffixOf, List.isPrefixOf, Bool.and_comm]

/-- After one more character the flags are those of the longer text. -/
theorem advance_endings (c : Char) (atEnd : Bool) (text front rest : List Char)
    (moved reached : Bool) (h : (moved || reached) = front.isSuffixOf (text ++ [c])) :
    advance c atEnd moved reached (literal rest) (endings text front rest) =
      endings (text ++ [c]) front rest := by
  induction rest generalizing front moved reached with
  | nil => simp [literal, advance, endings, h]
  | cons d rest ih =>
    have next : ((front.isSuffixOf text && d == c) || false) =
        (front ++ [d]).isSuffixOf (text ++ [c]) := by
      rw [Bool.or_false, isSuffixOf_concat]
    have := ih (front ++ [d]) _ _ next
    simp only [literal, List.map_cons, endings, advance]
    simpa [literal, Part.canSkip, Part.canRepeat, Atom.holdsAt, Atom.accepts, h] using this

theorem completes_endings (needle cs text : List Char) :
    completes (literal needle) (endings text [] needle) cs = true ↔
      ∃ before after, cs = before ++ after ∧ needle <:+ text ++ before := by
  induction cs generalizing text with
  | nil =>
    rw [completes, isComplete_endings, List.nil_append, List.isSuffixOf_iff_suffix]
    simp
  | cons c cs ih =>
    have step := advance_endings c cs.isEmpty text [] needle false true (by simp)
    rw [completes, step, Bool.or_eq_true, ih, isComplete_endings, List.nil_append,
      List.isSuffixOf_iff_suffix]
    constructor
    · rintro (h | ⟨before, after, rfl, h⟩)
      · exact ⟨[], c :: cs, rfl, by simpa using h⟩
      · exact ⟨c :: before, after, rfl, by simpa using h⟩
    · rintro ⟨before, after, hcs, h⟩
      cases before with
      | nil => exact .inl (by simpa using h)
      | cons b before =>
        obtain ⟨rfl, rfl⟩ := List.cons.inj hcs
        exact .inr ⟨before, after, rfl, by simpa using h⟩

/-- Searching for the characters of a text finds it exactly where it occurs. -/
theorem sequenceFound_literal (needle cs : List Char) :
    sequenceFound (literal needle) cs = Text.occursIn needle cs := by
  rw [Bool.eq_iff_iff, sequenceFound, Text.occursIn_iff]
  have started := begin_literal cs.isEmpty [] needle
  rw [List.isEmpty_nil] at started
  rw [started, completes_endings]
  constructor
  · rintro ⟨before, after, rfl, front, h⟩
    exact ⟨front, after, by simpa using congrArg (· ++ after) h.symm⟩
  · rintro ⟨before, after, h⟩
    exact ⟨before ++ needle, after, h, by simp⟩

theorem foldedParts_literal (cs : List Char) :
    foldedParts (literal cs) = literal (cs.map Text.foldCase) := by
  simp [foldedParts, literal, Atom.folded]

end Pattern

/-- Whether a text holds another one, upper and lower case apart or not. -/
def Text.holds (needle : String) (caseSensitive : Bool) (s : String) : Bool :=
  if caseSensitive then occursIn needle.toList s.toList
  else occursIn (needle.toList.map foldCase) (s.toList.map foldCase)

/-- An escaped text is found exactly in the texts that hold it. -/
theorem Pattern.isFoundIn_literal (needle : String) (ignoreCase : Bool) (s : String) :
    (⟨[Pattern.literal needle.toList]⟩ : Pattern).isFoundIn ignoreCase s =
      Text.holds needle (!ignoreCase) s := by
  cases ignoreCase <;>
    simp [Pattern.isFoundIn, Text.holds, Pattern.foldedParts_literal, Pattern.sequenceFound_literal]

end RecordStore
