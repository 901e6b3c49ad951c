/-!
# Places in a text

A `Cursor` is a place in a text, with its line and column and the characters from there on. Before a
text is read, its line ends become line feeds, except for the two separators of Unicode, which end
lines as well (`withLineFeeds`).
-/

namespace RecordStore

namespace Yaml

/-! ## Characters -/

/-- Whether a character may occur in a text at all. -/
def isPrintable (c : Char) : Bool :=
  let n := c.toNat
  n == 9 || n == 10 || n == 13 || (0x20 ≤ n && n ≤ 0x7e) || n == 0x85 ||
    (0xa0 ≤ n && n ≤ 0xfffd) || 0x10000 ≤ n

/-- Whether a character separates words on a line. -/
def isGap (c : Char) : Bool := c == ' ' || c == '\t'

def isBreak (c : Char) : Bool := c == '\n' || c == '\u2028' || c == '\u2029'

/-- A text with its line ends as line feeds. The separators of lines and paragraphs stay. -/
def withLineFeeds : List Char → List Char
  | [] => []
  | '\r' :: '\n' :: cs => '\n' :: withLineFeeds cs
  | c :: cs => (if c == '\r' || c == '\u0085' then '\n' else c) :: withLineFeeds cs

/-- Whether a text starts with a gap or a line end, or is empty. -/
def startsBlank : List Char → Bool
  | [] => true
  | c :: _ => isGap c || isBreak c

/-! ## Positions -/

/-- A line and a column, both counted from zero. -/
structure Position where
  line : Nat
  column : Nat
deriving DecidableEq, Inhabited

def Position.after (p : Position) (c : Char) : Position :=
  if isBreak c then ⟨p.line + 1, 0⟩ else ⟨p.line, p.column + 1⟩

/-- A place in a text, with the characters from there on. -/
structure Cursor where
  position : Position
  rest : List Char
deriving DecidableEq, Inhabited

/-! ## Documents -/

def documentMarks : List (List Char) := ["---".toList, "...".toList]

/-- Whether a mark between documents stands at a place: at the start of a line, and with nothing
right behind it. -/
def isAtDocumentMark (p : Position) (cs : List Char) : Bool :=
  p.column == 0 && documentMarks.contains (cs.take 3) && startsBlank (cs.drop 3)

end Yaml

end RecordStore
