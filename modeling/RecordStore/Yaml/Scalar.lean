import RecordStore.Value.Reader
import RecordStore.Yaml.Cursor

/-!
# Scalars

A scalar is plain or stands in quotes, and may go over several lines. Lines are folded (`Gap`): one
line end becomes a space, of several ones the first is left out, and the blanks around them do not
count. `quoted?` and `plain?` read a scalar and find the place behind it.
-/

namespace RecordStore

namespace Yaml

/-! ## Folding -/

/-- What stands between two words of a scalar. -/
inductive Gap where
  | blanks (cs : List Char)
  /-- Line ends, of which the first has been escaped if it is missing. -/
  | breaks (first : Option Char) (others : List Char)
deriving DecidableEq, Inhabited

namespace Gap

def none : Gap := blanks []

/-- Whether the gap goes to another line. -/
def isBroken : Gap → Bool
  | blanks _ => false
  | breaks _ _ => true

def blank (c : Char) : Gap → Gap
  | blanks cs => blanks (cs ++ [c])
  | broken => broken

def lineEnd (c : Char) : Gap → Gap
  | blanks _ => breaks (some c) []
  | breaks first others => breaks first (others ++ [c])

def text : Gap → List Char
  | blanks cs => cs
  | breaks (some '\n') [] => [' ']
  | breaks (some '\n') others => others
  | breaks (some c) others => c :: others
  | breaks Option.none others => others

end Gap

/-! ## Scalars in quotes -/

def hexNumber? (digits : List Char) : Option Nat :=
  digits.foldlM (fun n c => (Value.hexValue? c).map (16 * n + ·)) 0

/-- The character that a one-letter escape stands for. -/
def escaped? : Char → Option Char
  | '0' => some '\x00'
  | 'a' => some '\x07'
  | 'b' => some '\x08'
  | 't' => some '\t'
  | '\t' => some '\t'
  | 'n' => some '\n'
  | 'v' => some '\x0b'
  | 'f' => some '\x0c'
  | 'r' => some '\r'
  | 'e' => some '\x1b'
  | ' ' => some ' '
  | '"' => some '"'
  | '/' => some '/'
  | '\\' => some '\\'
  | 'N' => some '\u0085'
  | '_' => some '\u00a0'
  | 'L' => some '\u2028'
  | 'P' => some '\u2029'
  | _ => none

/-- How many hexadecimal digits an escape takes. -/
def escapeDigits? : Char → Option Nat
  | 'x' => some 2
  | 'u' => some 4
  | 'U' => some 8
  | _ => none

def character? (n : Nat) : Option Char := if n.isValidChar then some (Char.ofNat n) else none

/-- What stands next in a scalar in quotes. -/
inductive Piece where
  | closingQuote
  /-- A line end that is left out. -/
  | escapedBreak
  /-- A character, and how many characters it takes besides the one that stands there. -/
  | character (c : Char) (more : Nat)

/-- What an escape stands for, given what is behind its backslash. -/
def escape? : List Char → Option Piece
  | [] => none
  | c :: cs =>
    if isBreak c then some .escapedBreak
    else match escapeDigits? c with
      | some count =>
        if cs.length < count then none
        else ((hexNumber? (cs.take count)).bind character?).map (.character · (count + 1))
      | none => (escaped? c).map (.character · 1)

/-- What stands next in a scalar between double quotes. -/
def inDoubleQuotes? : List Char → Option Piece
  | [] => none
  | '"' :: _ => some .closingQuote
  | '\\' :: cs => escape? cs
  | c :: _ => some (.character c 0)

/-- What stands next in a scalar between single quotes. A quote is written twice. -/
def inSingleQuotes? : List Char → Option Piece
  | [] => none
  | '\'' :: '\'' :: _ => some (.character '\'' 1)
  | '\'' :: _ => some .closingQuote
  | c :: _ => some (.character c 0)

/-- The text of a scalar in quotes and the place behind it. The first `skip` characters have been
read already, and `gap` stands before the others. No mark between documents may stand inside. -/
def quoted? (next? : List Char → Option Piece) :
    (skip : Nat) → (gap : Gap) → Position → List Char → Option (List Char × Cursor)
  | _, _, _, [] => none
  | skip + 1, gap, p, c :: cs => quoted? next? skip gap (p.after c) cs
  | 0, gap, p, c :: cs =>
    if isGap c then quoted? next? 0 (gap.blank c) (p.after c) cs
    else if isBreak c then quoted? next? 0 (gap.lineEnd c) (p.after c) cs
    else if isAtDocumentMark p (c :: cs) then none
    else do match ← next? (c :: cs) with
      | .closingQuote => some (gap.text, ⟨p.after c, cs⟩)
      | .escapedBreak =>
        let (text, behind) ← quoted? next? 1 (.breaks none []) (p.after c) cs
        some (gap.text ++ text, behind)
      | .character found more =>
        let (text, behind) ← quoted? next? more .none (p.after c) cs
        some (gap.text ++ found :: text, behind)

/-! ## Plain scalars -/

/-- The characters with a meaning of their own at the start of a token. -/
def indicators : List Char := "-?:,[]{}#&*!|>'\"%@`".toList

def flowMarks : List Char := [',', '[', ']', '\x7b', '\x7d']

def startsPlain (inFlow : Bool) : List Char → Bool
  | [] => false
  | c :: cs =>
    !(isGap c || isBreak c || indicators.contains c) || (c == '-' && !startsBlank cs) ||
      (!inFlow && (c == '?' || c == ':') && !startsBlank cs)

/-- Whether a plain scalar ends before a text: at a colon with a blank behind it, and in a flow
collection at a mark. -/
def endsPlain (inFlow : Bool) : List Char → Bool
  | [] => true
  | c :: cs => (c == ':' && startsBlank cs) || (inFlow && flowMarks.contains c)

/-- Whether a text starts with a colon that a plain scalar in a flow collection may not hold: one
with a mark or a question mark right behind it. -/
def startsWithBareColon : List Char → Bool
  | ':' :: c :: _ => c == '?' || flowMarks.contains c
  | _ => false

/-- Whether a plain scalar ends at a gap, given what is behind the gap: a comment, a mark between
documents, or a line of a collection around the one that the scalar belongs to. -/
def endsAtGap (inFlow : Bool) (indent : Nat) (gap : Gap) (p : Position) (cs : List Char) : Bool :=
  gap != .none &&
    (cs.head? == some '#' || isAtDocumentMark p cs || (!inFlow && p.column < indent))

/-- The text of a plain scalar, whether its end is on another line than the place behind it, and
that place. Lines of the scalar are indented by at least `indent` columns, and not with tabs. -/
def plain? (inFlow : Bool) (indent : Nat) :
    (gap : Gap) → Position → List Char → Option (List Char × Bool × Cursor)
  | gap, p, [] => some ([], gap.isBroken, ⟨p, []⟩)
  | gap, p, c :: cs =>
    if isGap c then
      if gap.isBroken && p.column < indent && c == '\t' then none
      else plain? inFlow indent (gap.blank c) (p.after c) cs
    else if isBreak c then plain? inFlow indent (gap.lineEnd c) (p.after c) cs
    else if endsAtGap inFlow indent gap p (c :: cs) then
      some ([], gap.isBroken, ⟨p, c :: cs⟩)
    else if inFlow && startsWithBareColon (c :: cs) then none
    else if endsPlain inFlow (c :: cs) then some ([], gap.isBroken, ⟨p, c :: cs⟩)
    else do
      let (text, isBroken, behind) ← plain? inFlow indent .none (p.after c) cs
      some (gap.text ++ c :: text, isBroken, behind)

end Yaml

end RecordStore
