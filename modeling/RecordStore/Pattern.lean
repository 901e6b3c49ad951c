import RecordStore.Text.CaseFold

/-!
# Patterns

The patterns by which texts are searched: alternatives, each a sequence of parts, where a part is a
character, an arbitrary character other than a line feed or an end of the text, and may be followed
by operators of repetition. `Pattern.parse?` reads one; grouping, classes and counted repetition are
no part of the language, and an operator with nothing to repeat is an error, as is nesting beyond a
limit. `Pattern.isFoundIn` searches a text in one pass: after each character it knows before which
parts of a sequence the text read so far may stop (`Pattern.advance`).
-/

namespace RecordStore

namespace Pattern

/-- What a part matches once. -/
inductive Atom where
  | char (c : Char)
  /-- Any character but a line feed. -/
  | any
  | start
  | finish
deriving DecidableEq, Inhabited

/-- How often a part matches. -/
inductive Operator where
  | star
  | plus
  | optional
deriving DecidableEq, Inhabited

/-- A part of a sequence: an atom with the operators behind it, the last one first. -/
structure Part where
  atom : Atom
  operators : List Operator
deriving DecidableEq, Inhabited

def Part.canSkip (part : Part) : Bool := part.operators.any (· != .plus)

def Part.canRepeat (part : Part) : Bool := part.operators.any (· != .optional)

end Pattern

structure Pattern where
  alternatives : List (List Pattern.Part)
deriving DecidableEq, Inhabited

namespace Pattern

/-! ## Reading -/

/-- Whether a backslash in front makes a character stand for itself. -/
def isEscapable (c : Char) : Bool :=
  c.toNat < 128 && !c.isAlphanum && c != '<' && c != '>'

/-- Adds an operator to the last part of a sequence. -/
def repeatLast? (operator : Operator) : List Part → Option (List Part)
  | [] => none
  | last :: earlier => some ({ last with operators := operator :: last.operators } :: earlier)

/-- Reads alternatives: `others` are those before the present one and `parts` are the parts that are
read of it, the last ones first. A question mark behind an operator prefers short matches, which
makes no difference to whether there is one. -/
def readFrom? (others : List (List Part)) (parts : List Part) :
    List Char → Option (List (List Part))
  | [] => some ((parts.reverse :: others).reverse)
  | '\\' :: c :: cs =>
    if isEscapable c then readFrom? others (⟨.char c, []⟩ :: parts) cs else none
  | '*' :: '?' :: cs => do readFrom? others (← repeatLast? .star parts) cs
  | '+' :: '?' :: cs => do readFrom? others (← repeatLast? .plus parts) cs
  | '?' :: '?' :: cs => do readFrom? others (← repeatLast? .optional parts) cs
  | c :: cs =>
    match c with
    | '|' => readFrom? (parts.reverse :: others) [] cs
    | '*' => do readFrom? others (← repeatLast? .star parts) cs
    | '+' => do readFrom? others (← repeatLast? .plus parts) cs
    | '?' => do readFrom? others (← repeatLast? .optional parts) cs
    | '^' => readFrom? others (⟨.start, []⟩ :: parts) cs
    | '$' => readFrom? others (⟨.finish, []⟩ :: parts) cs
    | '.' => readFrom? others (⟨.any, []⟩ :: parts) cs
    | '\\' | '(' | ')' | '[' | '\x7b' => none
    | c => readFrom? others (⟨.char c, []⟩ :: parts) cs

/-- How deeply the operators of a sequence are nested, where a sequence of several parts counts as
one level. -/
def sequenceDepth (parts : List Part) : Nat :=
  (if 1 < parts.length then 1 else 0) +
    (parts.map fun part => part.operators.length).foldl max 0

/-- How deeply a pattern is nested, where several alternatives count as one level. -/
def depth (p : Pattern) : Nat :=
  (if 1 < p.alternatives.length then 1 else 0) +
    (p.alternatives.map sequenceDepth).foldl max 0

def depthLimit : Nat := 250

def parse? (text : String) : Option Pattern := do
  let p : Pattern := ⟨← readFrom? [] [] text.toList⟩
  if p.depth ≤ depthLimit then some p else none

/-! ## Searching -/

def Atom.accepts (c : Char) : Atom → Bool
  | char d => d == c
  | any => c != '\n'
  | start => false
  | finish => false

/-- Whether an atom matches the empty text at a place, which may be the start or the end. -/
def Atom.holdsAt (atStart atEnd : Bool) : Atom → Bool
  | char _ => false
  | any => false
  | start => atStart
  | finish => atEnd

/-- The places of a sequence after which a text may go on, before any character: one flag for each
part, which tells whether all parts before it may match the empty text, and one for the end. -/
def begin (atEnd : Bool) : (reached : Bool) → List Part → List Bool
  | reached, [] => [reached]
  | reached, part :: parts =>
    reached :: begin atEnd (reached && (part.canSkip || part.atom.holdsAt true atEnd)) parts

/-- The places after a character. `moved` tells whether the character was matched by the part before
the first one, `reached` whether that part may be passed without a character; a match may begin
everywhere. -/
def advance (c : Char) (atEnd : Bool) :
    (moved reached : Bool) → List Part → List Bool → List Bool
  | moved, reached, part :: parts, flag :: flags =>
    let accepted := flag && part.atom.accepts c
    let here := moved || reached || (accepted && part.canRepeat)
    here :: advance c atEnd accepted (here && (part.canSkip || part.atom.holdsAt false atEnd))
      parts flags
  | moved, reached, _, _ => [moved || reached]

/-- Whether a match may end at the present place. -/
def isComplete (flags : List Bool) : Bool := flags.getLastD false

/-- Whether a match ends at the present place or after more of the text. -/
def completes (parts : List Part) (flags : List Bool) : List Char → Bool
  | [] => isComplete flags
  | c :: cs =>
    isComplete flags || completes parts (advance c cs.isEmpty false true parts flags) cs

/-- Whether some part of a text matches a sequence. -/
def sequenceFound (parts : List Part) (cs : List Char) : Bool :=
  completes parts (begin cs.isEmpty true parts) cs

/-- An atom with its character in the form that stands for all case variants. -/
def Atom.folded : Atom → Atom
  | char c => char (Text.foldCase c)
  | atom => atom

/-- A sequence with its characters in the form that stands for all case variants. -/
def foldedParts (parts : List Part) : List Part :=
  parts.map fun part => { part with atom := part.atom.folded }

/-- Whether a pattern matches somewhere in a text, case apart if it does not matter. -/
def isFoundIn (p : Pattern) (ignoreCase : Bool) (text : String) : Bool :=
  if ignoreCase then
    let folded := text.toList.map Text.foldCase
    p.alternatives.any fun parts => sequenceFound (foldedParts parts) folded
  else p.alternatives.any fun parts => sequenceFound parts text.toList

end Pattern

end RecordStore
