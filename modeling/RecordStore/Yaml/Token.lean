import RecordStore.Yaml.Scalar

/-!
# Tokens of configuration files

`Yaml.tokens?` splits a text in a subset of YAML into tokens: scalars, the marks of flow
collections, and the marks of block collections, whose starts and ends follow from the columns
(`Layout`). That a token is a key shows only at the colon behind it, so tokens that may be keys are
remembered until then (`Candidate`). Comments leave no token. Anchors, aliases, tags, directives and
block scalars are refused.
-/

namespace RecordStore

namespace Yaml

inductive Token where
  | scalar (isPlain : Bool) (text : String)
  /-- The start of a sequence of lines with dashes. -/
  | blockSequence
  /-- The start of a mapping of lines with colons. -/
  | blockMapping
  | blockEnd
  | dash
  | key
  | value
  | comma
  | openBrace
  | closeBrace
  | openBracket
  | closeBracket
  | documentStart
  | documentEnd
deriving DecidableEq, Inhabited

/-- A token that is a key if a colon follows. -/
structure Candidate where
  position : Position
  before : Nat
  isRequired : Bool
deriving DecidableEq, Inhabited

/-- The greatest distance between the start of a key and its colon. -/
def maxKeyLength : Nat := 1024

/-- Whether a position is too far away for a colon: on another line, or behind too long a key. -/
def Candidate.isPast (k : Candidate) (p : Position) : Bool :=
  k.position.line < p.line || k.position.column + maxKeyLength < p.column

/-- What is known at a place in a text. -/
structure Layout where
  tokens : List Token
  count : Nat
  /-- The columns of the block collections around it, innermost first. -/
  indents : List Nat
  /-- What may be a key in the innermost flow collection, or in the block collections. -/
  candidate : Option Candidate
  /-- What may be a key in the collections around that, innermost first. -/
  outer : List (Option Candidate)
  keyAllowed : Bool
deriving DecidableEq, Inhabited

namespace Layout

/-- What is known at the start of a text. -/
def start : Layout := ⟨[], 0, [], none, [], true⟩

def inFlow (s : Layout) : Bool := !s.outer.isEmpty

def push (s : Layout) (t : Token) : Layout :=
  { s with tokens := t :: s.tokens, count := s.count + 1 }

/-- Says whether a key may start behind the last token. -/
def allowKey (s : Layout) (allowed : Bool) : Layout := { s with keyAllowed := allowed }

/-! ### Candidates -/

/-- Gives up the candidate, unless it has to be a key. -/
def giveUp? (s : Layout) : Option Layout :=
  if s.candidate.any Candidate.isRequired then none else some { s with candidate := none }

/-- Makes the next token a candidate if a key may start with it. The first token in the column of a
block collection has to be a key. -/
def propose? (s : Layout) (p : Position) : Option Layout :=
  if s.keyAllowed then do
    let isRequired := !s.inFlow && s.indents.head? == some p.column
    let s ← s.giveUp?
    some { s with candidate := some ⟨p, s.count, isRequired⟩ }
  else some s

/-- Drops a candidate that is too far away from a position, unless it has to be a key. -/
def current? (p : Position) : Option Candidate → Option (Option Candidate)
  | none => some none
  | some k =>
    if !k.isPast p then some (some k) else if k.isRequired then none else some none

/-- Drops all candidates that are too far away. -/
def dropPast? (s : Layout) (p : Position) : Option Layout := do
  let candidate ← current? p s.candidate
  let outer ← s.outer.mapM (current? p)
  some { s with candidate := candidate, outer := outer }

/-! ### Block collections -/

def opensBlock (s : Layout) (column : Nat) : Bool :=
  !s.inFlow && !s.indents.head?.any (column ≤ ·)

/-- Starts a block collection in a column unless it has started before. -/
def openBlock (s : Layout) (column : Nat) (t : Token) : Layout :=
  if s.opensBlock column then { s.push t with indents := column :: s.indents } else s

/-- Ends the block collections with columns that satisfy a condition. -/
def closeBlocks (s : Layout) (ends : Nat → Bool) : Layout :=
  if s.inFlow then s
  else
    let ended := (s.indents.takeWhile ends).length
    { s with
      tokens := List.replicate ended .blockEnd ++ s.tokens
      count := s.count + ended
      indents := s.indents.dropWhile ends }

/-! ### Marks -/

def documentMark? (s : Layout) (t : Token) : Option Layout := do
  let s ← (s.closeBlocks fun _ => true).giveUp?
  some ((s.allowKey false).push t)

/-- The layout behind the start of a flow collection. -/
def openFlow? (s : Layout) (p : Position) (t : Token) : Option Layout := do
  let s ← s.propose? p
  some (({ s with candidate := none, outer := s.candidate :: s.outer }.allowKey true).push t)

/-- The layout behind the end of a flow collection. -/
def closeFlow? (s : Layout) (t : Token) : Option Layout := do
  let s ← s.giveUp?
  some (({ s with candidate := s.outer.head?.join, outer := s.outer.tail }.allowKey false).push t)

def comma? (s : Layout) : Option Layout := do
  let s ← s.giveUp?
  some ((s.allowKey true).push .comma)

/-- The layout behind the mark of an item. -/
def dash? (s : Layout) (p : Position) : Option Layout := do
  if !s.inFlow && !s.keyAllowed then none
  else
    let s ← (s.openBlock p.column .blockSequence).giveUp?
    some ((s.allowKey true).push .dash)

def key? (s : Layout) (p : Position) : Option Layout := do
  if !s.inFlow && !s.keyAllowed then none
  else
    let s ← (s.openBlock p.column .blockMapping).giveUp?
    some ((s.allowKey !s.inFlow).push .key)

/-- Marks the candidate as a key, which may start a block mapping. -/
def withKey (s : Layout) (k : Candidate) : Layout :=
  let column := k.position.column
  let later := s.count - k.before
  let marks : List Token := if s.opensBlock column then [.key, .blockMapping] else [.key]
  { s with
    tokens := s.tokens.take later ++ marks ++ s.tokens.drop later
    count := s.count + marks.length
    indents := if s.opensBlock column then column :: s.indents else s.indents
    candidate := none }

def value? (s : Layout) (p : Position) : Option Layout :=
  match s.candidate with
  | some k => some (((s.withKey k).allowKey false).push .value)
  | none =>
    if !s.inFlow && !s.keyAllowed then none
    else some (((s.openBlock p.column .blockMapping).allowKey !s.inFlow).push .value)

/-! ### Tokens -/

def scalar? (s : Layout) (p : Position) : List Char → Option (Layout × Cursor)
  | [] => none
  | c :: cs => do
    let s ← s.propose? p
    let indent := (s.indents.head?.map (· + 1)).getD 0
    if c = '"' then
      let (text, behind) ← quoted? inDoubleQuotes? 0 .none (p.after c) cs
      some ((s.allowKey false).push (.scalar false (String.ofList text)), behind)
    else if c = '\'' then
      let (text, behind) ← quoted? inSingleQuotes? 0 .none (p.after c) cs
      some ((s.allowKey false).push (.scalar false (String.ofList text)), behind)
    else if startsPlain s.inFlow (c :: cs) then
      let (text, isBroken, behind) ← plain? s.inFlow indent .none p (c :: cs)
      some ((s.allowKey isBroken).push (.scalar true (String.ofList text)), behind)
    else none

/-- The layout behind a mark of one character, if the text starts with one. -/
def mark? (s : Layout) (p : Position) : List Char → Option (Option Layout)
  | [] => none
  | c :: cs => match c with
    | '[' => some (s.openFlow? p .openBracket)
    | ']' => some (s.closeFlow? .closeBracket)
    | '\x7b' => some (s.openFlow? p .openBrace)
    | '\x7d' => some (s.closeFlow? .closeBrace)
    | ',' => some s.comma?
    | '-' => if startsBlank cs then some (s.dash? p) else none
    | '?' => if s.inFlow || startsBlank cs then some (s.key? p) else none
    | ':' => if s.inFlow || startsBlank cs then some (s.value? p) else none
    | _ => none

def token? (s : Layout) : Cursor → Option (Layout × Cursor)
  | ⟨p, cs⟩ =>
    if isAtDocumentMark p cs then
      let t : Token := if cs.head? == some '-' then .documentStart else .documentEnd
      (s.documentMark? t).map fun s => (s, ⟨⟨p.line, p.column + 3⟩, cs.drop 3⟩)
    else match s.mark? p cs with
      | some layout? => layout?.map fun s => (s, ⟨⟨p.line, p.column + 1⟩, cs.tail⟩)
      | none => s.scalar? p cs

/-- Skips what leaves no token: spaces, line ends, comments, and tabs unless they could indent a
key. A byte order mark at the start of a line is skipped as well. -/
def skip (s : Layout) (inComment : Bool) : Position → List Char → Layout × Cursor
  | p, [] => (s, ⟨p, []⟩)
  | p, c :: cs =>
    if isBreak c then
      (if s.inFlow then s else s.allowKey true).skip false (p.after c) cs
    else if inComment || c == ' ' || (c == '\t' && (s.inFlow || !s.keyAllowed)) then
      s.skip inComment (p.after c) cs
    else if c == '#' then s.skip true (p.after c) cs
    else if c == '\ufeff' && p.column == 0 then s.skip false (p.after c) cs
    else (s, ⟨p, c :: cs⟩)

/-- The tokens of a text, of which a part has been read. -/
def tokens? : (fuel : Nat) → Layout → Cursor → Option (List Token)
  | 0, _, _ => none
  | fuel + 1, s, ⟨p, cs⟩ => do
    let (s, cursor) := s.skip false p cs
    let s ← s.dropPast? cursor.position
    let s := s.closeBlocks fun column => cursor.position.column < column
    if cursor.rest.isEmpty then
      let s ← (s.closeBlocks fun _ => true).giveUp?
      some s.tokens.reverse
    else
      let (s, cursor) ← s.token? cursor
      tokens? fuel s cursor

end Layout

def tokens? (text : String) : Option (List Token) :=
  if text.toList.all isPrintable then
    let cs := withLineFeeds text.toList
    Layout.start.tokens? (cs.length + 1) ⟨⟨0, 0⟩, cs⟩
  else none

end Yaml

end RecordStore
