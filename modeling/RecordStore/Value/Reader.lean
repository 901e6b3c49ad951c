import RecordStore.Numeral
import RecordStore.Value

/-!
# Reading values

`Value.read?` reads one JSON text. It refuses what JSON refuses (leading zeros, control characters
in strings, lone surrogates, anything after the value but white space), numbers too large for a
double, and nesting of more than 127 levels. Of several fields with one key the last counts.
-/

namespace RecordStore

namespace Value

/-! ## Strings -/

def hexValue? (c : Char) : Option Nat :=
  if '0' ≤ c ∧ c ≤ '9' then some (c.toNat - '0'.toNat)
  else if 'a' ≤ c ∧ c ≤ 'f' then some (c.toNat - 'a'.toNat + 10)
  else if 'A' ≤ c ∧ c ≤ 'F' then some (c.toNat - 'A'.toNat + 10)
  else none

/-- The number that four hexadecimal digits denote. -/
def hexWord? (a b c d : Char) : Option Nat := do
  some ((((← hexValue? a) * 16 + (← hexValue? b)) * 16 + (← hexValue? c)) * 16 + (← hexValue? d))

/-- The character that a one-letter escape stands for. -/
def escaped? : Char → Option Char
  | '"' => some '"'
  | '\\' => some '\\'
  | '/' => some '/'
  | 'b' => some '\x08'
  | 'f' => some '\x0c'
  | 'n' => some '\n'
  | 'r' => some '\r'
  | 't' => some '\t'
  | _ => none

def surrogatePair? (high low : Nat) : Option Char :=
  if 0xd800 ≤ high ∧ high < 0xdc00 ∧ 0xdc00 ≤ low ∧ low < 0xe000 then
    some (Char.ofNat (0x10000 + (high - 0xd800) * 0x400 + (low - 0xdc00)))
  else none

/-- Puts a character in front of what is read after it. -/
def consChar (c : Char) : Option (List Char × List Char) → Option (List Char × List Char)
  | some (cs, rest) => some (c :: cs, rest)
  | none => none

/-- The characters up to the closing quote, and the text after it. -/
def readString? : List Char → Option (List Char × List Char)
  | [] => none
  | '"' :: rest => some ([], rest)
  | '\\' :: 'u' :: a :: b :: c :: d :: rest =>
    match hexWord? a b c d with
    | none => none
    | some word =>
      if word < 0xd800 ∨ 0xe000 ≤ word then consChar (Char.ofNat word) (readString? rest)
      else match rest with
        | '\\' :: 'u' :: e :: f :: g :: h :: rest =>
          match (hexWord? e f g h).bind (surrogatePair? word) with
          | some character => consChar character (readString? rest)
          | none => none
        | _ => none
  | '\\' :: c :: rest =>
    match escaped? c with
    | some character => consChar character (readString? rest)
    | none => none
  | c :: rest => if c.toNat < 32 then none else consChar c (readString? rest)

/-! ## Values -/

def skipSpace (cs : List Char) : List Char := cs.dropWhile Numeral.isSpace

/-- The most levels of arrays and objects that a text may open. -/
def maxDepth : Nat := 127

mutual

/-- One value at the head of a text, with at most `depth` levels. -/
def readValue (depth : Nat) : (fuel : Nat) → List Char → Option (Value × List Char)
  | 0, _ => none
  | fuel + 1, cs =>
    match skipSpace cs with
    | 'n' :: 'u' :: 'l' :: 'l' :: rest => some (.null, rest)
    | 't' :: 'r' :: 'u' :: 'e' :: rest => some (.bool true, rest)
    | 'f' :: 'a' :: 'l' :: 's' :: 'e' :: rest => some (.bool false, rest)
    | '"' :: rest => (readString? rest).map fun (s, rest) => (.string (String.ofList s), rest)
    | '[' :: rest =>
      if depth = 0 then none
      else match skipSpace rest with
        | ']' :: rest => some (.array [], rest)
        | rest => (readItems (depth - 1) fuel rest).map fun (items, rest) => (.array items, rest)
    | '\x7b' :: rest =>
      if depth = 0 then none
      else match skipSpace rest with
        | '\x7d' :: rest => some (.object [], rest)
        | rest => (readFields (depth - 1) fuel rest).map fun (fields, rest) =>
          (.ofFields fields, rest)
    | rest => do
      let (numeral, rest) ← Numeral.scan? rest
      some (.number (← numeral.number?), rest)

/-- The elements of an array and its closing bracket. -/
def readItems (depth : Nat) : (fuel : Nat) → List Char → Option (List Value × List Char)
  | 0, _ => none
  | fuel + 1, cs =>
    match readValue depth fuel cs with
    | none => none
    | some (v, rest) =>
      match skipSpace rest with
      | ',' :: rest => (readItems depth fuel rest).map fun (items, rest) => (v :: items, rest)
      | ']' :: rest => some ([v], rest)
      | _ => none

/-- The fields of an object and its closing brace. -/
def readFields (depth : Nat) : (fuel : Nat) → List Char → Option (Fields × List Char)
  | 0, _ => none
  | fuel + 1, cs =>
    match skipSpace cs with
    | '"' :: rest =>
      match readString? rest with
      | none => none
      | some (key, rest) =>
        match skipSpace rest with
        | ':' :: rest =>
          match readValue depth fuel rest with
          | none => none
          | some (v, rest) =>
            let field := (String.ofList key, v)
            match skipSpace rest with
            | ',' :: rest =>
              (readFields depth fuel rest).map fun (fields, rest) => (field :: fields, rest)
            | '\x7d' :: rest => some ([field], rest)
            | _ => none
        | _ => none
    | _ => none

end

/-- The value that a text denotes. Two steps are taken per character at most, which bounds the
recursion. -/
def read? (text : String) : Option Value :=
  let cs := text.toList
  match readValue maxDepth (2 * cs.length + 2) cs with
  | some (v, rest) => if rest.all Numeral.isSpace then some v else none
  | none => none

end Value

end RecordStore
