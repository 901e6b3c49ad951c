import RecordStore.Double.Shortest
import RecordStore.Value

/-!
# The text of a value

`Value.text` writes a value as compact JSON: no spaces, characters as themselves except for the
quote, the backslash and the control characters below U+0020, integers in full and doubles as their
shortest decimals.
-/

namespace RecordStore

/-! ## Strings -/

/-- A lower-case hexadecimal digit. -/
def hexDigit (n : Nat) : Char := Nat.digitChar n

/-- A character inside a JSON string. -/
def escapeChar (c : Char) : List Char :=
  match c with
  | '"' => ['\\', '"']
  | '\\' => ['\\', '\\']
  | '\x08' => ['\\', 'b']
  | '\x0c' => ['\\', 'f']
  | '\n' => ['\\', 'n']
  | '\r' => ['\\', 'r']
  | '\t' => ['\\', 't']
  | c =>
    if c.toNat < 32 then ['\\', 'u', '0', '0', hexDigit (c.toNat / 16), hexDigit (c.toNat % 16)]
    else [c]

def quotedText (s : String) : List Char := '"' :: (s.toList.flatMap escapeChar ++ ['"'])

/-! ## Numbers -/

def intText (n : Int) : List Char :=
  if n < 0 then '-' :: Nat.toDigits 10 n.natAbs else Nat.toDigits 10 n.natAbs

/-- The text of a number, which shows its form. -/
def Number.text : Number → List Char
  | .int n => intText n
  | .double d => d.text

/-! ## Values -/

namespace Value

mutual

def text : Value → List Char
  | .null => ['n', 'u', 'l', 'l']
  | .bool true => ['t', 'r', 'u', 'e']
  | .bool false => ['f', 'a', 'l', 's', 'e']
  | .number n => n.text
  | .string s => quotedText s
  | .array items => '[' :: (itemsText items ++ [']'])
  | .object fields => '\x7b' :: (fieldsText fields ++ ['\x7d'])
termination_by structural v => v

def itemsText : List Value → List Char
  | [] => []
  | [v] => v.text
  | v :: rest => v.text ++ ',' :: itemsText rest
termination_by structural items => items

def fieldsText : List (String × Value) → List Char
  | [] => []
  | [(k, v)] => quotedText k ++ ':' :: v.text
  | (k, v) :: rest => quotedText k ++ ':' :: (v.text ++ ',' :: fieldsText rest)
termination_by structural fields => fields

end

def render (v : Value) : String := String.ofList v.text

end Value

end RecordStore
