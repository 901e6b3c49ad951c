/-!
# Labels in path texts

The text of a path names a key between double quotes, and a backslash in it starts an escape as in
a string of JSON, with some further ones: `Label.codes` gives the numbers of the characters that a
label stands for. Escapes are resolved byte by byte and never refused; one that is unknown stands
for a number that is no character. `Label.names` compares a label with a key of an object: both end
at the first zero.
-/

namespace RecordStore

namespace Sql

namespace Label

/-! ## Escapes -/

/-- What an escape stands for that means nothing. -/
def unknown : Nat := 0x99999

/-- The value of a byte as a hexadecimal digit. A byte that is none has some value, too. -/
def digitValue (b : Nat) : Nat := (b + 9 * (b / 64 % 2)) % 16

/-- The number that some bytes denote as hexadecimal digits. -/
def hexNumber (bytes : List Nat) : Nat := bytes.foldl (fun n b => 16 * n + digitValue b) 0

def letter? : Nat → Option Nat
  | 0x62 => some 0x08
  | 0x66 => some 0x0c
  | 0x6e => some 0x0a
  | 0x72 => some 0x0d
  | 0x74 => some 0x09
  | 0x76 => some 0x0b
  | 0x30 => some 0
  | 0x27 => some 0x27
  | 0x22 => some 0x22
  | 0x2f => some 0x2f
  | 0x5c => some 0x5c
  | _ => none

/-- The first half of a surrogate pair. -/
def isHighSurrogate (n : Nat) : Bool := 0xd800 ≤ n && n < 0xdc00

/-- The second half of a surrogate pair. -/
def isLowSurrogate (n : Nat) : Bool := 0xdc00 ≤ n && n < 0xe000

/-- The character of two surrogates. -/
def paired (high low : Nat) : Nat := 0x10000 + (high - 0xd800) * 0x400 + (low - 0xdc00)

/-- What an escape stands for, given the bytes behind its backslash, and how many of them belong to
it. A line break is left out. -/
def escape : List Nat → List Nat × Nat
  | 0x75 :: a :: b :: c :: d :: rest =>
    let high := hexNumber [a, b, c, d]
    match rest with
    | 0x5c :: 0x75 :: e :: f :: g :: h :: _ =>
      let low := hexNumber [e, f, g, h]
      if isHighSurrogate high && isLowSurrogate low then ([paired high low], 11) else ([high], 5)
    | _ => ([high], 5)
  | 0x78 :: a :: b :: _ => ([hexNumber [a, b]], 3)
  | 0x0d :: 0x0a :: _ => ([], 2)
  | 0x0d :: _ => ([], 1)
  | 0x0a :: _ => ([], 1)
  | 0xe2 :: 0x80 :: 0xa8 :: _ => ([], 3)
  | 0xe2 :: 0x80 :: 0xa9 :: _ => ([], 3)
  | b :: rest =>
    if b = 0x75 ∨ b = 0x78 ∨ b = 0xe2 then ([unknown], 1 + rest.length)
    else ([(letter? b).getD unknown], 1)
  | [] => ([unknown], 0)

/-! ## Characters -/

/-- The low bits of the bytes that continue a character, put behind those of its first byte. -/
def continued (first : Nat) (bytes : List Nat) : Nat :=
  bytes.foldl (fun n b => 64 * n + b % 64) first

/-- The number of the character at the head of some bytes, and how many more bytes it takes. -/
def character (b : Nat) (rest : List Nat) : Nat × Nat :=
  if b < 0xc0 then (b, 0)
  else if b < 0xe0 then (continued (b % 32) (rest.take 1), 1)
  else if b < 0xf0 then (continued (b % 16) (rest.take 2), 2)
  else (continued (b % 8) (rest.take 3), 3)

/-- The numbers of the characters that some bytes stand for, after `skip` bytes that belong to the
character before. -/
def codesFrom : (skip : Nat) → List Nat → List Nat
  | _, [] => []
  | skip + 1, _ :: rest => codesFrom skip rest
  | 0, b :: rest =>
    if b = 0x5c then
      let (found, used) := escape rest
      found ++ codesFrom used rest
    else
      let (code, used) := character b rest
      code :: codesFrom used rest

/-- The numbers of the characters that a label stands for. -/
def codes (label : String) : List Nat :=
  if label.toList.contains '\\' then codesFrom 0 (label.toUTF8.toList.map UInt8.toNat)
  else label.toList.map Char.toNat

/-! ## Comparison -/

/-- The numbers before the first zero. -/
def untilZero (codes : List Nat) : List Nat := codes.takeWhile (· != 0)

def names (label key : String) : Bool :=
  untilZero (codes label) == untilZero (key.toList.map Char.toNat)

end Label

end Sql

end RecordStore
