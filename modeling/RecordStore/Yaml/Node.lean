import RecordStore.Yaml.Token

/-!
# Nodes of configuration files

`Yaml.read?` builds the tree of a text from its tokens. A text holds one document at most. Items,
keys and values may be left out, and are empty scalars then.
-/

namespace RecordStore

namespace Yaml

inductive Node where
  | scalar (isPlain : Bool) (text : String)
  | sequence (items : List Node)
  | mapping (entries : List (Node × Node))
deriving Inhabited

def Node.empty : Node := .scalar true ""

/-! ## Flow collections -/

/-- Whether no node starts before some tokens, but one of the given marks stands there. -/
def isLeftOut (marks : List Token) : List Token → Bool
  | [] => false
  | t :: _ => marks.contains t

mutual

/-- A node, and the tokens after it. Block collections may not stand in flow collections. -/
def node? (inBlock : Bool) : (fuel : Nat) → List Token → Option (Node × List Token)
  | 0, _ => none
  | fuel + 1, tokens => match tokens with
    | .scalar isPlain text :: rest => some (.scalar isPlain text, rest)
    | .openBracket :: rest => do
      let (items, rest) ← flowItems? fuel rest
      some (.sequence items, rest)
    | .openBrace :: rest => do
      let (entries, rest) ← flowEntries? fuel rest
      some (.mapping entries, rest)
    | .blockSequence :: rest =>
      if inBlock then do
        let (items, rest) ← blockItems? fuel rest
        some (.sequence items, rest)
      else none
    | .blockMapping :: rest =>
      if inBlock then do
        let (entries, rest) ← blockEntries? fuel rest
        some (.mapping entries, rest)
      else none
    | _ => none

/-- A node in a flow collection that may be left out before some marks. -/
def flowNode? (marks : List Token) : (fuel : Nat) → List Token → Option (Node × List Token)
  | 0, _ => none
  | fuel + 1, tokens =>
    if isLeftOut marks tokens then some (.empty, tokens) else node? false fuel tokens

/-- The value after a key in a flow collection that ends with some mark. -/
def flowValue? (close : Token) : (fuel : Nat) → List Token → Option (Node × List Token)
  | 0, _ => none
  | fuel + 1, tokens => match tokens with
    | .value :: rest => flowNode? [.comma, close] fuel rest
    | tokens => some (.empty, tokens)

/-- The entries of a flow mapping up to its end. -/
def flowEntries? : (fuel : Nat) → List Token → Option (List (Node × Node) × List Token)
  | 0, _ => none
  | fuel + 1, tokens => match tokens with
    | .closeBrace :: rest => some ([], rest)
    | tokens => do
      let (entry, rest) ← match tokens with
        | .key :: rest => do
          let (key, rest) ← flowNode? [.value, .comma, .closeBrace] fuel rest
          let (value, rest) ← flowValue? .closeBrace fuel rest
          some ((key, value), rest)
        | tokens => do
          let (key, rest) ← node? false fuel tokens
          some ((key, .empty), rest)
      match rest with
      | .comma :: rest => do
        let (entries, rest) ← flowEntries? fuel rest
        some (entry :: entries, rest)
      | .closeBrace :: rest => some ([entry], rest)
      | _ => none

/-- The items of a flow sequence up to its end. An item with a key is a mapping. A key that is left
out there takes the token behind it along. -/
def flowItems? : (fuel : Nat) → List Token → Option (List Node × List Token)
  | 0, _ => none
  | fuel + 1, tokens => match tokens with
    | .closeBracket :: rest => some ([], rest)
    | tokens => do
      let (item, rest) ← match tokens with
        | .key :: rest => do
          let (key, rest) ←
            if isLeftOut [.value, .comma, .closeBracket] rest then some (.empty, rest.tail)
            else node? false fuel rest
          let (value, rest) ← flowValue? .closeBracket fuel rest
          some (.mapping [(key, value)], rest)
        | tokens => node? false fuel tokens
      match rest with
      | .comma :: rest => do
        let (items, rest) ← flowItems? fuel rest
        some (item :: items, rest)
      | .closeBracket :: rest => some ([item], rest)
      | _ => none

/-- The items of a block sequence up to its end. -/
def blockItems? : (fuel : Nat) → List Token → Option (List Node × List Token)
  | 0, _ => none
  | fuel + 1, tokens => match tokens with
    | .blockEnd :: rest => some ([], rest)
    | .dash :: rest => do
      let (item, rest) ←
        if isLeftOut [.dash, .blockEnd] rest then some (.empty, rest) else node? true fuel rest
      let (items, rest) ← blockItems? fuel rest
      some (item :: items, rest)
    | _ => none

/-- The items of a block sequence in the column of the mapping that it belongs to. -/
def alignedItems? : (fuel : Nat) → List Token → Option (List Node × List Token)
  | 0, _ => none
  | fuel + 1, tokens => match tokens with
    | .dash :: rest => do
      let (item, rest) ←
        if isLeftOut [.dash, .key, .value, .blockEnd] rest then some (.empty, rest)
        else node? true fuel rest
      let (items, rest) ← alignedItems? fuel rest
      some (item :: items, rest)
    | tokens => some ([], tokens)

/-- A key or a value in a block mapping, which may be left out. -/
def memberNode? : (fuel : Nat) → List Token → Option (Node × List Token)
  | 0, _ => none
  | fuel + 1, tokens =>
    if isLeftOut [.key, .value, .blockEnd] tokens then some (.empty, tokens)
    else if isLeftOut [.dash] tokens then do
      let (items, rest) ← alignedItems? fuel tokens
      some (.sequence items, rest)
    else node? true fuel tokens

/-- The entries of a block mapping up to its end. -/
def blockEntries? : (fuel : Nat) → List Token → Option (List (Node × Node) × List Token)
  | 0, _ => none
  | fuel + 1, tokens => match tokens with
    | .blockEnd :: rest => some ([], rest)
    | .key :: rest => do
      let (key, rest) ← memberNode? fuel rest
      let (value, rest) ← match rest with
        | .value :: rest => memberNode? fuel rest
        | rest => some (.empty, rest)
      let (entries, rest) ← blockEntries? fuel rest
      some ((key, value) :: entries, rest)
    | _ => none

end

/-! ## Documents -/

def document? : List Token → Option (Node × List Token)
  | [] => some (.empty, [])
  | .documentStart :: tokens =>
    if tokens.isEmpty || isLeftOut [.documentStart, .documentEnd] tokens then some (.empty, tokens)
    else node? true (3 * tokens.length + 3) tokens
  | tokens => node? true (3 * tokens.length + 3) tokens

/-- Reads a text. A text without tokens is an empty scalar, and only marks of its end may stand
after a document. -/
def read? (text : String) : Option Node := do
  let (node, rest) ← document? (← tokens? text)
  if rest.all (· == .documentEnd) then some node else none

end Yaml

end RecordStore
