import RecordStore.Text.Quoted
import RecordStore.Value.Text

/-!
# Errors of the store

`Invalid` lists why a request is refused before anything is written, `Clash` how a write violates
uniqueness, and `StoreError` joins them with the failures of a backend. The wording of each is in
`message`. That a record is not found is no error: such operations count zero records.
-/

namespace RecordStore

/-- Why a request is refused. -/
inductive Invalid where
  | emptyPath
  /-- Two points of the path adjoin, or one stands at an end. -/
  | emptySegment (path : String)
  | quoteInPath (path : String)
  | comparisonOperand (op field : String)
  /-- A bound of `between` is no number and no duration. -/
  | betweenBound (field : String)
  /-- `between` on a field has not exactly two bounds. -/
  | betweenArity (field : String)
  | listOperand (op field : String)
  /-- `like` has no string. -/
  | likeOperand (field : String)
  /-- `exists` has no boolean. -/
  | existsOperand (field : String)
  /-- An attribute is compared with something other than a string or a number. -/
  | attributeOperand (value : Value)
  /-- An attribute predicate has string and number operators. -/
  | mixedFamilies
  /-- `between` on an attribute has not exactly two bounds. -/
  | attributeBetween
  /-- A sort field names many values at once. -/
  | wildcardSort (field : String)
  | zeroPage
  | zeroLimit
  /-- The page lies beyond what 64 bits address. -/
  | pageRange
  | filterShape
  | topOperator (op : String)
  | logicalShape
  | fieldOperator (op : String)
  | membershipShape
  | patternShape
  | malformedPattern
  /-- An expression uses a variable that is not bound. -/
  | unboundVariable (name : String)
  /-- An operator that takes two arguments has another number of them. -/
  | twoArguments (op : String)
  | conditionParts
  /-- A positional condition has not three arguments. -/
  | conditionArity
  /-- A map expression lacks its input or its body. -/
  | mapParts
  /-- The elements to test are not given as an array. -/
  | elementsShape
  | fieldName
  | matchInput
  /-- A pattern is matched against something other than a string. -/
  | matchOperand
  | convertInput
  | convertTarget (target : String)
  | expressionOperator (op : String)
  | zeroBatch
  | zeroIndexBatch
  /-- A conflict key names many values at once. -/
  | wildcardKey (key : String)
  /-- Paths that the catalog does not know in a partition. -/
  | notIndexed (appId groupId tag : String) (paths : List String)
  | tableName (name : String)
  | other (reason : String)
deriving DecidableEq

/-- How a write violates the uniqueness of ids. -/
inductive Clash where
  /-- A document with the id exists, or the batch has the id twice. -/
  | duplicateId (id : String)
  | uniqueColumn (table column : String)
  /-- A clash that the caller words. -/
  | other (reason : String)
deriving DecidableEq

/-- Why a store operation fails. -/
inductive StoreError where
  | validation (reason : Invalid)
  /-- A write violates uniqueness. -/
  | conflict (clash : Clash)
  | backend (reason : String)
  /-- A stored record cannot be encoded or decoded. -/
  | serialization (reason : String)
deriving DecidableEq

def Invalid.message : Invalid → String
  | emptyPath => "field path must not be empty"
  | emptySegment path => "field path '" ++ path ++ "' contains an empty segment"
  | quoteInPath path => "field path '" ++ path ++ "' contains a double quote"
  | comparisonOperand op field =>
    "'" ++ op ++ "' on '" ++ field ++ "' needs a number or relative duration"
  | betweenBound field =>
    "between bounds on '" ++ field ++ "' must be numbers or relative durations"
  | betweenArity field => "between on '" ++ field ++ "' needs exactly two values"
  | listOperand op field => "'" ++ op ++ "' on '" ++ field ++ "' needs a list"
  | likeOperand field => "like on '" ++ field ++ "' needs a string"
  | existsOperand field => "exists on '" ++ field ++ "' needs a boolean"
  | attributeOperand value =>
    "metadata predicates take strings or numbers, got " ++ value.render
  | mixedFamilies => "metadata predicate mixes string and number operators"
  | attributeBetween => "between needs exactly two values"
  | wildcardSort field => "cannot sort by array-compressed path '" ++ field ++ "'"
  | zeroPage => "page must be at least 1"
  | zeroLimit => "limit must be at least 1"
  | pageRange => "page is out of range"
  | filterShape => "filter must be a document"
  | topOperator op => "unsupported top-level operator " ++ op
  | logicalShape => "logical operators take a list of filters"
  | fieldOperator op => "unsupported field operator " ++ op
  | membershipShape => "$in/$nin need a list"
  | patternShape => "$regex needs a string"
  | malformedPattern => "invalid $regex"
  | unboundVariable name => "undefined variable $$" ++ name
  | twoArguments op => op ++ " takes two arguments"
  | conditionParts => "$cond needs if/then/else"
  | conditionArity => "$cond needs three arguments"
  | mapParts => "$map needs input and in"
  | elementsShape => "$anyElementTrue needs an array"
  | fieldName => "$getField needs a field"
  | matchInput => "$regexMatch needs an input"
  | matchOperand => "$regexMatch needs a string input"
  | convertInput => "$convert needs an input"
  | convertTarget target => "$convert to " ++ target ++ " is not supported"
  | expressionOperator op => "unsupported expression operator " ++ op
  | zeroBatch => "batch size must be at least 1"
  | zeroIndexBatch => "index batch size must be at least 1"
  | wildcardKey key => "conflict key '" ++ key ++ "' cannot be array-compressed"
  | notIndexed appId groupId tag paths =>
    "fields are not indexed for " ++ appId ++ "/" ++ groupId ++ "/" ++ tag ++ ": " ++
      ", ".intercalate paths
  | tableName name => "Invalid table name: " ++ Text.quoted name
  | other reason => reason

def Clash.message : Clash → String
  | duplicateId id => "duplicate id " ++ id
  | uniqueColumn table column => "UNIQUE constraint failed: " ++ table ++ "." ++ column
  | other reason => reason

namespace StoreError

def message : StoreError → String
  | validation reason => "Validation error: " ++ reason.message
  | conflict clash => "Conflict: " ++ clash.message
  | backend reason => "Backend error: " ++ reason
  | serialization reason => "Serialization error: " ++ reason

/-- Whether the request itself is refused. -/
def isValidation : StoreError → Bool
  | validation _ => true
  | _ => false

def isConflict : StoreError → Bool
  | conflict _ => true
  | _ => false

end StoreError

def refuse {α : Type} (reason : Invalid) : Except StoreError α := .error (.validation reason)

end RecordStore
