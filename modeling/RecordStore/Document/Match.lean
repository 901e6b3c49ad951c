import RecordStore.Document.Expression

/-!
# Documents that satisfy a filter

`Document.satisfies` evaluates a query document: the conditions of its fields, the logical operators
over lists of filters, and `$expr`. All of them have to hold; they are evaluated in key order up to
the first that does not.
-/

namespace RecordStore

namespace Document

mutual

def satisfies (document : Value) : (filter : Value) → Except StoreError Bool
  | .object clauses => satisfiesClauses document clauses
  | _ => refuse .filterShape
termination_by structural filter => filter

def satisfiesClauses (document : Value) : List (String × Value) → Except StoreError Bool
  | [] => .ok true
  | (key, condition) :: rest => do
    let holds ← match key with
      | "$and" => match condition with
        | .array filters => satisfiesAll document filters
        | _ => refuse .logicalShape
      | "$or" => match condition with
        | .array filters => satisfiesSome document filters
        | _ => refuse .logicalShape
      | "$nor" => match condition with
        | .array filters => (satisfiesSome document filters).map (!·)
        | _ => refuse .logicalShape
      | "$expr" => (Expression.evaluate condition document).map Value.isTrue
      | key =>
        if isOperator key then refuse (.topOperator key) else fieldHolds document key condition
    if holds then satisfiesClauses document rest else return false
termination_by structural clauses => clauses

/-- Whether a document satisfies all filters, up to the first that it does not. -/
def satisfiesAll (document : Value) : List Value → Except StoreError Bool
  | [] => .ok true
  | filter :: rest => do
    if ← satisfies document filter then satisfiesAll document rest else return false
termination_by structural filters => filters

/-- Whether a document satisfies some filter, up to the first that it does. -/
def satisfiesSome (document : Value) : List Value → Except StoreError Bool
  | [] => .ok false
  | filter :: rest => do
    if ← satisfies document filter then return true else satisfiesSome document rest
termination_by structural filters => filters

end

/-! ## Order -/

/-- The order of two documents by some keys; a missing value is null. -/
def compareBy (order : List (String × SortDirection)) (a b : Value) : Ordering :=
  match order with
  | [] => .eq
  | (key, direction) :: rest =>
    let value := fun (document : Value) => (document.lookup? key).getD .null
    let first := (value a).compare (value b)
    let first := match direction with
      | .asc => first
      | .desc => first.swap
    first.then (compareBy rest a b)

end Document

end RecordStore
