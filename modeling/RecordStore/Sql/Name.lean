/-!
# Names of tables

Names go into statements as they are, so a table is only ever named by an identifier
(`Sql.isIdentifier`). Not every identifier names a table: words of the language itself do not, and
SQLite keeps some names for itself (`Sql.isReserved`). Names are the same whatever their case.
-/

namespace RecordStore

namespace Sql

/-! ## Identifiers -/

/-- Whether a character may stand anywhere in an identifier but at its start. -/
def isIdentifierRest (c : Char) : Bool := c.isAlphanum || c == '_'

/-- Whether a name is an identifier: ASCII letters, digits and underscores, not led by a digit. -/
def isIdentifier (name : String) : Bool :=
  match name.toList with
  | [] => false
  | c :: cs => (c.isAlpha || c == '_') && cs.all isIdentifierRest

def sameName (a b : String) : Bool := a.toLower == b.toLower

/-! ## Names that are not free -/

/-- The words of the language that cannot name a table. -/
def reservedWords : List String := [
  "add", "all", "alter", "and", "as", "autoincrement", "between", "case", "check", "collate",
  "commit", "constraint", "create", "default", "deferrable", "delete", "distinct", "drop", "else",
  "escape", "except", "exists", "foreign", "from", "group", "having", "if", "in", "index",
  "insert", "intersect", "into", "is", "isnull", "join", "limit", "not", "nothing", "notnull",
  "null", "on", "or", "order", "primary", "references", "returning", "select", "set", "table",
  "then", "to", "transaction", "union", "unique", "update", "using", "values", "when", "where"]

/-- The beginning of the names that SQLite keeps for itself. -/
def reservedStart : String := "sqlite_"

/-- Whether an identifier cannot name a table. -/
def isReserved (name : String) : Bool :=
  reservedWords.any (sameName name) || reservedStart.toList.isPrefixOf name.toLower.toList

/-- The table whose rows are the elements of an array. -/
def elementsTable : String := "json_each"

/-- What an insertion calls the row that it cannot insert. -/
def insertedRow : String := "excluded"

end Sql

end RecordStore
