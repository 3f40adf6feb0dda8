import ReleaseNotes.Journal
import ReleaseNotes.Query.Setting
import ReleaseNotes.Text.Percent

/-!
Queries in the language JQL. A query holds one clause for each field, in the order in which the
fields were first set, and an order for the results. A filter takes the place of all of it.
-/

namespace ReleaseNotes.Jql

open Text Query

/-- What a clause restricts. A single fix version and a list of them are separate clauses. -/
inductive Field where
  | project
  | fixVersion
  | listed (field : ListField)
deriving DecidableEq, Repr

def Field.name : Field → String
  | .project => "project"
  | .fixVersion | .listed .fixVersion => "fixVersion"
  | .listed .status => "status"
  | .listed .resolution => "resolution"
  | .listed .priority => "priority"
  | .listed .issueType => "type"
  | .listed .component => "component"

/-- The values that a field may have. They are trimmed. -/
inductive Condition where
  | equals (value : String)
  | oneOf (values : List String)
deriving DecidableEq, Repr

structure Clause where
  field : Field
  condition : Condition
deriving DecidableEq, Repr

structure Query where
  filter : String
  urlEncoded : Bool
  clauses : List Clause
  order : List SortColumn
deriving DecidableEq, Repr

def reservedWords : List String :=
  [ "abort", "access", "add", "after", "alias", "all", "alter", "and", "any", "as", "asc",
    "audit", "avg", "before", "begin", "between", "boolean", "break", "by", "byte", "catch", "cf",
    "char", "character", "check", "checkpoint", "collate", "collation", "column", "commit",
    "connect", "continue", "count", "create", "current", "date", "decimal", "declare",
    "decrement", "default", "defaults", "define", "delete", "delimiter", "desc", "difference",
    "distinct", "divide", "do", "double", "drop", "else", "empty", "encoding", "end", "equals",
    "escape", "exclusive", "exec", "execute", "exists", "explain", "false", "fetch", "file",
    "field", "first", "float", "for", "from", "function", "go", "goto", "grant", "greater",
    "group", "having", "identified", "if", "immediate", "in", "increment", "index", "initial",
    "inner", "inout", "input", "insert", "int", "integer", "intersect", "intersection", "into",
    "is", "isempty", "isnull", "join", "last", "left", "less", "like", "limit", "lock", "long",
    "max", "min", "minus", "mode", "modify", "modulo", "more", "multiply", "next", "noaudit",
    "not", "notin", "nowait", "null", "number", "object", "of", "on", "option", "or", "order",
    "outer", "output", "power", "previous", "prior", "privileges", "public", "raise", "raw",
    "remainder", "rename", "resource", "return", "returns", "revoke", "right", "row", "rowid",
    "rownum", "rows", "select", "session", "set", "share", "size", "sqrt", "start", "strict",
    "string", "subtract", "sum", "synonym", "table", "then", "to", "trans", "transaction",
    "trigger", "true", "uid", "union", "unique", "update", "user", "validate", "values", "view",
    "when", "whenever", "where", "while", "with" ]

def isReserved (value : String) : Bool :=
  reservedWords.contains (lowercase value)

/-- A value that the language would misread stands in quotes. -/
def quoted (value : String) : String :=
  if value.toList.contains ' ' || value.toList.contains '.' || isReserved value then
    "\"" ++ value ++ "\""
  else value

def Condition.text : Condition → String
  | .equals value => " = " ++ quoted value
  | .oneOf values => " in (" ++ joinWith ", " (values.map quoted) ++ ")"

def Clause.text (clause : Clause) : String :=
  clause.field.name ++ clause.condition.text

def columnText (column : SortColumn) : String :=
  column.name ++ if column.descending then " DESC" else " ASC"

def usableColumns (text : String) : List SortColumn :=
  ((sortColumns text).filter fun column => column.name != "").map fun column =>
    ⟨String.ofList (column.name.toList.filter (· != ' ')), column.descending⟩

/-- Replaces the clause of the same field in its place, or adds a clause at the end. -/
def setClause (clause : Clause) : List Clause → List Clause
  | [] => [clause]
  | first :: rest =>
    if first.field = clause.field then clause :: rest else first :: setClause clause rest

namespace Query

def empty : Query := ⟨"", true, [], []⟩

/-- Restricts a field to values. Without any value the query stays as it is. -/
def restrict (query : Query) (field : ListField) (values : List String) : Query :=
  if values = [] then query
  else { query with clauses := setClause ⟨.listed field, .oneOf values⟩ query.clauses }

def set (query : Query) : Setting → Query
  | .filter text => { query with filter := text }
  | .project name =>
    { query with clauses := setClause ⟨.project, .equals (trim name)⟩ query.clauses }
  | .fixVersion name =>
    { query with clauses := setClause ⟨.fixVersion, .equals (trim name)⟩ query.clauses }
  | .values field text => query.restrict field (commaList text)
  | .valueList field items => query.restrict field (trimmedItems items)
  | .sort columns => { query with order := usableColumns columns }
  | .urlEncode on => { query with urlEncoded := on }

def complaints : Setting → List Entry
  | .sort columns =>
    if usableColumns columns = [] then
      [⟨.error, s!"None of the sort columns `{columns}` can be used. Not sorting the query."⟩]
    else []
  | _ => []

def setAll (query : Query) (settings : List Setting) : Query :=
  settings.foldl set query

def structured (query : Query) : String :=
  joinWith " AND " (query.clauses.map Clause.text) ++
    if query.order = [] then ""
    else " ORDER BY " ++ joinWith ", " (query.order.map columnText)

def plain (query : Query) : String :=
  if query.filter = "" then query.structured else query.filter

def text (query : Query) : String :=
  if query.urlEncoded then percentEncode query.plain else query.plain

end Query

end ReleaseNotes.Jql
