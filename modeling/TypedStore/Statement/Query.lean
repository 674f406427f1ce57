/-
Statements with parameters. Named placeholders become numbered ones: the distinct names are numbered
in order of first occurrence, each occurrence is replaced by its number, and the values are bound in
that order.
-/
import TypedStore.Statement.Token
import TypedStore.Value.Text

set_option autoImplicit false

namespace TypedStore

open TypedStore.Text TypedStore.Statement

/-! ## 1. Parameters -/

/-- Values by placeholder name. -/
abbrev Params := Dict Value

/-- A statement with numbered placeholders and the values bound to them. -/
structure Query where
  sql : String
  params : List Value

namespace Query

/-- Short form for messages: the statement, cut if long, and its parameters if it has any. -/
def display (q : Query) : String :=
  truncateLong q.sql ++ (if q.params.isEmpty then "" else " [" ++ formatParams q.params ++ "]")

/-! ## 2. Numbering -/

/-- The names without repetitions, in order of first occurrence. -/
def distinct : List String → List String
  | [] => []
  | name :: rest => name :: (distinct rest).filter (· != name)

/-- A token with placeholders numbered by position in `names`, from one on. -/
def numbered (names : List String) (t : Token) : List Char :=
  match t.name? with
  | some name => '$' :: (natText (names.idxOf name + 1)).toList
  | none => t.text

/-- The values of names, or the first name without one. -/
def valuesOf (params : Params) : List String → Except Error (List Value)
  | [] => .ok []
  | name :: rest =>
    match params.get? name with
    | none => .error (.missingParameter name)
    | some v => (valuesOf params rest).map (v :: ·)

/-- Numbers the placeholders of a statement and binds their values. Parameters that the text does not
mention are ignored. -/
def ofNamed (sql : String) (params : Params) : Except Error Query := do
  let ts := tokens sql
  let order := distinct (names ts)
  let values ← valuesOf params order
  pure ⟨String.ofList (ts.flatMap (numbered order)), values⟩

end Query

/-- What reading a statement reports: the dollar markers that are never closed. -/
def Statement.notes (sql : String) : List LogRecord :=
  (loneMarkers (tokens sql)).map fun marker =>
    .debug ("Dollar quoted block " ++ Error.cited marker ++ " is never closed")

/-! ## 3. Rows -/

/-- A row of a result: labels and values of its columns, and the store types of those that have
one, which come first. -/
structure Row where
  labels : List String
  types : List String
  values : List Value

namespace Row

/-- The index of the first column with a label. -/
def position? (row : Row) (label : String) : Option Nat :=
  row.labels.findIdx? (· == label)

/-- The value of a column. -/
def get? (row : Row) (label : String) : Option Value :=
  (row.position? label).bind fun i => row.values[i]?

/-- Takes the value of a column out and leaves NULL behind. -/
def take? (row : Row) (label : String) : Option (Value × Row) := do
  let i ← row.position? label
  let v ← row.values[i]?
  pure (v, { row with values := row.values.set i .null })

/-- Labels with values. -/
def columns (row : Row) : List (String × Value) := row.labels.zip row.values

end Row

end TypedStore
