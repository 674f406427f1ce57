/-
Reading the types of a server. Three statements ask for the enumerations, composite types and arrays of
some schemas; the rows of one type stand together, so rows are grouped while the name stays the same.
-/
import TypedStore.Registry.Builder
import TypedStore.Server.Statement

set_option autoImplicit false

namespace TypedStore.Server

open TypedStore.Text TypedStore.Wire

/-! ## 1. Statements -/

/-- Asks for type names and labels, in the order of the labels. -/
def enumStatement : String :=
"SELECT t.typname::text, e.enumlabel::text
FROM pg_type t
JOIN pg_namespace n ON n.oid = t.typnamespace
JOIN pg_enum e ON e.enumtypid = t.oid
WHERE n.nspname::text = ANY($1::text[])
ORDER BY t.typname, e.enumsortorder
"

/-- Asks for type names, attributes and attribute types, in the order of the attributes. -/
def compositeStatement : String :=
"SELECT t.typname::text, a.attname::text, at.typname::text
FROM pg_type t
JOIN pg_namespace n ON n.oid = t.typnamespace
JOIN pg_class c ON c.oid = t.typrelid
JOIN pg_attribute a ON a.attrelid = c.oid
JOIN pg_type at ON at.oid = a.atttypid
WHERE n.nspname::text = ANY($1::text[])
  AND c.relkind = 'c'
  AND a.attnum > 0
  AND NOT a.attisdropped
ORDER BY t.typname, a.attnum
"

/-- Asks for type names and element types. -/
def arrayStatement : String :=
"SELECT t.typname::text, e.typname::text
FROM pg_type t
JOIN pg_namespace n ON n.oid = t.typnamespace
JOIN pg_type e ON e.oid = t.typelem
WHERE n.nspname::text = ANY($1::text[])
  AND t.typcategory = 'A'
"

/-! ## 2. Rows -/

/-- Names of the types that are texts for a client. -/
def textTypeNames : List String :=
  ["varchar", "text", "bpchar", "name", "unknown", "citext", "ltree", "lquery", "ltxtquery"]

/-- Whether a list of texts can be bound for a type. -/
def takesTexts : WireType → Bool
  | .array _ _ element => textTypeNames.contains element.name
  | _ => false

/-- The schemas as a parameter of the one type that a server answers. -/
def schemaCell? (types : List WireType) (schemas : List String) :
    Option (List (Option (List UInt8))) :=
  match types with
  | [t] =>
    if takesTexts t then encodeAll? types [.array (schemas.map Value.text)] else none
  | _ => none

/-- The texts of a row. -/
def textCells? (cells : List (Option (List UInt8))) : Option (List String) :=
  cells.mapM fun cell => cell.bind utf8Decode?

/-- Runs a statement about schemas for the texts of its rows. Whatever fails is told in the given
words. -/
def readTexts (at_ : ServerHandle) (sql : String) (schemas : List String) (failure : String) :
    Action ServerState (List (List String)) := do
  let s ← Action.state
  if !s.isAlive at_ then throw (.msg failure)
  send (prepareEvent sql [])
  let answer := s.peer.answer sql
  if answer.ending = .rejected then throw (.msg failure)
  match schemaCell? (answer.params?.getD []) schemas with
  | none => throw (.msg failure)
  | some cells => do
    send (runEvent cells)
    match answer.ending with
    | .severed => do
      breakOff at_
      throw (.msg failure)
    | .broken => throw (.msg failure)
    | _ =>
      match answer.rows.mapM textCells? with
      | none => throw (.msg failure)
      | some rows => pure rows

/-! ## 3. Catalogs -/

/-- Puts the values of neighbours with the same name together. -/
def groupNeighbours {α : Type} : List (String × α) → List (String × List α)
  | [] => []
  | (name, a) :: rest =>
    match groupNeighbours rest with
    | [] => [(name, [a])]
    | (next, group) :: others =>
      if name = next then (name, a :: group) :: others else (name, [a]) :: (next, group) :: others

/-- The first two texts of a row. -/
def pairOf (row : List String) : String × String := (row.headD "", (row.drop 1).headD "")

/-- A name with the pair behind it. -/
def attributeOf (row : List String) : String × String × String :=
  (row.headD "", pairOf (row.drop 1))

/-- The catalog that rows of the three statements describe. -/
def catalogOf (enums composites arrays : List (List String)) : Catalog :=
  ⟨groupNeighbours (enums.map pairOf), groupNeighbours (composites.map attributeOf),
    arrays.map pairOf⟩

/-- What reading a catalog reports. -/
def catalogNote (c : Catalog) (schemas : List String) : LogRecord :=
  .debug ("Read " ++ natText c.enums.length ++ " enums, " ++ natText c.composites.length
    ++ " composites and " ++ natText c.arrays.length ++ " arrays from schemas "
    ++ RegistryBuilder.quotedList schemas)

/-- Reads the types of schemas. -/
def loadCatalog (at_ : ServerHandle) (schemas : List String) : Action ServerState Catalog := do
  let enums ← readTexts at_ enumStatement schemas "While reading the enum types"
  let composites ← readTexts at_ compositeStatement schemas "While reading the composite types"
  let arrays ← readTexts at_ arrayStatement schemas "While reading the array types"
  let c := catalogOf enums composites arrays
  Action.note (catalogNote c schemas)
  pure c

end TypedStore.Server
