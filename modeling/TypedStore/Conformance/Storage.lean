/-
Checks of storage: the tables and types are created, items are stored with every kind of value and
must come back as they were, alone, by column and as a list.
-/
import TypedStore.Conformance.Check
import TypedStore.Conformance.Items
import TypedStore.Registry.Loading

set_option autoImplicit false

namespace TypedStore.Conformance

variable {σ τ : Type}

/-! ## 1. Tables -/

/-- The statements that create the tables and types, one after the other. -/
def schemaStatements : List String :=
  ["DROP TABLE IF EXISTS progress_log, tracked_item CASCADE",
    "DROP TYPE IF EXISTS edition, platform, reading_status, dynamic_dto CASCADE",
    "CREATE TYPE reading_status AS ENUM ('PLANNED', 'READING_NOW', 'FINISHED', 'GAVE_UP')",
    "CREATE TYPE platform AS (name text, release_year int4, regions text[])",
    "CREATE TYPE edition AS (status reading_status, platforms platform[], published_on date)",
    "CREATE TYPE dynamic_dto AS (type_name text, payload jsonb)",
    "CREATE TABLE tracked_item (\n"
      ++ "    id bigserial PRIMARY KEY,\n"
      ++ "    title text NOT NULL UNIQUE,\n"
      ++ "    status reading_status NOT NULL,\n"
      ++ "    edition edition,\n"
      ++ "    tags text[] NOT NULL DEFAULT '\x7b\x7d',\n"
      ++ "    activity dynamic_dto\n"
      ++ ")\n",
    "CREATE TABLE progress_log (\n"
      ++ "    id bigserial PRIMARY KEY,\n"
      ++ "    item_id bigint NOT NULL REFERENCES tracked_item(id),\n"
      ++ "    amount int4 NOT NULL CHECK (amount > 0)\n"
      ++ ")\n"]

/-- Creates the tables and types. -/
def createSchema (subject : Subject σ τ) : Check σ Unit :=
  schemaStatements.forM fun sql => do
    let _ ← Check.expect "Could not create the test schema"
      (subject.store.execute subject.connection ⟨sql, []⟩)

/-- The registry of the types that the store has now. -/
def loadRegistry (subject : Subject σ τ) : Check σ Registry :=
  Check.expect "Could not load the type registry" (builder.loadBy subject.loadCatalog)

/-! ## 2. Steps -/

/-- Parameters from values. -/
def valueParams (values : List (String × Value)) : StepParams :=
  Dict.ofList (values.map fun (name, v) => (name, .value v))

/-- Runs a step on its own. -/
def session (subject : Subject σ τ) (r : Registry) (sql : String)
    (values : List (String × Value)) (form : StepForm) : Action σ StepResult :=
  runStep subject.store subject.connection r declarations ⟨sql, valueParams values, form⟩

/-- A whole number from a typed result. -/
def StepResult.int64? : StepResult → Option Int64
  | .scalar _ (.scalar (.int64 n)) => some n
  | _ => none

/-- An item from a mapped row. -/
def itemOf? : MappedRow → Option TrackedItem
  | .mapped _ x => TrackedItem.ofHost? x
  | .labeled _ => none

/-! ## 3. Items -/

/-- Stores an item; the store answers with its identity. -/
def insertItem : String :=
  "INSERT INTO tracked_item (title, status, edition, tags, activity)\n"
    ++ "VALUES (:title, :status, :edition, :tags, :activity)\n"
    ++ "RETURNING id\n"

/-- Stores an item and gives it the identity that the store chose. -/
def storeItem (subject : Subject σ τ) (r : Registry) (item : TrackedItem) :
    Check σ TrackedItem := do
  let result ← Check.expect "Could not insert a tracked item"
    (session subject r insertItem item.params (.scalar (.scalar .int64)))
  pure { item with id := (StepResult.int64? result).getD 0 }

/-- An item must come back as it was stored. -/
def checkLoaded (subject : Subject σ τ) (r : Registry) (item : TrackedItem) : Check σ Unit := do
  let result ← Check.expect "Could not read a tracked item back"
    (session subject r "SELECT * FROM tracked_item WHERE id = :id" [("id", .int64 item.id)]
      (.single (.mapped itemRow)))
  Check.ensure (match result with
    | .single (some row) => itemOf? row == some item
    | _ => false)

/-- Titles must come in order, chosen by a list of labels. -/
def checkTitles (subject : Subject σ τ) (r : Registry) : Check σ Unit := do
  let result ← Check.expect "Could not filter by status"
    (session subject r
      "SELECT title FROM tracked_item WHERE status = ANY(:statuses) ORDER BY title"
      [("statuses", .array [ReadingStatus.planned.toCell, ReadingStatus.abandoned.toCell])]
      (.scalarColumn (.scalar .text)))
  Check.ensure (match result with
    | .column _ titles => titles.mapM textOf? == some ["Dune", "Planned and nothing else"]
    | _ => false)

/-- A list of labels must come back as one cell. -/
def checkStatuses (subject : Subject σ τ) (r : Registry) : Check σ Unit := do
  let result ← Check.expect "Could not read an array of enums"
    (session subject r "SELECT array_agg(status ORDER BY title) FROM tracked_item" []
      (.scalar (.list (.declared statusPath))))
  Check.ensure (match result with
    | .scalar _ statuses =>
      listOf? ReadingStatus.ofHost? statuses == some [.abandoned, .planned, .readingNow]
    | _ => false)

/-- All items must come back as a list. -/
def checkAll (subject : Subject σ τ) (r : Registry) (items : List TrackedItem) : Check σ Unit := do
  let result ← Check.expect "Could not list the tracked items"
    (session subject r "SELECT * FROM tracked_item ORDER BY id" [] (.list (.mapped itemRow)))
  Check.ensure (match result with
    | .list rows => rows.mapM itemOf? == some items
    | _ => false)

/-- A placeholder inside a literal is none. -/
def checkLiteral (subject : Subject σ τ) (r : Registry) : Check σ Unit := do
  let result ← Check.expect "Placeholders inside literals must be left alone"
    (session subject r "UPDATE tracked_item SET tags = :tags WHERE title LIKE '%:title%'"
      [("tags", .array [])] .execute)
  Check.ensure (match result with
    | .count n => n == 0
    | _ => false)

/-- Items must survive the way to the store and back. -/
def checkStorage (subject : Subject σ τ) (r : Registry) : Check σ Unit := do
  let items ← sampleItems.mapM (storeItem subject r)
  items.forM (checkLoaded subject r)
  checkTitles subject r
  checkStatuses subject r
  checkAll subject r items
  checkLiteral subject r

end TypedStore.Conformance
