/-
Values: the cells that statements take and rows give back. A cell is dynamically typed because the
store decides its type; structured cells (arrays, records, self describing values) contain further
cells. Records are accessed by field name, and taking a field out leaves NULL in its place.
-/
import TypedStore.Document.Basic
import TypedStore.Number.Decimal
import TypedStore.Calendar
import TypedStore.Error

set_option autoImplicit false

namespace TypedStore

open TypedStore.Number TypedStore.Calendar TypedStore.Text

/-! ## 1. Identifiers -/

/-- A universally unique identifier, sixteen bytes. -/
structure Uuid where
  bits : BitVec 128
deriving DecidableEq, Repr

/-- Lower case digits in groups of 8, 4, 4, 4 and 12. -/
def Uuid.text (u : Uuid) : String :=
  let digits := ((List.range 32).reverse.map fun i =>
    (Nat.toDigits 16 (u.bits.toNat / Nat.pow 16 i % 16)).headD '0')
  let group := fun (start size : Nat) => String.ofList ((digits.drop start).take size)
  "-".intercalate [group 0 8, group 8 4, group 12 4, group 16 4, group 20 12]

/-! ## 2. The type -/

/-- What a self describing value carries: a document, or the reason why there is none. The reason is
reported once the value is used. -/
inductive DynamicContent where
  | payload (d : Document)
  | failure (message : String)

/-- The document of a self describing value, or why it has none. -/
def DynamicContent.document : DynamicContent → Except Error Document
  | .payload d => .ok d
  | .failure message => .error (.serialization (some message))

/-- A cell. -/
inductive Value where
  | null
  | boolean (b : Bool)
  | int16 (n : Int16)
  | int32 (n : Int32)
  | int64 (n : Int64)
  | float32 (x : Binary32)
  | float64 (x : Binary64)
  | decimal (d : Decimal)
  | text (s : String)
  | blob (bytes : List UInt8)
  | date (d : Date)
  | time (t : Time)
  | timestamp (t : Timestamp)
  | zoned (t : ZonedTimestamp)
  | uuid (u : Uuid)
  | document (d : Document)
  | enumeration (typeName label : String)
  | record (typeName : String) (fields : List (String × Value))
  | dynamic (tag : String) (content : DynamicContent)
  | array (items : List Value)

instance : Inhabited Value := ⟨.null⟩

/-- What a type of the store is, which decides how its values travel. -/
inductive TypeCategory where
  | standard
  | enumeration
  | composite
  | array
  | dynamic
deriving DecidableEq, Repr

/-- The name of a category. -/
def TypeCategory.name : TypeCategory → String
  | .standard => "Standard"
  | .enumeration => "Enum"
  | .composite => "Composite"
  | .array => "Array"
  | .dynamic => "Dynamic"

namespace Value

/-- Whether the cell is NULL. -/
def isNull : Value → Bool
  | .null => true
  | _ => false

/-- Values that take several parameters instead of one. -/
def needsExpansion : Value → Bool
  | .array _ | .record _ _ | .dynamic _ _ => true
  | _ => false

/-- The store type a value has by itself, if it has one. -/
def storeType? : Value → Option String
  | .null | .array _ | .dynamic _ _ => none
  | .boolean _ => some "bool"
  | .int16 _ => some "int2"
  | .int32 _ => some "int4"
  | .int64 _ => some "int8"
  | .float32 _ => some "float4"
  | .float64 _ => some "float8"
  | .decimal _ => some "numeric"
  | .text _ => some "text"
  | .blob _ => some "bytea"
  | .date _ => some "date"
  | .time _ => some "time"
  | .timestamp _ => some "timestamp"
  | .zoned _ => some "timestamptz"
  | .uuid _ => some "uuid"
  | .document _ => some "jsonb"
  | .enumeration typeName _ => some typeName
  | .record typeName _ => some typeName

/-- The text that a value consists of: a text itself or the label of an enumeration. -/
def asText? : Value → Option String
  | .text s => some s
  | .enumeration _ label => some label
  | _ => none

end Value

/-! ## 3. Fields -/

/-- A named list of fields, names possibly repeated. -/
structure Record where
  typeName : String
  fields : List (String × Value)

instance : Inhabited Record := ⟨⟨"", []⟩⟩

/-- The cell holding a record. -/
def Value.ofRecord (r : Record) : Value := .record r.typeName r.fields

/-- The value of the first field of a name. -/
def fieldValue? (name : String) : List (String × Value) → Option Value
  | [] => none
  | (k, v) :: rest => if k = name then some v else fieldValue? name rest

/-- Leaves NULL in the first field of a name. -/
def blankField (name : String) : List (String × Value) → List (String × Value)
  | [] => []
  | (k, v) :: rest => if k = name then (k, .null) :: rest else (k, v) :: blankField name rest

/-- Takes the value of the first field of a name out. -/
def takeField? (name : String) (fields : List (String × Value)) :
    Option (Value × List (String × Value)) :=
  (fieldValue? name fields).map fun v => (v, blankField name fields)

/-- Leaves NULL in the field at a position. -/
def blankAt : Nat → List (String × Value) → List (String × Value)
  | _, [] => []
  | 0, (k, _) :: rest => (k, .null) :: rest
  | i + 1, field :: rest => field :: blankAt i rest

/-- Takes a field out by name, or by position where no field has the name. -/
def takeFieldOrAt? (name : String) (position : Nat) (fields : List (String × Value)) :
    Option (Value × List (String × Value)) :=
  match takeField? name fields with
  | some taken => some taken
  | none => (fields[position]?).map fun field => (field.2, blankAt position fields)

end TypedStore
