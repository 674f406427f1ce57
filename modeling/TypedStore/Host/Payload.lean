/-
Payloads: the typed contents of self describing values. A payload is read from a document by its type
and written back as one. Records are read from objects, whose members are visited in key order, or
from arrays of their fields; members that no field asks for are ignored. The messages name the part
that does not fit and what was expected.
-/
import TypedStore.Document.Basic

set_option autoImplicit false

namespace TypedStore

open TypedStore.Text TypedStore.Number

/-! ## 1. Types -/

/-- The type of a payload. -/
inductive PayloadType where
  | bool
  | int32
  | int64
  | text
  /-- Any document. -/
  | document
  /-- Absent where the document says null or leaves a member out. -/
  | optional (inner : PayloadType)
  /-- Named fields. -/
  | record (name : String) (fields : List (String × PayloadType))
  /-- A map from pairs of integers to integers, read from a list of triples. Documents have no such
  keys, so only the empty map can be written. -/
  | cells

/-- A typed payload. -/
inductive Payload where
  | bool (b : Bool)
  | int (n : Int)
  | text (s : String)
  | document (d : Document)
  | absent
  | present (inner : Payload)
  | record (fields : List (String × Payload))
  | cells (entries : List ((Int × Int) × Int))

/-! ## 2. Reading -/

namespace Payload

/-- What a document is, for messages. -/
def found : Document → String
  | .null => "null"
  | .bool b => "boolean `" ++ (if b then "true" else "false") ++ "`"
  | .number (.integer n) => "integer `" ++ intText n ++ "`"
  | .number (.float x) => "floating point `" ++ x.text documentLayout ++ "`"
  | .string s => "string " ++ quoted s
  | .array _ => "sequence"
  | .object _ => "map"

/-- A document of the wrong kind. -/
def wrongType {α : Type} (d : Document) (expected : String) : Except String α :=
  .error ("invalid type: " ++ found d ++ ", expected " ++ expected)

/-- A list that is too short. -/
def tooShort {α : Type} (length : Nat) (expected : String) : Except String α :=
  .error ("invalid length " ++ natText length ++ ", expected " ++ expected)

/-- A list that is too long. -/
def tooLong {α : Type} (length : Nat) : Except String α :=
  .error ("invalid length " ++ natText length ++ ", expected fewer elements in array")

/-- An integer between bounds. -/
def readInt (low high : Int) (expected : String) (d : Document) : Except String Int :=
  match d with
  | .number (.integer n) =>
    if low ≤ n ∧ n ≤ high then .ok n
    else .error ("invalid value: integer `" ++ intText n ++ "`, expected " ++ expected)
  | d => wrongType d expected

/-- A four byte integer. -/
def readInt32 : Document → Except String Int := readInt (-0x80000000) 0x7fffffff "i32"

/-- One triple of a map. -/
def readTriple (d : Document) : Except String ((Int × Int) × Int) :=
  let expected := "a tuple of size 3"
  match d with
  | .array [] => tooShort 0 expected
  | .array [a] => do
    let _ ← readInt32 a
    tooShort 1 expected
  | .array [a, b] => do
    let _ ← readInt32 a
    let _ ← readInt32 b
    tooShort 2 expected
  | .array (a :: b :: c :: rest) => do
    let x ← readInt32 a
    let y ← readInt32 b
    let z ← readInt32 c
    if rest.isEmpty then pure ((x, y), z) else tooLong (3 + rest.length)
  | d => wrongType d expected

/-- Sets the value of a key of a map. -/
def setCell (entries : List ((Int × Int) × Int)) (entry : (Int × Int) × Int) :
    List ((Int × Int) × Int) :=
  entries.filter (·.1 != entry.1) ++ [entry]

/-- What a field takes when the document leaves it out. -/
def ofMissing (name : String) (t : PayloadType) : Except String Payload :=
  match t with
  | .optional _ => .ok .absent
  | _ => .error ("missing field `" ++ name ++ "`")

/-- What a record expects of a list of its fields. -/
def recordExpectation (name : String) (count : Nat) : String :=
  "struct " ++ name ++ " with " ++ natText count ++ (if count = 1 then " element" else " elements")

/-- The fields of a record from what was read of it, the others as missing. -/
def gather (read : List (String × Payload)) : List (String × PayloadType) →
    Except String (List (String × Payload))
  | [] => .ok []
  | (name, t) :: rest => do
    let first ← match read.find? (·.1 == name) with
      | some (_, p) => pure p
      | none => ofMissing name t
    let others ← gather read rest
    pure ((name, first) :: others)

mutual

/-- Reads a payload of a type. -/
def read (t : PayloadType) (d : Document) : Except String Payload :=
  match t with
  | .bool =>
    match d with
    | .bool b => .ok (.bool b)
    | d => wrongType d "a boolean"
  | .int32 => (readInt32 d).map .int
  | .int64 => (readInt (-0x8000000000000000) 0x7fffffffffffffff "i64" d).map .int
  | .text =>
    match d with
    | .string s => .ok (.text s)
    | d => wrongType d "a string"
  | .document => .ok (.document d)
  | .optional inner =>
    match d with
    | .null => .ok .absent
    | d => (read inner d).map .present
  | .record name fields =>
    match d with
    | .object members => do
      let values ← readMembers fields members
      let fields ← gather values fields
      pure (.record fields)
    | .array items => do
      let values ← readItems (recordExpectation name fields.length) 0 fields items
      if fields.length < items.length then tooLong items.length else pure (.record values)
    | d => wrongType d ("struct " ++ name)
  | .cells =>
    match d with
    | .array items => do
      let triples ← items.mapM readTriple
      pure (.cells (triples.foldl setCell []))
    | d => wrongType d "a sequence"
termination_by (sizeOf t, 0)

/-- Reads one member, if a field has its name. -/
def readMember (fields : List (String × PayloadType)) (key : String) (d : Document) :
    Except String (Option Payload) :=
  match fields with
  | [] => .ok none
  | (name, t) :: rest =>
    if name = key then (read t d).map some else readMember rest key d
termination_by (sizeOf fields, 0)

/-- Reads the members of an object that fields ask for, in their own order. -/
def readMembers (fields : List (String × PayloadType)) (members : List (String × Document)) :
    Except String (List (String × Payload)) :=
  match members with
  | [] => .ok []
  | (key, d) :: rest => do
    let first ← readMember fields key d
    let others ← readMembers fields rest
    match first with
    | some p => pure ((key, p) :: others)
    | none => pure others
termination_by (sizeOf fields, sizeOf members)

/-- Reads fields from a list, in order. -/
def readItems (expected : String) (index : Nat) (fields : List (String × PayloadType))
    (items : List Document) : Except String (List (String × Payload)) :=
  match fields, items with
  | [], _ => .ok []
  | _ :: _, [] => tooShort index expected
  | (name, t) :: others, d :: rest => do
    let first ← read t d
    let values ← readItems expected (index + 1) others rest
    pure ((name, first) :: values)
termination_by (sizeOf fields, 0)

end

/-! ## 3. Writing -/

mutual

/-- The document of a payload, or why there is none. -/
def write : Payload → Except String Document
  | .bool b => .ok (.bool b)
  | .int n => .ok (.number (.integer n))
  | .text s => .ok (.string s)
  | .document d => .ok d
  | .absent => .ok .null
  | .present inner => inner.write
  | .record fields => do
    let members ← writeFields fields
    pure (Document.ofMembers members)
  | .cells entries =>
    if entries.isEmpty then .ok (.object [("cells", .object [])])
    else .error "key must be a string"

/-- The members of a record's document. -/
def writeFields : List (String × Payload) → Except String (List (String × Document))
  | [] => .ok []
  | (name, p) :: rest => do
    let first ← p.write
    let others ← writeFields rest
    pure ((name, first) :: others)

end

end Payload

end TypedStore
