/-
Texts of values. The display form is close to the statement language and appears in messages and logs
of parameters; the diagnostic form names the kind of every part and appears where a value has the
wrong kind.
-/
import TypedStore.Value.Basic

set_option autoImplicit false

namespace TypedStore

open TypedStore.Number TypedStore.Calendar TypedStore.Text

/-! ## 1. Display -/

/-- A text between single quotes. -/
def singleQuoted (s : String) : String := "'" ++ s ++ "'"

/-- Writes every single quote twice. -/
def doubleQuotes (s : String) : String :=
  String.ofList (s.toList.flatMap fun c => if c = '\'' then ['\'', '\''] else [c])

/-- The name of a truth value. -/
def boolText (b : Bool) : String := if b then "true" else "false"

namespace Value

mutual

/-- The display form of a value. -/
def display : Value → String
  | .null => "NULL"
  | .boolean b => boolText b
  | .int16 n => intText n.toInt
  | .int32 n => intText n.toInt
  | .int64 n => intText n.toInt
  | .float32 x => x.text plainLayout
  | .float64 x => x.text plainLayout
  | .decimal d => d.text
  | .text s => singleQuoted (doubleQuotes s)
  | .blob bytes => "<" ++ natText bytes.length ++ " bytes>"
  | .date d => singleQuoted d.text
  | .time t => singleQuoted t.text
  | .timestamp t => singleQuoted t.text
  | .zoned t => singleQuoted t.text
  | .uuid u => singleQuoted u.text
  | .document d => singleQuoted d.text
  | .enumeration typeName label => singleQuoted label ++ "::" ++ typeName
  | .record typeName fields => "ROW(" ++ joinParts ", " (displayFields fields) ++ ")::" ++ typeName
  | .dynamic tag (.failure _) => "<" ++ tag ++ ": unserializable>"
  | .dynamic tag (.payload d) => "<" ++ tag ++ ": " ++ d.text ++ ">"
  | .array items => "ARRAY[" ++ joinParts ", " (displayItems items) ++ "]"

/-- The display forms of the items of an array. -/
def displayItems : List Value → List String
  | [] => []
  | v :: rest => v.display :: displayItems rest

/-- The display forms of the fields of a record. -/
def displayFields : List (String × Value) → List String
  | [] => []
  | (_, v) :: rest => v.display :: displayFields rest

end

/-! ## 2. Diagnostics -/

/-- A kind and what it holds. -/
def kindText (kind content : String) : String := kind ++ "(" ++ content ++ ")"

/-- The diagnostic form of a self describing value's content. -/
def contentDiagnostic : DynamicContent → String
  | .payload d => "payload: " ++ d.diagnostic ++ ", failure: None"
  | .failure message => "payload: Null, failure: Some(" ++ quoted message ++ ")"

mutual

/-- The diagnostic form of a value. -/
def diagnostic : Value → String
  | .null => "Null"
  | .boolean b => kindText "Boolean" (boolText b)
  | .int16 n => kindText "Int16" (intText n.toInt)
  | .int32 n => kindText "Int32" (intText n.toInt)
  | .int64 n => kindText "Int64" (intText n.toInt)
  | .float32 x => kindText "Float32" (x.text diagnosticLayout)
  | .float64 x => kindText "Float64" (x.text diagnosticLayout)
  | .decimal d => kindText "Decimal" d.text
  | .text s => kindText "Varchar" (quoted s)
  | .blob bytes =>
    kindText "Blob" ("[" ++ ", ".intercalate (bytes.map fun b => natText b.toNat) ++ "]")
  | .date d => kindText "Date" d.text
  | .time t => kindText "Time" t.text
  | .timestamp t => kindText "Timestamp" t.text
  | .zoned t => kindText "TimestampWithTimezone" t.text
  | .uuid u => kindText "Uuid" u.text
  | .document d => kindText "Json" d.diagnostic
  | .enumeration typeName label =>
    kindText "Enum" ("EnumValue \x7b type_name: " ++ quoted typeName ++ ", label: " ++ quoted label
      ++ " \x7d")
  | .record typeName fields =>
    kindText "Composite" ("Record \x7b type_name: " ++ quoted typeName ++ ", fields: ["
      ++ ", ".intercalate (fieldDiagnostics fields) ++ "] \x7d")
  | .dynamic tag content =>
    kindText "Dynamic" ("DynamicValue \x7b tag: " ++ quoted tag ++ ", " ++ contentDiagnostic content
      ++ " \x7d")
  | .array items => kindText "Array" ("[" ++ ", ".intercalate (itemDiagnostics items) ++ "]")

/-- The diagnostic forms of the items of an array. -/
def itemDiagnostics : List Value → List String
  | [] => []
  | v :: rest => v.diagnostic :: itemDiagnostics rest

/-- The diagnostic forms of the fields of a record. -/
def fieldDiagnostics : List (String × Value) → List String
  | [] => []
  | (k, v) :: rest => ("(" ++ quoted k ++ ", " ++ v.diagnostic ++ ")") :: fieldDiagnostics rest

end

end Value

/-! ## 3. Parameters -/

/-- Numbered parameters for messages, from `$1` on. -/
def formatParams (params : List Value) : String :=
  joinParts ", " (params.mapIdx fun i v => "$" ++ natText (i + 1) ++ " = " ++ v.display)

end TypedStore
