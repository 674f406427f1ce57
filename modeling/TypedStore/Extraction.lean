/-
Extraction turns the raw cells of a row into values of their store types: texts become labels, raw
records get the attribute names and the order of their types, records of tag and document become self
describing values, and arrays are walked. It is the way back from expansion. A failing field is
reported once for each record around it.
-/
import TypedStore.HostPath
import TypedStore.Registry.Basic
import TypedStore.Statement.Query
import TypedStore.Document.Reader
import TypedStore.Value.Weight

set_option autoImplicit false

namespace TypedStore.Extraction

open TypedStore.Text

/-! ## 1. Single cells -/

/-- A value of the wrong kind. -/
def wrongKind {α : Type} (target : String) (v : Value) : Except Error α :=
  .error (.valueConversionFailed target v.diagnostic)

/-- A label of an enumeration, from a label or a text. -/
def extractEnum (r : Registry) (typeName : String) (v : Value) : Except Error Value := do
  let definition ← r.enumDefinition typeName
  let label ← match v with
    | .enumeration _ label => pure label
    | .text s => pure s
    | v => wrongKind HostPath.enumValue v
  if definition.hasLabel label then pure (.enumeration definition.typeName label)
  else .error (.enumConversionFailed definition.typeName label)

/-- A document from a document, its text or NULL. -/
def documentOf (v : Value) : Except Error Document :=
  match v with
  | .document d => .ok d
  | .text s =>
    match Document.ofText? s with
    | some d => .ok d
    | none => .error (.serialization none)
  | .null => .ok .null
  | v => wrongKind HostPath.document v

/-- The tag and the raw document of a record, each by name or by position. -/
def tagAndPayload (typeName : String) (fields : List (String × Value)) :
    Except Error (String × Value) :=
  let (tag?, fields) := match takeFieldOrAt? dynamicTagAttribute 0 fields with
    | some (v, left) => (some v, left)
    | none => (none, fields)
  let (payload?, fields) := match takeFieldOrAt? dynamicPayloadAttribute 1 fields with
    | some (v, left) => (some v, left)
    | none => (none, fields)
  match tag?, payload? with
  | some (.text tag), some payload => .ok (tag, payload)
  | _, _ => wrongKind HostPath.dynamicValue (.record typeName fields)

/-- A self describing value, from one or from a record of tag and document. -/
def extractDynamic (r : Registry) (v : Value) : Except Error Value := do
  let (tag, content) ← match v with
    | .dynamic tag content => pure (tag, content)
    | .record typeName fields => do
      let (tag, payload) ← tagAndPayload typeName fields
      let document ← documentOf payload
      pure (tag, .payload document)
    | v => wrongKind HostPath.dynamicValue v
  let _ ← r.hostOfTag tag
  pure (.dynamic tag content)

/-! ## 2. Structured cells -/

/-- The name of the type that a record is built for. -/
def targetOf (definition : CompositeDefinition) : String := definition.host?.getD "Record"

/-- The type under which an item of an array is extracted. Arrays of several dimensions keep the
array's own type in each of them. -/
def itemType (r : Registry) (arrayType elementType : String) (v : Value) : String :=
  match v with
  | .array _ => if r.category elementType = .array then elementType else arrayType
  | _ => elementType

mutual

/-- Turns a raw cell into a value of its store type. -/
def extract (r : Registry) (typeName : String) (value : Value) : Except Error Value :=
  if value.isNull then .ok value
  else
    match r.category typeName with
    | .standard => .ok value
    | .enumeration => extractEnum r typeName value
    | .dynamic => extractDynamic r value
    | .composite => do
      let definition ← r.compositeDefinition typeName
      match value with
      | .record _ fields =>
        if fields.length ≠ definition.attributes.length then
          .error (.wrongFieldNumberInComposite definition.typeName definition.attributes.length
            fields.length)
        else
          let fields ← extractFields r definition 0 definition.attributes fields
          pure (.record definition.typeName fields)
      | v => wrongKind HostPath.record v
    | .array =>
      match r.arrayElement? typeName with
      | none => .error (.pgTypeNotFound typeName)
      | some elementType =>
        match value with
        | .array items => (extractItems r typeName elementType items).map .array
        | v => wrongKind (HostPath.list HostPath.value) v
termination_by (value.weight, 0)
decreasing_by
  all_goals simp only [Prod.lex_def, Value.weight]; omega

/-- Turns the items of an array into values. -/
def extractItems (r : Registry) (arrayType elementType : String) (items : List Value) :
    Except Error (List Value) :=
  match items with
  | [] => .ok []
  | v :: rest => do
    let first ← extract r (itemType r arrayType elementType v) v
    let others ← extractItems r arrayType elementType rest
    pure (first :: others)
termination_by (Value.itemsWeight items, 0)
decreasing_by
  all_goals simp only [Prod.lex_def, Value.itemsWeight]; omega

/-- Turns fields into attributes from a position on, each taken by name or else by position. -/
def extractFields (r : Registry) (definition : CompositeDefinition) (position : Nat)
    (attributes : List (String × String)) (fields : List (String × Value)) :
    Except Error (List (String × Value)) :=
  match attributes with
  | [] => .ok []
  | (attr, attrType) :: others =>
    match _taken : takeFieldOrAt? attr position fields with
    | none => do
      let rest ← extractFields r definition (position + 1) others fields
      pure ((attr, .null) :: rest)
    | some (v, left) => do
      let first ← match extract r attrType v with
        | .ok v => pure v
        | .error e =>
          .error (Error.objectMappingFailed (targetOf definition) definition.typeName e)
      let rest ← extractFields r definition (position + 1) others left
      pure ((attr, first) :: rest)
termination_by (Value.fieldsWeight fields, attributes.length)
decreasing_by
  · simp [Prod.lex_def]
  all_goals
    have := weight_takeFieldOrAt? _taken
    simp only [Prod.lex_def, List.length_cons]
    omega

end

/-! ## 3. Rows -/

/-- Turns the cells of a row into values, up to the first that fails, which is named with its
position. Cells without a type pass through. -/
def extractCells (r : Registry) (types : List String) (position : Nat) :
    List Value → Except (Nat × Error) (List Value)
  | [] => .ok []
  | v :: rest => do
    let first ← match types[position]? with
      | none => pure v
      | some typeName =>
        match extract r typeName v with
        | .ok v => pure v
        | .error e => .error (position, e)
    let others ← extractCells r types (position + 1) rest
    pure (first :: others)

/-- Turns the cells of a row into values. -/
def extractRow (r : Registry) (row : Row) : Except Error Row :=
  match extractCells r row.types 0 row.values with
  | .ok values => .ok { row with values }
  | .error (_, e) => .error e

/-- What extraction of a row reports: the column that fails. -/
def rowNotes (r : Registry) (row : Row) : List LogRecord :=
  match extractCells r row.types 0 row.values with
  | .ok _ => []
  | .error (position, e) =>
    [.debug ("Column " ++ Error.cited (row.labels[position]?.getD "") ++ " of type "
      ++ Error.cited (row.types[position]?.getD "") ++ ": " ++ e.logText)]

end TypedStore.Extraction
