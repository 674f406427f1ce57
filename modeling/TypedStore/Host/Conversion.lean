/-
Conversion between cells and values of the program's types. Every type accepts the cells that its own
values bind to; integers accept other widths after a range check, decimal numbers and floating point
numbers accept some of each other, texts accept labels, and only optional types accept NULL. A failing
field of a record is reported as a failure to build the record.
-/
import TypedStore.Host.Type
import TypedStore.Extraction

set_option autoImplicit false

namespace TypedStore

open TypedStore.Text TypedStore.Number

/-! ## 1. Scalars -/

namespace ScalarType

/-- A value that a type does not accept. -/
def refuse {α : Type} (s : ScalarType) (shown : String) : Except Error α :=
  .error (.valueConversionFailed s.path shown)

/-- A two byte integer from a wider one. -/
def narrow16 (n : Int) : Except Error Value :=
  if -0x8000 ≤ n ∧ n < 0x8000 then .ok (.int16 (Int16.ofInt n))
  else refuse .int16 (intText n)

/-- A four byte integer from a wider one. -/
def narrow32 (n : Int) : Except Error Value :=
  if -0x80000000 ≤ n ∧ n < 0x80000000 then .ok (.int32 (Int32.ofInt n))
  else refuse .int32 (intText n)

theorem natAbs_lt_mantissaLimit {n : Int} (low : -0x8000000000000000 ≤ n)
    (high : n < 0x8000000000000000) :
    n.natAbs < mantissaLimit := by
  simp only [mantissaLimit]
  omega

/-- An eight byte integer as a decimal number. -/
def decimalOfInt64 (n : Int64) : Decimal :=
  Decimal.ofInt n.toInt
    (natAbs_lt_mantissaLimit (by simpa using Int64.le_toInt n) (by simpa using Int64.toInt_lt n))

/-- The cell that a scalar type makes of a cell. -/
def accept (s : ScalarType) (v : Value) : Except Error Value :=
  match s, v with
  | .bool, .boolean b => .ok (.boolean b)
  | .int16, .int16 n => .ok (.int16 n)
  | .int16, .int32 n => narrow16 n.toInt
  | .int16, .int64 n => narrow16 n.toInt
  | .int32, .int32 n => .ok (.int32 n)
  | .int32, .int16 n => .ok (.int32 n.toInt32)
  | .int32, .int64 n => narrow32 n.toInt
  | .int32, .decimal d =>
    match d.toInt? (-0x80000000) 0x7fffffff with
    | some n => .ok (.int32 (Int32.ofInt n))
    | none => refuse .int32 d.text
  | .int64, .int64 n => .ok (.int64 n)
  | .int64, .int16 n => .ok (.int64 n.toInt64)
  | .int64, .int32 n => .ok (.int64 n.toInt64)
  | .int64, .decimal d =>
    match d.toInt? (-0x8000000000000000) 0x7fffffffffffffff with
    | some n => .ok (.int64 (Int64.ofInt n))
    | none => refuse .int64 d.text
  | .float32, .float32 x => .ok (.float32 x)
  | .float32, .float64 x => .ok (.float32 x.toBinary32)
  | .float64, .float64 x => .ok (.float64 x)
  | .float64, .float32 x => .ok (.float64 x.toBinary64)
  | .float64, .int32 n => .ok (.float64 (Binary64.ofInt n.toInt))
  | .float64, .decimal d => .ok (.float64 d.toBinary64)
  | .decimal, .decimal d => .ok (.decimal d)
  | .decimal, .int16 n => .ok (.decimal (decimalOfInt64 n.toInt64))
  | .decimal, .int32 n => .ok (.decimal (decimalOfInt64 n.toInt64))
  | .decimal, .int64 n => .ok (.decimal (decimalOfInt64 n))
  | .decimal, .float64 x =>
    match Decimal.ofBinary64? x with
    | some d => .ok (.decimal d)
    | none => refuse .decimal (x.text diagnosticLayout)
  | .text, .text s => .ok (.text s)
  | .text, .enumeration _ label => .ok (.text label)
  | .blob, .blob bytes => .ok (.blob bytes)
  | .date, .date d => .ok (.date d)
  | .time, .time t => .ok (.time t)
  | .timestamp, .timestamp t => .ok (.timestamp t)
  | .zoned, .zoned t => .ok (.zoned t)
  | .uuid, .uuid u => .ok (.uuid u)
  | .document, .document d => .ok (.document d)
  | s, v => refuse s v.diagnostic

end ScalarType

/-! ## 2. Declared types without fields -/

/-- A value of the wrong kind for a type. -/
def HostType.refuse {α : Type} (t : HostType) (v : Value) : Except Error α :=
  .error (.valueConversionFailed t.path v.diagnostic)

/-- A variant from a label or a text. -/
def EnumDeclaration.convert (d : EnumDeclaration) (v : Value) : Except Error HostValue := do
  let label ← match v with
    | .enumeration _ label => pure label
    | .text s => pure s
    | v => HostType.refuse (.declared d.path) v
  match d.ofLabel? label with
  | some variant => pure (.variant variant.name)
  | none => .error (.enumConversionFailed d.typeName label)

/-- A typed payload from a document, by its tag. -/
def DynamicDeclaration.ofPayload (d : DynamicDeclaration) (tag : String) (document : Document) :
    Except Error HostValue :=
  match d.variants.find? (·.tag == tag) with
  | none => .error (.dynamicTypeNotFound tag)
  | some variant =>
    match Payload.read variant.type document with
    | .ok payload => .ok (.tagged variant.name payload)
    | .error message => .error (.serialization (some message))

/-- A field that must be there: the cell under an attribute, or a failure that names it. -/
def requiredField (typeName attr : String) (s : ScalarType) (fields : List (String × Value)) :
    Except Error (Value × List (String × Value)) :=
  match takeField? attr fields with
  | some (v, left) => do
    let cell ← s.accept v
    pure (cell, left)
  | none => .error (.attributeNotFound typeName attr)

/-- A self describing value, from one or from a record of tag and document. -/
def DynamicDeclaration.convert (d : DynamicDeclaration) (v : Value) : Except Error HostValue :=
  match v with
  | .dynamic tag content => do
    let document ← content.document
    d.ofPayload tag document
  | .record typeName fields => do
    let (tag, left) ← requiredField typeName dynamicTagAttribute .text fields
    let (document, _) ← requiredField typeName dynamicPayloadAttribute .document left
    match tag, document with
    | .text tag, .document document => d.ofPayload tag document
    | _, v => HostType.refuse (.declared d.path) v
  | v => HostType.refuse (.declared d.path) v

/-! ## 3. All types -/

/-- What a type makes of NULL, if it accepts it. -/
def HostType.ofNull? : HostType → Option HostValue
  | .optional _ => some .absent
  | _ => none

namespace Declarations

mutual

/-- The value that a type makes of a cell. -/
def convert (ds : Declarations) (t : HostType) (v : Value) : Except Error HostValue :=
  match t with
  | .scalar s => (s.accept v).map .scalar
  | .optional inner =>
    if v.isNull then .ok .absent else (convert ds inner v).map .present
  | .list item =>
    match v with
    | .array items => (convertItems ds item items).map .list
    | v => HostType.refuse (.list item) v
  | .declared path =>
    match ds.find path with
    | some (.enumeration d) => d.convert v
    | some (.dynamic d) => d.convert v
    | some (.record d) =>
      match v with
      | .record typeName fields =>
        match convertFields ds typeName d.fields fields with
        | .ok values => .ok (.record values)
        | .error e => .error (.objectMappingFailed path typeName e)
      | v => HostType.refuse (.declared path) v
    | none => HostType.refuse (.declared path) v
termination_by (v.weight, sizeOf t)
decreasing_by
  · simp [Prod.lex_def]
  all_goals simp only [Prod.lex_def, Value.weight]; omega

/-- The values that a type makes of the items of an array. -/
def convertItems (ds : Declarations) (item : HostType) (items : List Value) :
    Except Error (List HostValue) :=
  match items with
  | [] => .ok []
  | v :: rest => do
    let first ← convert ds item v
    let others ← convertItems ds item rest
    pure (first :: others)
termination_by (Value.itemsWeight items, 0)
decreasing_by
  all_goals simp only [Prod.lex_def, Value.itemsWeight]; omega

/-- The fields of a record, taken one after the other from the fields of a cell. -/
def convertFields (ds : Declarations) (typeName : String) (declared : List FieldDeclaration)
    (fields : List (String × Value)) : Except Error (List (String × HostValue)) :=
  match declared with
  | [] => .ok []
  | f :: others =>
    match _taken : takeField? f.attr fields with
    | some (v, left) => do
      -- the attribute is left NULL, which another field of the same attribute would find
      let first ← convert ds f.type v
      let rest ← convertFields ds typeName others left
      pure ((f.name, first) :: rest)
    | none => do
      let first ← match f.default? with
        | some x => pure x
        | none =>
          match f.type.ofNull? with
          | some x => pure x
          | none => .error (Error.attributeNotFound typeName f.attr)
      let rest ← convertFields ds typeName others fields
      pure ((f.name, first) :: rest)
termination_by (Value.fieldsWeight fields, declared.length)
decreasing_by
  · have := weight_takeField? _taken
    simp only [Prod.lex_def, List.length_cons]
    omega
  · have := weight_takeField? _taken
    simp only [Prod.lex_def, List.length_cons]
    omega
  · simp [Prod.lex_def]

end

/-- A record from the fields of a cell, without the report of what it was built for. -/
def ofRecord (ds : Declarations) (d : RecordDeclaration) (r : Record) : Except Error HostValue :=
  (convertFields ds r.typeName d.fields r.fields).map .record

/-! ## 4. Rows -/

/-- The fields of a row type, taken one after the other from the columns of a row. -/
def convertColumns (ds : Declarations) (target : String) :
    List FieldDeclaration → Row → Except Error (List (String × HostValue))
  | [], _ => .ok []
  | f :: others, row =>
    match row.take? f.attr with
    | some (v, left) => do
      let first ← convert ds f.type v
      let rest ← convertColumns ds target others left
      pure ((f.name, first) :: rest)
    | none => do
      let first ← match f.default? with
        | some x => pure x
        | none =>
          match f.type.ofNull? with
          | some x => pure x
          | none => .error (Error.missingRequiredProperty target f.attr)
      let rest ← convertColumns ds target others row
      pure ((f.name, first) :: rest)

/-- Maps a row to a row type. -/
def ofRow (ds : Declarations) (d : RowDeclaration) (row : Row) : Except Error HostValue :=
  (convertColumns ds d.path d.fields row).map .record

/-! ## 5. Binding -/

/-- The content of a self describing value, its failure kept for later. -/
def contentOf (payload : Payload) : DynamicContent :=
  match payload.write with
  | .ok d => .payload d
  | .error message => .failure message

mutual

/-- The cell that a value of a type binds to. -/
def toValue (ds : Declarations) (t : HostType) : HostValue → Value
  | .scalar cell => cell
  | .absent => .null
  | .present inner =>
    match t with
    | .optional u => toValue ds u inner
    | t => toValue ds t inner
  | .list items =>
    match t with
    | .list u => .array (toValues ds u items)
    | t => .array (toValues ds t items)
  | .variant name =>
    match t with
    | .declared path =>
      match ds.find path with
      | some (.enumeration d) => .enumeration d.typeName (d.labelOfName name)
      | _ => .null
    | _ => .null
  | .record values =>
    match t with
    | .declared path =>
      match ds.find path with
      | some (.record d) => .record d.typeName (toFields ds d.fields values)
      | _ => .null
    | _ => .null
  | .tagged variant payload =>
    match t with
    | .declared path =>
      match ds.find path with
      | some (.dynamic d) => .dynamic (d.tagOfName variant) (contentOf payload)
      | _ => .null
    | _ => .null

/-- The cells of the items of a list. -/
def toValues (ds : Declarations) (t : HostType) : List HostValue → List Value
  | [] => []
  | x :: rest => toValue ds t x :: toValues ds t rest

/-- The fields of a record's cell, in order of declaration. -/
def toFields (ds : Declarations) (declared : List FieldDeclaration) :
    List (String × HostValue) → List (String × Value)
  | [] => []
  | (_, x) :: rest =>
    match declared with
    | [] => []
    | f :: others => (f.attr, toValue ds f.type x) :: toFields ds others rest

end

/-- The record that a value of a declared record type is. -/
def toRecord (ds : Declarations) (d : RecordDeclaration) (values : List (String × HostValue)) :
    Record :=
  ⟨d.typeName, toFields ds d.fields values⟩

mutual

/-- What binding a value reports: payloads that no document can hold. -/
def bindNotes (ds : Declarations) (t : HostType) : HostValue → List LogRecord
  | .present inner =>
    match t with
    | .optional u => bindNotes ds u inner
    | t => bindNotes ds t inner
  | .list items =>
    match t with
    | .list u => bindNotesOf ds u items
    | t => bindNotesOf ds t items
  | .record values =>
    match t with
    | .declared path =>
      match ds.find path with
      | some (.record d) => bindNotesOfFields ds d.fields values
      | _ => []
    | _ => []
  | .tagged variant payload =>
    match t with
    | .declared path =>
      match ds.find path, payload.write with
      | some (.dynamic d), .error message =>
        [.debug ("Payload of dynamic type " ++ Error.cited (d.tagOfName variant)
          ++ " is not serializable: " ++ message)]
      | _, _ => []
    | _ => []
  | _ => []

/-- What binding the items of a list reports. -/
def bindNotesOf (ds : Declarations) (t : HostType) : List HostValue → List LogRecord
  | [] => []
  | x :: rest => bindNotes ds t x ++ bindNotesOf ds t rest

/-- What binding the fields of a record reports. -/
def bindNotesOfFields (ds : Declarations) (declared : List FieldDeclaration) :
    List (String × HostValue) → List LogRecord
  | [] => []
  | (_, x) :: rest =>
    match declared with
    | [] => []
    | f :: others => bindNotes ds f.type x ++ bindNotesOfFields ds others rest

end

end Declarations

end TypedStore
