/-
Types of the program. Scalars, optional values and lists are built in; enumerations, records and self
describing values are declared. A declaration says what a type is called in the store and how its
parts are named there; it refers to other declared types by their paths.
-/
import TypedStore.Text.Convention
import TypedStore.Registry.Builder
import TypedStore.HostPath
import TypedStore.Host.Payload

set_option autoImplicit false

namespace TypedStore

open TypedStore.Text

/-! ## 1. Types -/

/-- The built-in types that take one cell. -/
inductive ScalarType where
  | bool
  | int16
  | int32
  | int64
  | float32
  | float64
  | decimal
  | text
  | blob
  | date
  | time
  | timestamp
  | zoned
  | uuid
  | document
deriving DecidableEq, Repr

/-- A type of the program. -/
inductive HostType where
  | scalar (s : ScalarType)
  | optional (inner : HostType)
  | list (item : HostType)
  | declared (path : String)
deriving DecidableEq, Repr

/-- The path of a built-in type. -/
def ScalarType.path : ScalarType → String
  | .bool => "bool"
  | .int16 => "i16"
  | .int32 => "i32"
  | .int64 => "i64"
  | .float32 => "f32"
  | .float64 => "f64"
  | .decimal => "rust_decimal::decimal::Decimal"
  | .text => HostPath.text
  | .blob => "alloc::boxed::Box<[u8]>"
  | .date => "time::date::Date"
  | .time => "time::time::Time"
  | .timestamp => "time::plain_date_time::PlainDateTime"
  | .zoned => "time::offset_date_time::OffsetDateTime"
  | .uuid => "uuid::Uuid"
  | .document => HostPath.document

/-- The store type that a built-in type binds to. -/
def ScalarType.storeType : ScalarType → String
  | .bool => "bool"
  | .int16 => "int2"
  | .int32 => "int4"
  | .int64 => "int8"
  | .float32 => "float4"
  | .float64 => "float8"
  | .decimal => "numeric"
  | .text => "text"
  | .blob => "bytea"
  | .date => "date"
  | .time => "time"
  | .timestamp => "timestamp"
  | .zoned => "timestamptz"
  | .uuid => "uuid"
  | .document => "jsonb"

/-- The path of a type. -/
def HostType.path : HostType → String
  | .scalar s => s.path
  | .optional inner => HostPath.optional inner.path
  | .list item => HostPath.list item.path
  | .declared path => path

/-! ## 2. Typed values -/

/-- A value of a type of the program. Scalars are held as the cells they bind to. -/
inductive HostValue where
  | scalar (cell : Value)
  | absent
  | present (inner : HostValue)
  | list (items : List HostValue)
  | variant (name : String)
  | record (fields : List (String × HostValue))
  | tagged (variant : String) (payload : Payload)

instance : Inhabited HostValue := ⟨.absent⟩

/-! ## 3. Declarations -/

/-- A variant of an enumeration, possibly with a label of its own. -/
structure VariantDeclaration where
  name : String
  label? : Option String

/-- An enumeration. -/
structure EnumDeclaration where
  path : String
  typeName : String
  convention : Convention
  variants : List VariantDeclaration

/-- A field of a record or row: its name, the attribute or column it stands for, its type, the store
type it is declared with and the value it takes when the attribute is absent. -/
structure FieldDeclaration where
  name : String
  attr : String
  type : HostType
  storeType? : Option String
  default? : Option HostValue

/-- A record with a composite type of the store. -/
structure RecordDeclaration where
  path : String
  typeName : String
  fields : List FieldDeclaration

/-- One kind of payload of a self describing type. -/
structure PayloadDeclaration where
  name : String
  tag : String
  type : PayloadType

/-- A self describing type. -/
structure DynamicDeclaration where
  path : String
  variants : List PayloadDeclaration

/-- What rows are mapped to, field by field. -/
structure RowDeclaration where
  path : String
  fields : List FieldDeclaration

/-- A declared type. -/
inductive Declaration where
  | enumeration (d : EnumDeclaration)
  | record (d : RecordDeclaration)
  | dynamic (d : DynamicDeclaration)

/-- The path of a declared type. -/
def Declaration.path : Declaration → String
  | .enumeration d => d.path
  | .record d => d.path
  | .dynamic d => d.path

/-- The declared types of a program. -/
abbrev Declarations := List Declaration

/-- The declaration of a path. -/
def Declarations.find (ds : Declarations) (path : String) : Option Declaration :=
  List.find? (fun d => d.path == path) ds

namespace EnumDeclaration

/-- The label of a variant: its own, or its name in the convention of the enumeration. -/
def labelOf (d : EnumDeclaration) (v : VariantDeclaration) : String :=
  v.label?.getD (d.convention.apply v.name)

/-- The variant of a label. -/
def ofLabel? (d : EnumDeclaration) (label : String) : Option VariantDeclaration :=
  d.variants.find? fun v => d.labelOf v == label

/-- The label of the variant of a name. -/
def labelOfName (d : EnumDeclaration) (name : String) : String :=
  ((d.variants.find? (·.name == name)).map d.labelOf).getD (d.convention.apply name)

end EnumDeclaration

namespace DynamicDeclaration

/-- The tags in order of declaration. -/
def tags (d : DynamicDeclaration) : List String := d.variants.map (·.tag)

/-- The tag of the variant of a name. -/
def tagOfName (d : DynamicDeclaration) (name : String) : String :=
  ((d.variants.find? (·.name == name)).map (·.tag)).getD name

end DynamicDeclaration

/-! ## 4. Store types -/

/-- The store type that a declared type binds to. -/
def Declaration.storeType : Declaration → String
  | .enumeration d => d.typeName
  | .record d => d.typeName
  | .dynamic _ => defaultDynamicType

/-- The store type that a type binds to. -/
def HostType.storeType (ds : Declarations) : HostType → String
  | .scalar s => s.storeType
  | .optional inner => inner.storeType ds
  | .list item => arrayOf (item.storeType ds)
  | .declared path => ((ds.find path).map Declaration.storeType).getD path

/-- The store type of a field: the declared one, or the one its type binds to. -/
def FieldDeclaration.storeType (ds : Declarations) (f : FieldDeclaration) : String :=
  f.storeType?.getD (f.type.storeType ds)

/-- Attributes with their store types, in order of declaration. -/
def RecordDeclaration.attributes (ds : Declarations) (d : RecordDeclaration) :
    List (String × String) :=
  d.fields.map fun f => (f.attr, f.storeType ds)

/-! ## 5. Registration -/

/-- How an enumeration registers. -/
def EnumDeclaration.registration (d : EnumDeclaration) : EnumRegistration :=
  ⟨d.typeName, d.convention, d.path, d.variants.map fun v => (d.labelOf v, v.name)⟩

/-- How a record registers. -/
def RecordDeclaration.registration (ds : Declarations) (d : RecordDeclaration) :
    CompositeRegistration :=
  ⟨d.typeName, d.attributes ds, d.path⟩

/-- How a self describing type registers. -/
def DynamicDeclaration.registration (d : DynamicDeclaration) : DynamicRegistration :=
  ⟨d.path, d.tags⟩

end TypedStore
