/-
The registry relates the named types of the store to the types of the program. It knows enumerations
with their labels, composite types with their attributes in the order of the store, arrays with their
element types, and the one composite type that carries self describing values. Names it does not know
are taken for built-in types.
-/
import TypedStore.Text.Convention
import TypedStore.Value.Basic

set_option autoImplicit false

namespace TypedStore

open TypedStore.Text

/-! ## 1. Definitions -/

/-- An enumeration of the store: its labels in the order of the store and, when a host type maps to
it, that type, its naming convention and its variants by label. -/
structure EnumDefinition where
  typeName : String
  labels : List String
  convention : Convention
  host? : Option String
  constants : List (String × String)

namespace EnumDefinition

/-- Whether a text is a label. -/
def hasLabel (d : EnumDefinition) (label : String) : Bool := d.labels.contains label

/-- The variant of a label. -/
def constant? (d : EnumDefinition) (label : String) : Option String :=
  (d.constants.find? (·.1 == label)).map (·.2)

end EnumDefinition

/-- A composite type of the store: attributes with their types, in the order of the store. -/
structure CompositeDefinition where
  typeName : String
  attributes : List (String × String)
  host? : Option String

/-- The type of an attribute. -/
def CompositeDefinition.attributeType? (d : CompositeDefinition) (attr : String) : Option String :=
  (d.attributes.find? (·.1 == attr)).map (·.2)

/-- An array type of the store. -/
structure ArrayDefinition where
  typeName : String
  elementType : String

/-- The text without an ending that it has. -/
def withoutSuffix? (ending s : String) : Option String :=
  let cs := s.toList
  let tail := ending.toList
  if tail.isSuffixOf cs then some (String.ofList (cs.take (cs.length - tail.length))) else none

/-- The element type that an array's name spells: `element[]` or `_element`. -/
def elementByName? (name : String) : Option String :=
  match withoutSuffix? "[]" name with
  | some element => some element
  | none =>
    match name.toList with
    | '_' :: c :: rest => some (String.ofList (c :: rest))
    | _ => none

/-! ## 2. Metadata of the store -/

/-- Types as the store lists them. -/
structure Catalog where
  enums : List (String × List String)
  composites : List (String × List (String × String))
  arrays : List (String × String)

namespace Catalog

/-- A catalog without types. -/
def empty : Catalog := ⟨[], [], []⟩

instance : Inhabited Catalog := ⟨empty⟩

/-- The types of two catalogs, those of the second behind those of the first. -/
def append (a b : Catalog) : Catalog :=
  ⟨a.enums ++ b.enums, a.composites ++ b.composites, a.arrays ++ b.arrays⟩

end Catalog

/-! ## 3. The registry -/

/-- Schema that is read when none is given. -/
def defaultSchema : String := "public"

/-- Composite type of self describing values when none is given. -/
def defaultDynamicType : String := "dynamic_dto"

/-- Attribute of that type holding the tag. -/
def dynamicTagAttribute : String := "type_name"

/-- Attribute of that type holding the document. -/
def dynamicPayloadAttribute : String := "payload"

/-- Types of the store and of the program. Host types are named by their paths. -/
structure Registry where
  schemas : List String
  dynamicType : String
  enums : Dict EnumDefinition
  composites : Dict CompositeDefinition
  arrays : Dict ArrayDefinition
  /-- Store type by host type. -/
  storeTypes : Dict String
  /-- Host type by tag. -/
  tagHosts : Dict String
  /-- Tags by host type. -/
  hostTags : Dict (List String)

namespace Registry

/-- A registry without types. -/
def bare (schemas : List String) (dynamicType : String) : Registry :=
  { schemas, dynamicType
    enums := .empty, composites := .empty, arrays := .empty
    storeTypes := .empty, tagHosts := .empty, hostTags := .empty }

/-- Declares the composite type of self describing values as tag and document. -/
def withDynamicComposite (r : Registry) : Registry :=
  let definition : CompositeDefinition :=
    { typeName := r.dynamicType
      attributes := [(dynamicTagAttribute, "text"), (dynamicPayloadAttribute, "jsonb")]
      host? := none }
  { r with composites := r.composites.insert r.dynamicType definition }

/-- Built-in types and self describing values only. -/
def empty : Registry := (bare [defaultSchema] defaultDynamicType).withDynamicComposite

instance : Inhabited Registry := ⟨empty⟩

/-! ## 4. Questions -/

/-- The element type of an array type: as listed, or as its name spells it. -/
def arrayElement? (r : Registry) (name : String) : Option String :=
  match r.arrays.get? name with
  | some definition => some definition.elementType
  | none => elementByName? name

/-- The definition of an array type. -/
def array? (r : Registry) (name : String) : Option ArrayDefinition :=
  match r.arrays.get? name with
  | some definition => some definition
  | none => (elementByName? name).map fun element => ⟨name, element⟩

/-- What a type is. -/
def category (r : Registry) (name : String) : TypeCategory :=
  if name = r.dynamicType then .dynamic
  else if r.enums.contains name then .enumeration
  else if r.composites.contains name then .composite
  else if (r.arrayElement? name).isSome then .array
  else .standard

/-- The definition of an enumeration. -/
def enumDefinition (r : Registry) (name : String) : Except Error EnumDefinition :=
  match r.enums.get? name with
  | some definition => .ok definition
  | none => .error (.pgTypeNotFound name)

/-- The definition of a composite type, the one of self describing values included. -/
def compositeDefinition (r : Registry) (name : String) : Except Error CompositeDefinition :=
  match r.composites.get? name with
  | some definition => .ok definition
  | none => .error (.pgTypeNotFound name)

/-- The store type of a host type. -/
def storeTypeOf (r : Registry) (host : String) : Except Error String :=
  match r.storeTypes.get? host with
  | some name => .ok name
  | none => .error (.hostTypeNotMapped host)

/-- The host type of a store type. -/
def hostOf (r : Registry) (name : String) : Except Error String :=
  let mapped := fun (host? : Option String) =>
    match host? with
    | some host => Except.ok host
    | none => .error (.pgTypeNotMapped name)
  match r.enums.get? name with
  | some definition => mapped definition.host?
  | none =>
    match r.composites.get? name with
    | some definition => mapped definition.host?
    | none => .error (.pgTypeNotFound name)

/-- The host type of a tag. -/
def hostOfTag (r : Registry) (tag : String) : Except Error String :=
  match r.tagHosts.get? tag with
  | some host => .ok host
  | none => .error (.dynamicTypeNotFound tag)

/-- The tags of a host type. -/
def tagsOf (r : Registry) (host : String) : Except Error (List String) :=
  match r.hostTags.get? host with
  | some tags => .ok tags
  | none => .error (.hostTypeNotMapped host)

end Registry

end TypedStore
