/-
Building a registry. Metadata of the store comes first, then the host types are checked against it
one by one: the labels and attributes of the store win, and a host type must fit them. Without
metadata a host type stands for itself, unless the registry is loaded from a store, where every host
type must exist.
-/
import TypedStore.Registry.Basic
import TypedStore.Text.Quoted

set_option autoImplicit false

namespace TypedStore

open TypedStore.Text

/-! ## 1. Registrations -/

/-- A host enumeration: its labels with the variants they stand for. -/
structure EnumRegistration where
  typeName : String
  convention : Convention
  host : String
  constants : List (String × String)

/-- A host record type: attributes with the types they bind to. -/
structure CompositeRegistration where
  typeName : String
  attributes : List (String × String)
  host : String

/-- A host type of self describing values, with its tags. -/
structure DynamicRegistration where
  host : String
  tags : List String

/-- What is known before a registry is built. -/
structure RegistryBuilder where
  schemas : List String
  dynamicType? : Option String
  enums : List EnumRegistration
  composites : List CompositeRegistration
  dynamics : List DynamicRegistration
  catalog : Catalog

/-- The definition that a host enumeration gives when the store lists none. -/
def EnumRegistration.definition (e : EnumRegistration) : EnumDefinition :=
  { typeName := e.typeName
    labels := e.constants.map (·.1)
    convention := e.convention
    host? := some e.host
    constants := e.constants }

/-- The definition that a host record type gives when the store lists none. -/
def CompositeRegistration.definition (c : CompositeRegistration) : CompositeDefinition :=
  ⟨c.typeName, c.attributes, some c.host⟩

/-! ## 2. Checks -/

/-- The array type named after its element. -/
def arrayOf (element : String) : String := "_" ++ element

/-- Host attributes name the default type of self describing values; they mean the configured one. -/
def retargetType (dynamicType attrType : String) : String :=
  if dynamicType = defaultDynamicType then attrType
  else if attrType = defaultDynamicType then dynamicType
  else if attrType = arrayOf defaultDynamicType then arrayOf dynamicType
  else attrType

/-- A host record type with its attributes pointed at the configured type. -/
def CompositeRegistration.retarget (c : CompositeRegistration) (dynamicType : String) :
    CompositeRegistration :=
  { c with attributes := c.attributes.map fun (attr, t) => (attr, retargetType dynamicType t) }

/-- Whether an attribute type holds self describing values or a list of them. -/
def isDynamicSlot (dynamicType attrType : String) : Bool :=
  attrType == dynamicType || attrType == arrayOf dynamicType

/-- One attribute of the host against the store. Types are compared only where one side is dynamic;
spellings of scalar types are left to the store. -/
def checkAttribute (store : CompositeDefinition) (dynamicType attr hostType : String) :
    Except Error Unit :=
  match store.attributeType? attr with
  | none => .error (.attributeNotFound store.typeName attr)
  | some storeType =>
    if (isDynamicSlot dynamicType hostType || isDynamicSlot dynamicType storeType)
        && storeType != hostType then
      .error (.wrongAttributeType store.typeName attr storeType hostType)
    else .ok ()

/-- The attributes of the host against the store: as many, and each of them known. -/
def checkAttributes (store : CompositeDefinition) (attributes : List (String × String))
    (dynamicType : String) : Except Error Unit :=
  if store.attributes.length ≠ attributes.length then
    .error (.wrongFieldNumberInComposite store.typeName store.attributes.length attributes.length)
  else
    attributes.forM fun (attr, hostType) => checkAttribute store dynamicType attr hostType

/-! ## 3. Steps -/

namespace Registry

/-- Takes over the types that the store lists. -/
def withCatalog (r : Registry) (catalog : Catalog) : Registry :=
  { r with
    enums := r.enums.insertAll (catalog.enums.map fun (name, labels) =>
      (name, ⟨name, labels, default, none, []⟩))
    composites := r.composites.insertAll (catalog.composites.map fun (name, attributes) =>
      (name, ⟨name, attributes, none⟩))
    arrays := r.arrays.insertAll (catalog.arrays.map fun (name, element) =>
      (name, ⟨name, element⟩)) }

/-- Maps a host type to a store type. -/
def mapHost (r : Registry) (host name : String) : Registry :=
  { r with storeTypes := r.storeTypes.insert host name }

/-- Adds a host enumeration. The store must have each of its labels. -/
def addEnum (strict : Bool) (r : Registry) (e : EnumRegistration) : Except Error Registry :=
  match r.enums.get? e.typeName with
  | some store =>
    match e.constants.find? fun constant => !store.hasLabel constant.1 with
    | some (label, _) => .error (.enumConversionFailed e.typeName label)
    | none =>
      -- labels and their order are those of the store
      let merged := { store with
        convention := e.convention, host? := some e.host, constants := e.constants }
      .ok ({ r with enums := r.enums.insert e.typeName merged }.mapHost e.host e.typeName)
  | none =>
    if strict then .error (.pgTypeNotFound e.typeName)
    else .ok ({ r with enums := r.enums.insert e.typeName e.definition }.mapHost e.host e.typeName)

/-- Adds a host record type. -/
def addComposite (strict : Bool) (r : Registry) (c : CompositeRegistration) :
    Except Error Registry :=
  let c := c.retarget r.dynamicType
  match r.composites.get? c.typeName with
  | some store => do
    checkAttributes store c.attributes r.dynamicType
    let merged := { store with host? := some c.host }
    pure ({ r with composites := r.composites.insert c.typeName merged }.mapHost c.host c.typeName)
  | none =>
    if strict then .error (.pgTypeNotFound c.typeName)
    else
      .ok ({ r with composites := r.composites.insert c.typeName c.definition }.mapHost c.host
        c.typeName)

/-- Makes sure that the type of self describing values is defined. -/
def addDynamicComposite (strict needed : Bool) (r : Registry) : Except Error Registry :=
  if r.composites.contains r.dynamicType then .ok r
  else if strict && needed then .error (.pgTypeNotFound r.dynamicType)
  else .ok r.withDynamicComposite

/-- Adds the tags of a host type. A tag that is taken goes to the later type. -/
def addDynamic (r : Registry) (d : DynamicRegistration) : Registry :=
  { r with
    tagHosts := r.tagHosts.insertAll (d.tags.map fun tag => (tag, d.host))
    hostTags := r.hostTags.insert d.host d.tags
    storeTypes := r.storeTypes.insert d.host r.dynamicType }

/-- Names an array type for every enumeration and composite type that has none. -/
def withArrays (r : Registry) : Registry :=
  { r with
    -- an array type that the store lists itself stays
    arrays := (r.enums.keys ++ r.composites.keys).foldl
      (fun arrays element => arrays.insertNew (arrayOf element) ⟨arrayOf element, element⟩)
      r.arrays }

end Registry

/-! ## 4. Building -/

namespace RegistryBuilder

/-- A builder that knows nothing. -/
def empty : RegistryBuilder := ⟨[], none, [], [], [], .empty⟩

instance : Inhabited RegistryBuilder := ⟨empty⟩

/-- The schemas to read. -/
def effectiveSchemas (b : RegistryBuilder) : List String :=
  if b.schemas.isEmpty then [defaultSchema] else b.schemas

/-- Adds metadata of the store behind what is known. -/
def withCatalog (b : RegistryBuilder) (catalog : Catalog) : RegistryBuilder :=
  { b with catalog := b.catalog.append catalog }

/-- The registry before any host type is added. -/
def start (b : RegistryBuilder) : Registry :=
  (Registry.bare b.effectiveSchemas (b.dynamicType?.getD defaultDynamicType)).withCatalog b.catalog

/-- The registry with enumerations, record types and the type of self describing values. -/
def mergeTypes (strict : Bool) (b : RegistryBuilder) : Except Error Registry := do
  let r ← b.enums.foldlM (Registry.addEnum strict) b.start
  let r ← b.composites.foldlM (Registry.addComposite strict) r
  r.addDynamicComposite strict !b.dynamics.isEmpty

/-- Merges metadata and host types. Strict merging refuses host types that the store lacks. -/
def merge (strict : Bool) (b : RegistryBuilder) : Except Error Registry :=
  (b.mergeTypes strict).map fun r => (b.dynamics.foldl Registry.addDynamic r).withArrays

/-- A registry in memory: host types stand in for missing metadata. -/
def build (b : RegistryBuilder) : Except Error Registry := b.merge false

/-- A registry for a store that answered with a catalog: every host type must be there. -/
def loadFrom (b : RegistryBuilder) (catalog : Catalog) : Except Error Registry :=
  (b.withCatalog catalog).merge true

/-! ## 5. Notes -/

/-- Tags of one host type that take the place of another host type's. -/
def tagNotes (tagHosts : Dict String) (host : String) : List String → List LogRecord
  | [] => []
  | tag :: rest =>
    let note := match tagHosts.get? tag with
      | some previous =>
        if previous = host then []
        else [⟨LogLevel.warn, "Dynamic type tag " ++ Error.cited tag ++ " of " ++ Error.cited host
          ++ " replaces the one of " ++ Error.cited previous⟩]
      | none => []
    note ++ tagNotes (tagHosts.insert tag host) host rest

/-- Tags that take the place of others while host types are added to a registry. -/
def dynamicNotes (r : Registry) : List DynamicRegistration → List LogRecord
  | [] => []
  | d :: rest => tagNotes r.tagHosts d.host d.tags ++ dynamicNotes (r.addDynamic d) rest

/-- A list of texts in diagnostics. -/
def quotedList (texts : List String) : String :=
  "[" ++ ", ".intercalate (texts.map quoted) ++ "]"

/-- What building reports when it succeeds. -/
def notes (strict : Bool) (b : RegistryBuilder) : List LogRecord :=
  match b.mergeTypes strict with
  | .error _ => []
  | .ok types =>
    let r := (b.dynamics.foldl Registry.addDynamic types).withArrays
    dynamicNotes types b.dynamics ++
      [.debug ("Type registry ready with " ++ natText r.enums.size ++ " enums, "
        ++ natText r.composites.size ++ " composites and " ++ natText r.arrays.size
        ++ " arrays from schemas " ++ quotedList r.schemas)]

end RegistryBuilder

end TypedStore
