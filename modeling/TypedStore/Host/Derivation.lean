/-
Deriving declarations. An item is a type as it is written down: an identifier, members and attributes.
Names in the store follow from identifiers unless an attribute gives them; the last attribute of a key
counts. Attributes that are not understood stop the derivation with a message that shows how to write
them.
-/
import TypedStore.Host.Type
import TypedStore.Text.Quoted

set_option autoImplicit false

namespace TypedStore.Derivation

open TypedStore.Text

/-! ## 1. Items -/

/-- What stands behind the key of an argument. -/
inductive ArgumentValue where
  /-- Nothing, the key stands alone. -/
  | missing
  | text (s : String)
  | number (n : Int)
  | flag (b : Bool)
  /-- Other source text. -/
  | source (s : String)
deriving DecidableEq, Repr

/-- One argument of an attribute. -/
structure Argument where
  key : String
  value : ArgumentValue
deriving DecidableEq, Repr

/-- An attribute of an item or a member. -/
inductive Annotation where
  /-- One without an argument list. -/
  | bare
  | arguments (args : List Argument)
  /-- One that belongs to somebody else. -/
  | foreign
deriving DecidableEq, Repr

/-- A field or variant. Variants say how many payloads they hold, if they have a list of them. -/
structure Member where
  ident : String
  payloads? : Option Nat
  annotations : List Annotation

/-- A type as it is written down. -/
structure Item where
  ident : String
  members : List Member
  annotations : List Annotation

/-! ## 2. Arguments -/

/-- The text of a literal, if the argument is one. -/
def ArgumentValue.text? : ArgumentValue → Option String
  | .text s => some s
  | .source s =>
    match s.trimAscii.toString.toList with
    | '"' :: rest =>
      match rest.reverse with
      | '"' :: body =>
        if body.contains '"' || body.contains '\\' then none
        else some (String.ofList body.reverse)
      | _ => none
    | _ => none
  | _ => none

/-- The source text of an expression, if the argument is one. -/
def ArgumentValue.expression? : ArgumentValue → Option String
  | .missing => none
  | .text s => some (quoted s)
  | .number n => some (intText n)
  | .flag b => some (if b then "true" else "false")
  | .source s =>
    let source := s.trimAscii.toString
    if source.isEmpty || source.startsWith ";" then none else some source

/-- How an argument has to be written. -/
def misuse {α : Type} (key usage : String) : Except String α :=
  .error ("Error while parsing " ++ Error.cited key ++ ", use it like: "
    ++ Error.cited ("#[trove(" ++ usage ++ ")]"))

/-- Folds the arguments of all annotations; `bareUsage` is shown for an annotation without any. -/
def foldArguments {σ : Type} (bareUsage : String) (step : σ → Argument → Except String σ) :
    σ → List Annotation → Except String σ
  | state, [] => .ok state
  | state, .foreign :: rest => foldArguments bareUsage step state rest
  | _, .bare :: _ => misuse "trove" bareUsage
  | state, .arguments args :: rest => do
    let state ← args.foldlM step state
    foldArguments bareUsage step state rest

/-- An argument that nothing is made of. -/
def unknownArgument {α : Type} (key : String) : Except String α :=
  .error ("Unknown attribute " ++ Error.cited key ++ " inside trove macro")

/-! ## 3. Types -/

/-- Names of a type. -/
structure TypeSettings where
  typeName : String
  convention : Convention

/-- An identifier as a name of the store, without an underscore in front. -/
def withoutUnderscore (s : String) : String :=
  match s.toList with
  | '_' :: rest => String.ofList rest
  | _ => s

/-- One argument of a type. -/
def typeArgument (settings : TypeSettings) (arg : Argument) : Except String TypeSettings :=
  if arg.key = "name" then
    match arg.value.text? with
    | some name => .ok { settings with typeName := name }
    | none => misuse "name" "name = \"my_type\""
  else if arg.key = "rename_all" then
    match arg.value.text? with
    | none => misuse "rename_all" "rename_all = \"snake_case\""
    | some name =>
      match Convention.parse? name with
      | some convention => .ok { settings with convention }
      | none =>
        .error ("Unknown case convention " ++ Error.cited name
          ++ ", expected one of SCREAMING_SNAKE_CASE, snake_case, PascalCase, camelCase, kebab-case, "
          ++ "verbatim")
  else unknownArgument arg.key

/-- The names of a type. -/
def typeSettings (item : Item) : Except String TypeSettings :=
  let start : TypeSettings := ⟨withoutUnderscore (Convention.snake.apply item.ident), default⟩
  foldArguments "attribute = value, .." typeArgument start item.annotations

/-! ## 4. Fields -/

/-- A field with its names in the store. The default is the source text of an expression. -/
structure DerivedField where
  ident : String
  attr : String
  storeType? : Option String
  default? : Option String

/-- The expression that a bare default stands for. -/
def bareDefault : String := "Default::default()"

/-- One argument of a field. -/
def fieldArgument (field : DerivedField) (arg : Argument) : Except String DerivedField :=
  if arg.key = "name" then
    match arg.value.text? with
    | some name => .ok { field with attr := name }
    | none => misuse "name" "name = \"my_column\""
  else if arg.key = "pg_type" then
    match arg.value.text? with
    | some name => .ok { field with storeType? := some name }
    | none => misuse "pg_type" "pg_type = \"citext\""
  else if arg.key = "default" then
    if arg.value = .missing then .ok { field with default? := some bareDefault }
    else
      match arg.value.expression? with
      | some source => .ok { field with default? := some source }
      | none => misuse "default" "default = some_expression"
  else unknownArgument arg.key

/-- A field of a record or row. -/
def deriveField (member : Member) : Except String DerivedField :=
  let start : DerivedField := ⟨member.ident, withoutUnderscore member.ident, none, none⟩
  foldArguments "attribute = value, .." fieldArgument start member.annotations

/-- The texts that a record's attribute list spells out for a field. -/
def DerivedField.attributeTexts (f : DerivedField) : List String :=
  f.attr :: f.storeType?.toList

/-- The texts that a row mapping spells out for a field: the column it reads, and again the column it
misses when nothing stands in for it. -/
def DerivedField.columnTexts (f : DerivedField) : List String :=
  if f.default?.isSome then [f.attr] else [f.attr, f.attr]

/-- The declaration of a field whose type and default are known. -/
def DerivedField.declare (f : DerivedField) (type : HostType) (default? : Option HostValue) :
    FieldDeclaration :=
  ⟨f.ident, f.attr, type, f.storeType?, default?⟩

/-! ## 5. Variants -/

/-- One argument of a variant, of which only `key` is understood. -/
def variantArgument (key : String) (_ : Option String) (arg : Argument) :
    Except String (Option String) :=
  if arg.key = key then
    match arg.value.text? with
    | some label => .ok (some label)
    | none => misuse key (key ++ " = \"value\"")
  else
    .error ("Unknown attribute " ++ Error.cited arg.key ++ " on a variant, only " ++ Error.cited key
      ++ " is supported")

/-- The name that a variant's annotations give it. -/
def variantLabel (key : String) (member : Member) : Except String (Option String) :=
  foldArguments (key ++ " = \"value\"") (variantArgument key) none member.annotations

/-- A variant of an enumeration, which holds nothing. -/
def enumVariant (item : Item) (member : Member) : Except String VariantDeclaration :=
  if member.payloads?.isSome then
    .error ("Variant " ++ Error.cited member.ident ++ " of " ++ Error.cited item.ident
      ++ " has fields, a store enum can only mirror unit variants")
  else do
    let label? ← variantLabel "name" member
    pure ⟨member.ident, label?⟩

/-- The tag of a variant that holds one payload. -/
def dynamicVariant (item : Item) (member : Member) : Except String (String × String) :=
  if member.payloads? ≠ some 1 then
    .error ("Variant " ++ Error.cited member.ident ++ " of " ++ Error.cited item.ident
      ++ " must hold exactly one payload, like " ++ Error.cited (member.ident ++ "(Payload)"))
  else do
    let tag? ← variantLabel "tag" member
    pure (member.ident, tag?.getD (Convention.snake.apply member.ident))

/-! ## 6. Items -/

/-- An enumeration, declared at a path. -/
def deriveEnum (path : String) (item : Item) : Except String EnumDeclaration := do
  let settings ← typeSettings item
  let variants ← item.members.mapM (enumVariant item)
  pure ⟨path, settings.typeName, settings.convention, variants⟩

/-- The name of a record and its fields. -/
def deriveRecord (item : Item) : Except String (String × List DerivedField) := do
  let settings ← typeSettings item
  let fields ← item.members.mapM deriveField
  pure (settings.typeName, fields)

/-- The variants of a self describing type with their tags. -/
def deriveDynamic (item : Item) : Except String (List (String × String)) :=
  item.members.mapM (dynamicVariant item)

/-- The fields of a row type. -/
def deriveRow (item : Item) : Except String (List DerivedField) :=
  item.members.mapM deriveField

end TypedStore.Derivation
