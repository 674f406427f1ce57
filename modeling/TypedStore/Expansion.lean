/-
Expansion turns structured parameters into scalar ones. An array becomes a constructor over one
parameter per item, a record one over its attributes in the order of its type, a self describing value
one over its tag and its document. The constructor is a `Fragment`, whose text replaces every
occurrence of the placeholder; the scalar leaves are bound under minted names, the path of the leaf,
with a number behind it where the path is taken.
-/
import TypedStore.Registry.Basic
import TypedStore.Statement.Query
import TypedStore.Value.Weight

set_option autoImplicit false

namespace TypedStore

open TypedStore.Text TypedStore.Statement

/-! ## 1. Fragments -/

/-- What stands for a value in a statement. -/
inductive Fragment where
  /-- A placeholder, possibly with a cast. -/
  | parameter (name : String) (cast? : Option String)
  /-- The array without items, possibly with a cast. -/
  | emptyArray (cast? : Option String)
  /-- An array constructor. -/
  | array (items : List Fragment)
  /-- A row constructor with its type. -/
  | row (items : List Fragment) (typeName : String)

/-- A cast behind an expression. -/
def castText (cast? : Option String) : String :=
  match cast? with
  | some typeName => "::" ++ typeName
  | none => ""

namespace Fragment

mutual

/-- The text of a fragment. -/
def text : Fragment → String
  | .parameter name cast? => ":" ++ name ++ castText cast?
  | .emptyArray cast? => "'\x7b\x7d'" ++ castText cast?
  | .array items => "ARRAY[" ++ ", ".intercalate (itemTexts items) ++ "]"
  | .row items typeName => "ROW(" ++ ", ".intercalate (itemTexts items) ++ ")::" ++ typeName

/-- The texts of the items of a constructor. -/
def itemTexts : List Fragment → List String
  | [] => []
  | f :: rest => f.text :: itemTexts rest

end

end Fragment

/-! ## 2. Minted names -/

/-- The leaves collected so far and the names that minted ones must stay clear of. -/
structure Leaves where
  reserved : List String
  params : Params

namespace Leaves

/-- Whether a name is in use. -/
def taken (leaves : Leaves) (name : String) : Bool :=
  leaves.reserved.contains name || leaves.params.contains name

/-- The `k`-th name to try for a base: the base itself, then the base with 2, 3, and so on. The number
is not bounded here, though a machine counts it in 32 bits: it is at most one more than there are names in
use (`FirstFree.numbered`), each of them a text of the statement or of its parameters in memory, and so it
stays below `2 ^ 31`. -/
def candidate (base : String) : Nat → String
  | 0 => base
  | k + 1 => base ++ "_" ++ natText (k + 2)

/-- The first name for a base that is free. Fewer names are taken than are tried. -/
def fresh (leaves : Leaves) (base : String) : String :=
  let tries := leaves.reserved.length + leaves.params.size + 1
  (((List.range tries).map (candidate base)).find? fun name => !leaves.taken name).getD base

/-- Binds a leaf. -/
def bind (leaves : Leaves) (name : String) (v : Value) : Leaves :=
  { leaves with params := leaves.params.insert name v }

end Leaves

/-! ## 3. Writing values -/

/-- The name of an item's path. -/
def itemPath (name : String) (index : Nat) : String := name ++ "_p" ++ natText (index + 1)

/-- The name of an attribute's path. -/
def attributePath (name attr : String) : String := name ++ "_" ++ attr

namespace Expansion

/-- Writes a self describing value as tag and document. -/
def writeDynamic (r : Registry) (name tag : String) (content : DynamicContent) (leaves : Leaves) :
    Except Error (Fragment × Leaves) := do
  let _ ← r.hostOfTag tag
  let document ← content.document
  let tagName := leaves.fresh (attributePath name dynamicTagAttribute)
  let payloadName := leaves.fresh (attributePath name dynamicPayloadAttribute)
  let fragment := Fragment.row [.parameter tagName none, .parameter payloadName none] r.dynamicType
  pure (fragment, (leaves.bind tagName (.text tag)).bind payloadName (.document document))

/-- Writes a label, after checking it. -/
def writeEnum (r : Registry) (name typeName label : String) (nested : Bool) (leaves : Leaves) :
    Except Error (Fragment × Leaves) := do
  let definition ← r.enumDefinition typeName
  if definition.hasLabel label then
    pure (.parameter name (if nested then some typeName else none),
      leaves.bind name (.enumeration typeName label))
  else
    .error (.enumConversionFailed definition.typeName label)

mutual

/-- Writes a value under a name. `slot?` is the store type of the place it takes, where known, and
`nested` tells a place inside a constructor from a placeholder of the statement. -/
def write (r : Registry) (name : String) (slot? : Option String) (nested : Bool) (leaves : Leaves)
    (value : Value) : Except Error (Fragment × Leaves) :=
  match value with
  | .enumeration typeName label => writeEnum r name typeName label nested leaves
  | .array [] => .ok (.emptyArray (if nested then slot? else none), leaves)
  | .array items => do
    let element? := slot?.bind r.arrayElement?
    let (fragments, leaves) ← writeItems r name element? 0 leaves items
    pure (.array fragments, leaves)
  | .record typeName fields => do
    let definition ← r.compositeDefinition typeName
    if fields.length ≠ definition.attributes.length then
      .error (.wrongFieldNumberInComposite definition.typeName definition.attributes.length
        fields.length)
    else
      let (fragments, leaves) ←
        writeAttributes r name definition.typeName leaves definition.attributes fields
      pure (.row fragments definition.typeName, leaves)
  | .dynamic tag content => writeDynamic r name tag content leaves
  | .null => .ok (.parameter name (if nested then slot? else none), leaves.bind name .null)
  | v => .ok (.parameter name none, leaves.bind name v)
termination_by (value.weight, 0)
decreasing_by
  all_goals simp only [Prod.lex_def, Value.weight]; omega

/-- Writes the items of an array from an index on. -/
def writeItems (r : Registry) (name : String) (element? : Option String) (index : Nat)
    (leaves : Leaves) (items : List Value) : Except Error (List Fragment × Leaves) :=
  match items with
  | [] => .ok ([], leaves)
  | v :: rest => do
    let itemName := leaves.fresh (itemPath name index)
    let (fragment, leaves) ← write r itemName element? true leaves v
    let (fragments, leaves) ← writeItems r name element? (index + 1) leaves rest
    pure (fragment :: fragments, leaves)
termination_by (Value.itemsWeight items, 0)
decreasing_by
  all_goals simp only [Prod.lex_def, Value.itemsWeight]; omega

/-- Writes the fields of a record in the order of the attributes. -/
def writeAttributes (r : Registry) (name typeName : String) (leaves : Leaves)
    (attributes : List (String × String)) (fields : List (String × Value)) :
    Except Error (List Fragment × Leaves) :=
  match attributes with
  | [] => .ok ([], leaves)
  | (attr, attrType) :: others =>
    match _taken : takeField? attr fields with
    | none => .error (.attributeNotFound typeName attr)
    | some (v, left) => do
      let fieldName := leaves.fresh (attributePath name attr)
      let (fragment, leaves) ← write r fieldName (some attrType) true leaves v
      let (fragments, leaves) ← writeAttributes r name typeName leaves others left
      pure (fragment :: fragments, leaves)
termination_by (Value.fieldsWeight fields, attributes.length)
decreasing_by
  all_goals
    have := weight_takeField? _taken
    simp only [Prod.lex_def, List.length_cons]
    omega

end

/-! ## 4. Statements -/

/-- A statement with flat parameters. -/
structure Expanded where
  sql : String
  params : Params

/-- Values that expansion looks at: structured ones, and labels, which are checked. -/
def isSubstituted : Value → Bool
  | .enumeration _ _ => true
  | v => v.needsExpansion

/-- What stands for placeholders so far, and the leaves. -/
structure Substitution where
  fragments : List (String × Fragment)
  params : Params
  leaves : Leaves

/-- Substitutes the parameter of one name, if its value asks for it. -/
def substituteName (r : Registry) (w : Substitution) (name : String) : Except Error Substitution :=
  match w.params.get? name with
  | none => .ok w
  | some v =>
    if isSubstituted v then do
      let (fragment, leaves) ← write r name none false w.leaves v
      pure ⟨w.fragments ++ [(name, fragment)], w.params.erase name, leaves⟩
    else .ok w

/-- A token with its fragment in its place. -/
def replaced (fragments : List (String × Fragment)) (t : Token) : List Char :=
  match t.name?.bind fun name => entryValue? name fragments with
  | some fragment => fragment.text.toList
  | none => t.text

/-- The substitution of a statement's parameters, each name once and in order of appearance. -/
def substitution (r : Registry) (sql : String) (params : Params) : Except Error Substitution :=
  let found := names (tokens sql)
  -- minted names stay clear of all names that the caller or the text uses
  let start : Substitution := ⟨[], params, ⟨params.keys ++ found, .empty⟩⟩
  (Query.distinct found).foldlM (substituteName r) start

/-- Expands a statement. Parameters that the text does not mention pass through. -/
def expand (r : Registry) (sql : String) (params : Params) : Except Error Expanded := do
  let w ← substitution r sql params
  -- nothing to write: the text stays as it is
  if w.fragments.isEmpty then pure ⟨sql, params⟩
  else
    pure ⟨String.ofList ((tokens sql).flatMap (replaced w.fragments)),
      w.params.insertAll w.leaves.params.entries⟩

/-- What expansion reports. -/
def notes (r : Registry) (sql : String) (params : Params) : List LogRecord :=
  Statement.notes sql ++
    match substitution r sql params, expand r sql params with
    | .ok w, .ok e =>
      if w.fragments.isEmpty then []
      else [⟨.trace, "Expanded " ++ Error.cited sql ++ " into " ++ Error.cited e.sql⟩]
    | _, _ => []

end Expansion

end TypedStore
