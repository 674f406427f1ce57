/-
Documents: the structured data that stores keep as one cell. Objects list their members in rising key
order, each key once. Numbers are whole when they fit 64 bits and are written as such, and floating
point otherwise.
-/
import TypedStore.Number.FloatText
import TypedStore.Text.Quoted
import TypedStore.Text.Cut
import TypedStore.Dict

set_option autoImplicit false

namespace TypedStore

open TypedStore.Number TypedStore.Text

/-! ## 1. The type -/

/-- A number of a document. Whole numbers lie between the least signed and the greatest unsigned
64 bit integer. -/
inductive DocumentNumber where
  | integer (n : Int)
  | float (x : Binary64)
deriving DecidableEq, Repr

/-- Structured data. -/
inductive Document where
  | null
  | bool (b : Bool)
  | number (n : DocumentNumber)
  | string (s : String)
  | array (items : List Document)
  | object (members : List (String × Document))

instance : Inhabited Document := ⟨.null⟩

namespace Document

/-- A whole number. -/
def ofInt (n : Int) : Document := .number (.integer n)

/-- An object from its members, of which a later one replaces an earlier one of the same key. -/
def ofMembers (members : List (String × Document)) : Document :=
  .object (members.foldl (fun acc m => insertEntry m.1 m.2 acc) [])

/-! ## 2. Compact text -/

/-- The text of a number. -/
def numberText : DocumentNumber → String
  | .integer n => intText n
  | .float x => x.text documentLayout

/-- A character inside a document's string. Only quotes, backslashes and controls are escaped. -/
def stringChar (c : Char) : List Char :=
  match c with
  | '"' => ['\\', '"']
  | '\\' => ['\\', '\\']
  | '\n' => ['\\', 'n']
  | '\r' => ['\\', 'r']
  | '\t' => ['\\', 't']
  | _ =>
    if c.toNat = 8 then ['\\', 'b']
    else if c.toNat = 12 then ['\\', 'f']
    else if c.toNat < 0x20 then
      ['\\', 'u', '0', '0', if c.toNat < 16 then '0' else '1', (hexDigits (c.toNat % 16)).headD '0']
    else [c]

/-- A string of a document. -/
def stringText (s : String) : String :=
  String.ofList ('"' :: (s.toList.flatMap stringChar ++ ['"']))

mutual

/-- The compact text of a document. -/
def text : Document → String
  | .null => "null"
  | .bool b => if b then "true" else "false"
  | .number n => numberText n
  | .string s => stringText s
  | .array items => "[" ++ ",".intercalate (itemTexts items) ++ "]"
  | .object members => "\x7b" ++ ",".intercalate (memberTexts members) ++ "\x7d"

/-- The compact texts of the items of an array. -/
def itemTexts : List Document → List String
  | [] => []
  | d :: rest => d.text :: itemTexts rest

/-- The compact texts of the members of an object. -/
def memberTexts : List (String × Document) → List String
  | [] => []
  | (k, d) :: rest => (stringText k ++ ":" ++ d.text) :: memberTexts rest

end

/-! ## 3. Diagnostic text -/

mutual

/-- The text of a document that names the kinds of its parts. -/
def diagnostic : Document → String
  | .null => "Null"
  | .bool b => "Bool(" ++ (if b then "true" else "false") ++ ")"
  | .number n => "Number(" ++ numberText n ++ ")"
  | .string s => "String(" ++ quoted s ++ ")"
  | .array items => "Array [" ++ ", ".intercalate (itemDiagnostics items) ++ "]"
  | .object members => "Object \x7b" ++ ", ".intercalate (memberDiagnostics members) ++ "\x7d"

/-- Diagnostic texts of the items of an array. -/
def itemDiagnostics : List Document → List String
  | [] => []
  | d :: rest => d.diagnostic :: itemDiagnostics rest

/-- Diagnostic texts of the members of an object. -/
def memberDiagnostics : List (String × Document) → List String
  | [] => []
  | (k, d) :: rest => (quoted k ++ ": " ++ d.diagnostic) :: memberDiagnostics rest

end

end Document

end TypedStore
