/-
Quoted text for diagnostics. Text stands between double quotes; quotes, backslashes, common controls
and every character without a visible form of its own are written as escapes.
-/
import TypedStore.Text.Letter

set_option autoImplicit false

namespace TypedStore.Text

/-- A character that is not printed as it is. -/
def isHidden (c : Char) : Bool :=
  c.toNat < 0x20 || (0x7f ≤ c.toNat && inIntervals hiddenIntervals c.toNat)

/-- The digits of a number in base sixteen. -/
def hexDigits (n : Nat) : List Char :=
  Nat.toDigits 16 n

/-- A character inside a quoted text. -/
def quotedChar (c : Char) : List Char :=
  match c with
  | '"' => ['\\', '"']
  | '\\' => ['\\', '\\']
  | '\n' => ['\\', 'n']
  | '\r' => ['\\', 'r']
  | '\t' => ['\\', 't']
  | _ =>
    if c.toNat = 0 then ['\\', '0']
    else if isHidden c || isMark c then ['\\', 'u', '\x7b'] ++ hexDigits c.toNat ++ ['\x7d']
    else [c]

/-- The text between double quotes. -/
def quoted (s : String) : String :=
  String.ofList ('"' :: (s.toList.flatMap quotedChar ++ ['"']))

end TypedStore.Text
