/-
Percent codes. In an address a byte can stand as a percent sign and two hexadecimal digits, and a text
stands for its UTF-8 form. Names and values of a form are written with codes for all separators, and
with plus signs for spaces, so the pairs can be told apart again.
-/
import TypedStore.Text.Bytes
import TypedStore.Text.Cut

set_option autoImplicit false

namespace TypedStore.Text

/-! ## 1. Codes -/

/-- The code of a byte, with digits in upper case. -/
def percentCode (b : UInt8) : List Char :=
  ['%', (hexDigit (b.toNat / 16)).toUpper, (hexDigit (b.toNat % 16)).toUpper]

/-- A character that is kept, or the codes of its UTF-8 form. -/
def percentEncodeChar (keep : Char → Bool) (c : Char) : List Char :=
  if keep c then [c] else (utf8Encode (String.singleton c)).flatMap percentCode

/-- A text with codes for the characters that are not kept. -/
def percentEncode (keep : Char → Bool) (cs : List Char) : List Char :=
  cs.flatMap (percentEncodeChar keep)

/-- The bytes that a text with codes stands for. A percent sign without two digits is itself. -/
def percentBytes : List Char → List UInt8
  | [] => []
  | '%' :: high :: low :: rest =>
    match hexValue? high, hexValue? low with
    | some h, some l => UInt8.ofNat (h * 16 + l) :: percentBytes rest
    | _, _ => utf8Encode "%" ++ percentBytes (high :: low :: rest)
  | c :: rest => utf8Encode (String.singleton c) ++ percentBytes rest

/-- Digits in upper case are read back. -/
theorem hexValue?_upper : ∀ n, n < 16 → hexValue? (hexDigit n).toUpper = some n := by decide

/-- The code of a byte stands for it. -/
theorem percentBytes_percentCode (b : UInt8) (rest : List Char) :
    percentBytes (percentCode b ++ rest) = b :: percentBytes rest := by
  have hb : b.toNat < 256 := b.toNat_lt
  have high := hexValue?_upper (b.toNat / 16) (by omega)
  have low := hexValue?_upper (b.toNat % 16) (by omega)
  have whole : b.toNat / 16 * 16 + b.toNat % 16 = b.toNat := by omega
  simp [percentCode, percentBytes, high, low, whole]

/-- The codes of bytes stand for them. -/
theorem percentBytes_flatMap (bytes : List UInt8) (rest : List Char) :
    percentBytes (bytes.flatMap percentCode ++ rest) = bytes ++ percentBytes rest := by
  induction bytes with
  | nil => rfl
  | cons b others ih =>
    rw [List.flatMap_cons, List.append_assoc, percentBytes_percentCode, ih, List.cons_append]

/-- The text that a text with codes stands for, if the bytes are UTF-8. -/
def percentDecode? (cs : List Char) : Option String := utf8Decode? (percentBytes cs)

/-! ## 2. Forms -/

/-- The characters that a form keeps. -/
def isFormKept (c : Char) : Bool :=
  c.isAlphanum || c == '*' || c == '-' || c == '.' || c == '_'

/-- A name or value in a form. -/
def formEncode (s : String) : List Char :=
  s.toList.flatMap fun c => if c = ' ' then ['+'] else percentEncodeChar isFormKept c

/-- The name or value that a form shows, mended where its bytes are no UTF-8. -/
def formDecode (cs : List Char) : String :=
  String.ofList (utf8Mend (percentBytes (cs.map fun c => if c = '+' then ' ' else c)))

/-- A pair in a form. -/
def formPair (pair : String × String) : List Char :=
  formEncode pair.1 ++ '=' :: formEncode pair.2

/-- The pair that a piece of a form shows; without an equals sign the value is empty. -/
def readFormPair (piece : List Char) : String × String :=
  match cutAt? '=' piece with
  | some (name, value) => (formDecode name, formDecode value)
  | none => (formDecode piece, "")

/-- Pairs as a form. -/
def formText (pairs : List (String × String)) : String :=
  String.ofList (['&'].intercalate (pairs.map formPair))

/-- The pairs of a form. Empty pieces are no pairs. -/
def formPairs (form : String) : List (String × String) :=
  ((pieces '&' form.toList).filter fun piece => !piece.isEmpty).map readFormPair

end TypedStore.Text
