/-
Bytes of text. Texts and bytes are related by UTF-8, which can also be read with a mark in place of
what is broken, and bytes are shown as pairs of lower case hexadecimal digits.
-/

set_option autoImplicit false

namespace TypedStore.Text

/-! ## 1. UTF-8 -/

/-- The UTF-8 form of a text. -/
def utf8Encode (s : String) : List UInt8 :=
  s.toUTF8.toList

/-- The text whose UTF-8 form is given, if there is one. -/
def utf8Decode? (bytes : List UInt8) : Option String :=
  String.fromUTF8? (ByteArray.mk bytes.toArray)

/-! ## 2. Broken UTF-8 -/

/-- What the first byte of a character announces: how many bytes follow, in which range the next one
lies, and the bits of its own. -/
structure LeadByte where
  following : Nat
  low : UInt8
  high : UInt8
  bits : Nat

/-- What a byte announces, unless no character begins with it. -/
def leadByte? (b : UInt8) : Option LeadByte :=
  let n := b.toNat
  if n < 0x80 then some ⟨0, 0, 0, n⟩
  else if n < 0xc2 then none
  else if n < 0xe0 then some ⟨1, 0x80, 0xbf, n - 0xc0⟩
  else if n < 0xf0 then
    some ⟨2, if n = 0xe0 then 0xa0 else 0x80, if n = 0xed then 0x9f else 0xbf, n - 0xe0⟩
  else if n < 0xf5 then
    some ⟨3, if n = 0xf0 then 0x90 else 0x80, if n = 0xf4 then 0x8f else 0xbf, n - 0xf0⟩
  else none

/-- The bytes at the front that continue a character, of which the first lies in a range of its own. -/
def continuation : Nat → UInt8 → UInt8 → List UInt8 → List UInt8
  | 0, _, _, _ => []
  | _ + 1, _, _, [] => []
  | n + 1, low, high, b :: rest =>
    if low ≤ b ∧ b ≤ high then b :: continuation n 0x80 0xbf rest else []

/-- The mark in place of bytes that no character has. -/
def replacementMark : Char := '\uFFFD'

/-- The character at the front, given the first byte, with the number of further bytes that it takes;
the mark for the longest beginning of a character that does not go on. -/
def firstChar (b : UInt8) (rest : List UInt8) : Char × Nat :=
  match leadByte? b with
  | none => (replacementMark, 0)
  | some lead =>
    let more := continuation lead.following lead.low lead.high rest
    if more.length = lead.following then
      (Char.ofNat (more.foldl (fun n c => n * 64 + c.toNat % 64) lead.bits), more.length)
    else (replacementMark, more.length)

/-- The text of bytes, with a mark for whatever is no UTF-8. -/
def utf8Mend (bytes : List UInt8) : List Char :=
  match bytes with
  | [] => []
  | b :: rest =>
    let (c, size) := firstChar b rest
    c :: utf8Mend (rest.drop size)
termination_by bytes.length
decreasing_by simp only [List.length_drop, List.length_cons]; omega

/-! ## 3. Hexadecimal -/

/-- The value of a hexadecimal digit of either case. -/
def hexValue? (c : Char) : Option Nat :=
  if '0' ≤ c ∧ c ≤ '9' then some (c.toNat - '0'.toNat)
  else if 'a' ≤ c ∧ c ≤ 'f' then some (c.toNat - 'a'.toNat + 10)
  else if 'A' ≤ c ∧ c ≤ 'F' then some (c.toNat - 'A'.toNat + 10)
  else none

/-- The digit of a value below sixteen, in lower case. -/
def hexDigit (n : Nat) : Char :=
  if n < 10 then Char.ofNat ('0'.toNat + n) else Char.ofNat ('a'.toNat + (n - 10))

/-- Bytes as pairs of digits. -/
def hexText (bytes : List UInt8) : String :=
  String.ofList (bytes.flatMap fun b => [hexDigit (b.toNat / 16), hexDigit (b.toNat % 16)])

/-- Reads pairs of digits. -/
def hexBytes? : List Char → Option (List UInt8)
  | [] => some []
  | [_] => none
  | high :: low :: rest => do
    let h ← hexValue? high
    let l ← hexValue? low
    let bytes ← hexBytes? rest
    pure (UInt8.ofNat (h * 16 + l) :: bytes)

/-- A number from all its hexadecimal digits. -/
def hexNat? (cs : List Char) : Option Nat :=
  cs.foldl (fun acc c => do pure ((← acc) * 16 + (← hexValue? c))) (some 0)

/-- A number in a fixed count of hexadecimal digits. -/
def hexPadded (width n : Nat) : String :=
  String.ofList ((List.range width).reverse.map fun i => hexDigit (n / Nat.pow 16 i % 16))

end TypedStore.Text
