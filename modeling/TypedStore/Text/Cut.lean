/-
Cutting and joining text. Texts are cut to a number of bytes without splitting a character, and long
statements are cut for messages. Joined parts are separated only after a part that wrote something;
pieces between separators are read back by cutting at them.
-/
import TypedStore.Text.Word

set_option autoImplicit false

namespace TypedStore.Text

/-! ## 1. Blanks -/

/-- The white space of Unicode, wherever it stands. -/
def isBlank (c : Char) : Bool :=
  let n := c.toNat
  (9 ≤ n && n ≤ 13) || n == 0x20 || n == 0x85 || n == 0xa0 || n == 0x1680
    || (0x2000 ≤ n && n ≤ 0x200a) || n == 0x2028 || n == 0x2029 || n == 0x202f || n == 0x205f
    || n == 0x3000

/-- Drops the characters of a class at the end. -/
def dropEnd (p : Char → Bool) (cs : List Char) : List Char :=
  (cs.reverse.dropWhile p).reverse

/-- The text without the blanks at its end. -/
def trimEnd (s : String) : String :=
  String.ofList (dropEnd isBlank s.toList)

/-! ## 2. Prefixes of bounded size -/

/-- The characters from the front that fit into a number of bytes, up to the first that does not. -/
def takeWithin : Nat → List Char → List Char
  | _, [] => []
  | size, c :: rest =>
    if c.utf8Size ≤ size then c :: takeWithin (size - c.utf8Size) rest else []

/-- The longest prefix of at most `size` bytes that ends between two characters. -/
def prefixWithin (s : String) (size : Nat) : String :=
  String.ofList (takeWithin size s.toList)

/-- Bytes of a statement that messages show. -/
def longTextLimit : Nat := 497

/-- A text for messages: over-long ones are cut, freed of blanks at the cut and marked by dots. -/
def truncateLong (s : String) : String :=
  trimEnd (prefixWithin s longTextLimit) ++ (if longTextLimit < byteLength s.toList then "..." else "")

/-! ## 3. Joining -/

/-- Joins parts. The separator follows a part that wrote something and is not the last: an empty
part leaves nothing behind to separate from. -/
def joinParts (separator : String) : List String → String
  | [] => ""
  | [part] => part
  | part :: rest => part ++ (if part.isEmpty then "" else separator) ++ joinParts separator rest

/-! ## 4. Separators -/

/-- What stands before and behind the first of a separator, if there is one. -/
def cutAt? (separator : Char) : List Char → Option (List Char × List Char)
  | [] => none
  | c :: rest =>
    if c = separator then some ([], rest)
    else (cutAt? separator rest).map fun (before, behind) => (c :: before, behind)

/-- A cut loses nothing but the separator. -/
theorem append_of_cutAt? {separator : Char} {cs before behind : List Char}
    (h : cutAt? separator cs = some (before, behind)) : cs = before ++ separator :: behind := by
  induction cs generalizing before with
  | nil => simp [cutAt?] at h
  | cons c rest ih =>
    simp only [cutAt?] at h
    split at h
    · next hc =>
      obtain ⟨rfl, rfl⟩ := Prod.mk.inj (Option.some.inj h)
      simp [hc]
    · obtain ⟨⟨first, last⟩, hcut, heq⟩ := Option.map_eq_some_iff.1 h
      obtain ⟨rfl, rfl⟩ := Prod.mk.inj heq
      simp [ih hcut]

/-- What stands behind a separator is shorter than the whole. -/
theorem length_of_cutAt? {separator : Char} {cs before behind : List Char}
    (h : cutAt? separator cs = some (before, behind)) : behind.length < cs.length := by
  rw [append_of_cutAt? h]
  simp only [List.length_append, List.length_cons]
  omega

/-- The pieces between separators, one more than there are separators. -/
def pieces (separator : Char) : List Char → List (List Char)
  | [] => [[]]
  | c :: rest =>
    if c = separator then [] :: pieces separator rest
    else
      match pieces separator rest with
      | [] => [[c]]
      | first :: others => (c :: first) :: others

end TypedStore.Text
