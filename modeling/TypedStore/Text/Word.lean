/-
Words and lengths. A word is made of ASCII letters, digits and underscores, so whether a position
lies in a word can be read off one character; lengths and offsets of text are counted in the bytes
of its UTF-8 form.
-/

set_option autoImplicit false

namespace TypedStore.Text

/-! ## 1. Word characters -/

/-- ASCII letters, digits and the underscore. Every other character ends a word. -/
def isWordChar (c : Char) : Bool :=
  c.isAlphanum || c == '_'

/-- A text made of word characters alone. -/
def IsWord (s : String) : Prop :=
  s ≠ "" ∧ ∀ c ∈ s.toList, isWordChar c = true

/-! ## 2. Lengths in bytes -/

/-- Bytes taken by a list of characters. -/
def byteLength : List Char → Nat
  | [] => 0
  | c :: rest => c.utf8Size + byteLength rest

theorem byteLength_append (xs ys : List Char) :
    byteLength (xs ++ ys) = byteLength xs + byteLength ys := by
  induction xs with
  | nil => simp [byteLength]
  | cons c rest ih => simp [byteLength, ih, Nat.add_assoc]

/-- A word character is a single byte, so a run of them is as long as its bytes. -/
theorem utf8Size_of_isWordChar {c : Char} (h : isWordChar c = true) : c.utf8Size = 1 := by
  delta isWordChar Char.isAlphanum Char.isAlpha Char.isUpper Char.isLower Char.isDigit at h
  simp only [Bool.or_eq_true, Bool.and_eq_true, decide_eq_true_eq, beq_iff_eq] at h
  have small : c.val ≤ 127 := by
    rcases h with ((⟨_, h⟩ | ⟨_, h⟩) | ⟨_, h⟩) | h
    · exact UInt32.le_trans h (by decide)
    · exact UInt32.le_trans h (by decide)
    · exact UInt32.le_trans h (by decide)
    · subst h; decide
  simp [Char.utf8Size, small]

/-! ## 3. Numbers in text -/

/-- The decimal digits of a number. -/
def natText (n : Nat) : String :=
  toString n

/-- The decimal digits of a number after its sign, which only a negative number shows. -/
def intText : Int → String
  | .ofNat n => natText n
  | .negSucc n => "-" ++ natText (n + 1)

/-- The digits of `n`, with zeros in front up to `width`. -/
def padded (width n : Nat) : String :=
  let digits := natText n
  String.ofList (List.replicate (width - digits.length) '0') ++ digits

/-- The value of a non-empty run of decimal digits. -/
def digitsValue? (cs : List Char) : Option Nat :=
  if cs.isEmpty || !cs.all Char.isDigit then none
  else some (cs.foldl (fun acc c => acc * 10 + (c.toNat - '0'.toNat)) 0)

end TypedStore.Text
