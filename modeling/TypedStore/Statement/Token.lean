/-
The tokens of a statement, as far as placeholders are concerned. A placeholder is a colon followed by
a word. Literals, quoted identifiers, comments and dollar quoted blocks hide what looks like one, and
two colons are a cast. Every text is a sequence of tokens: what is never closed runs to the end, and a
dollar marker without a second one stands alone.

All characters that the rules name are ASCII, so cutting characters and cutting the bytes of their
UTF-8 form give the same placeholders; offsets are counted in bytes.
-/
import TypedStore.Text.Word

set_option autoImplicit false

namespace TypedStore.Statement

open TypedStore.Text

/-! ## 1. Tokens -/

/-- What a token is. -/
inductive TokenKind where
  /-- Text between single quotes. -/
  | literal
  /-- Text between double quotes. -/
  | identifier
  /-- Two hyphens up to the end of the line. -/
  | lineComment
  /-- Slash and star up to their matching counterpart. -/
  | blockComment
  /-- Text between two equal dollar markers. -/
  | dollarBlock
  /-- A dollar marker without a second one. -/
  | loneMarker
  /-- Two colons. -/
  | cast
  /-- A colon and a word. -/
  | placeholder
  /-- One character of anything else. -/
  | plain
deriving DecidableEq, Repr

/-- A piece of a statement. -/
structure Token where
  kind : TokenKind
  text : List Char
deriving DecidableEq, Repr

/-- The word of a placeholder. -/
def Token.name? (t : Token) : Option String :=
  if t.kind = .placeholder then some (String.ofList (t.text.drop 1)) else none

/-! ## 2. Extents

Each function counts the characters that belong to a token behind its opening. -/

/-- Behind an opening quote, the closing one included. Two quotes do not close, and neither does one
behind a backslash where backslashes escape. -/
def quotedExtent (quote : Char) (escapes : Bool) : List Char → Nat
  | [] => 0
  | [_] => 1
  | c :: d :: rest =>
    if escapes && c == '\\' then 2 + quotedExtent quote escapes rest
    else if c == quote then
      if d == quote then 2 + quotedExtent quote escapes rest else 1
    else 1 + quotedExtent quote escapes (d :: rest)

/-- Up to the end of the line, which belongs to a comment. -/
def lineExtent : List Char → Nat
  | [] => 0
  | c :: rest => if c == '\n' then 1 else 1 + lineExtent rest

/-- Up to the end of a comment inside `depth + 1` openings. -/
def blockExtent : Nat → List Char → Nat
  | _, [] => 0
  | _, [_] => 1
  | depth, c :: d :: rest =>
    if c == '/' && d == '*' then 2 + blockExtent (depth + 1) rest
    else if c == '*' && d == '/' then
      match depth with
      | 0 => 2
      | depth + 1 => 2 + blockExtent depth rest
    else 1 + blockExtent depth (d :: rest)

/-- How many characters stand in front of the first occurrence of a text. -/
def distanceTo? (needle : List Char) : List Char → Option Nat
  | [] => if needle.isEmpty then some 0 else none
  | c :: rest =>
    if needle.isPrefixOf (c :: rest) then some 0 else (distanceTo? needle rest).map (· + 1)

/-! ## 3. Context

`before` holds what precedes a position, nearest first. -/

/-- Backslashes escape in a literal right behind a lone `E`. -/
def escapesBefore (before : List Char) : Bool :=
  match before with
  | e :: rest => (e == 'E' || e == 'e') && !((rest.head?.map isWordChar).getD false)
  | [] => false

/-- The dollar marker that a dollar opens, with both its dollars. Numbered parameters and words with
a dollar inside open none. -/
def marker? (before rest : List Char) : Option (List Char) :=
  if (before.head?.map fun c => isWordChar c || c == '$').getD false then none
  else if (rest.head?.map Char.isDigit).getD false then none
  else
    let tag := rest.takeWhile isWordChar
    if (rest.drop tag.length).head? = some '$' then some ('$' :: (tag ++ ['$'])) else none

/-! ## 4. The cut -/

/-- The token that starts with `c`: its kind and how much of `rest` belongs to it. -/
def nextToken (before : List Char) (c : Char) (rest : List Char) : TokenKind × Nat :=
  if c = '\'' then (.literal, quotedExtent '\'' (escapesBefore before) rest)
  else if c = '"' then (.identifier, quotedExtent '"' false rest)
  else if c = '-' ∧ rest.head? = some '-' then (.lineComment, lineExtent rest)
  else if c = '/' ∧ rest.head? = some '*' then (.blockComment, 1 + blockExtent 0 (rest.drop 1))
  else if c = '$' then
    match marker? before rest with
    | none => (.plain, 0)
    | some marker =>
      match distanceTo? marker (rest.drop (marker.length - 1)) with
      | some gap => (.dollarBlock, marker.length - 1 + gap + marker.length)
      | none => (.loneMarker, marker.length - 1)
  else if c = ':' then
    if rest.head? = some ':' then (.cast, 1)
    else
      let word := rest.takeWhile isWordChar
      if word.isEmpty then (.plain, 0) else (.placeholder, word.length)
  else (.plain, 0)

/-- The tokens of a text behind `before`. -/
def tokensAfter (before : List Char) : List Char → List Token
  | [] => []
  | c :: rest =>
    let (kind, size) := nextToken before c rest
    let text := c :: rest.take size
    ⟨kind, text⟩ :: tokensAfter (text.reverse ++ before) (rest.drop size)
termination_by cs => cs.length
decreasing_by simp only [List.length_drop, List.length_cons]; omega

/-- The tokens of a statement. -/
def tokens (sql : String) : List Token :=
  tokensAfter [] sql.toList

/-- Nothing is lost: the tokens make up the text. -/
theorem flatMap_text_tokensAfter (before cs : List Char) :
    (tokensAfter before cs).flatMap (·.text) = cs := by
  fun_induction tokensAfter before cs with
  | case1 => rfl
  | case2 before c rest kind size hnext text ih =>
    rw [List.flatMap_cons, ih]
    exact congrArg (c :: ·) (List.take_append_drop size rest)

/-! ## 5. Placeholders -/

/-- A placeholder with the bytes it covers, `stop` excluded. -/
structure Placeholder where
  name : String
  start : Nat
  stop : Nat
deriving DecidableEq, Repr

/-- The placeholders among tokens that start at an offset. -/
def placeholdersFrom (offset : Nat) : List Token → List Placeholder
  | [] => []
  | t :: rest =>
    let stop := offset + byteLength t.text
    match t.name? with
    | some name => ⟨name, offset, stop⟩ :: placeholdersFrom stop rest
    | none => placeholdersFrom stop rest

/-- The placeholders of a statement in order of appearance. -/
def placeholders (sql : String) : List Placeholder :=
  placeholdersFrom 0 (tokens sql)

/-- The names of the placeholders among tokens, repetitions included. -/
def names (ts : List Token) : List String := ts.filterMap Token.name?

/-- The dollar markers that are never closed. -/
def loneMarkers (ts : List Token) : List String :=
  ts.filterMap fun t => if t.kind = .loneMarker then some (String.ofList t.text) else none

end TypedStore.Statement
