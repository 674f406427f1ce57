/-
Reading documents from text. The grammar is the strict one: no trailing commas, no comments, no
leading zeros, controls escaped inside strings, and at most 127 levels of nesting. A number is read
as a whole number of up to 64 bits and a power of ten; where that is not a whole number itself, both
are rounded and multiplied or divided.
-/
import TypedStore.Document.Basic
import TypedStore.Text.Bytes

set_option autoImplicit false

namespace TypedStore.Document

open TypedStore.Number TypedStore.Text

/-! ## 1. Numbers -/

/-- Bound of the digits that are collected into one whole number. -/
def digitsLimit : Nat := 0x10000000000000000

/-- A product or quotient of positive floating point numbers, rounded. -/
def scaleBy (x factor : Binary64) (divide : Bool) : Binary64 :=
  match x.value, factor.value with
  | .finite _ m e, .finite _ n f =>
    if divide then
      let (num, den) := shiftFraction m n (e - f)
      Binary64.ofFraction false num den
    else
      let (num, den) := shiftFraction (m * n) 1 (e + f)
      Binary64.ofFraction false num den
  | _, _ => x

/-- The floating point number next to a power of ten that one can hold. -/
def powerOfTen (k : Nat) : Binary64 := Binary64.ofFraction false (Nat.pow 10 k) 1

/-- Whether a positive number has overflowed. -/
def isInfinite (x : Binary64) : Bool :=
  match x.value with
  | .infinite _ => true
  | _ => false

/-- `digits * 10 ^ exponent`, in steps of at most `10 ^ 308`, or nothing when it is too large. -/
def scaled? : Nat → Binary64 → Int → Option Binary64
  | 0, x, _ => some x
  | fuel + 1, x, exponent =>
    if 0 ≤ exponent then
      if x.bits = 0 then some x
      else if exponent ≤ 308 then
        let y := scaleBy x (powerOfTen exponent.toNat) false
        if isInfinite y then none else some y
      else none
    else if -308 ≤ exponent then some (scaleBy x (powerOfTen exponent.natAbs) true)
    else if x.bits = 0 then some x
    else scaled? fuel (scaleBy x (powerOfTen 308) true) (exponent + 308)

/-- A floating point number of a document. -/
def float? (negative : Bool) (digits : Nat) (exponent : Int) : Option DocumentNumber :=
  let bounded := max (min exponent 100000) (-100000)
  (scaled? 400 (Binary64.ofFraction false digits 1) bounded).map fun x =>
    .float (if negative then ⟨x.bits ||| 0x8000000000000000⟩ else x)

/-- Collects digits as long as they stay below the limit; also says how many were taken. -/
def collect : Nat → Nat → List Char → Nat × Nat × List Char
  | value, count, c :: rest =>
    if c.isDigit then
      let next := value * 10 + (c.toNat - '0'.toNat)
      if next < digitsLimit then collect next (count + 1) rest else (value, count, c :: rest)
    else (value, count, c :: rest)
  | value, count, [] => (value, count, [])

/-- Splits off the digits in front. -/
def digitRun (cs : List Char) : List Char × List Char :=
  (cs.takeWhile Char.isDigit, cs.dropWhile Char.isDigit)

/-- The exponent part, if there is one: its value and the rest. -/
def exponentPart? (cs : List Char) : Option (Option Int × List Char) :=
  match cs with
  | c :: rest =>
    if c = 'e' || c = 'E' then
      let (negative, rest) := match rest with
        | '+' :: r => (false, r)
        | '-' :: r => (true, r)
        | r => (false, r)
      let (digits, rest) := digitRun rest
      (digitsValue? digits).map fun n => (some (if negative then -(n : Int) else n), rest)
    else some (none, cs)
  | [] => some (none, [])

/-- A number behind its sign. -/
def readNumber? (negative : Bool) (cs : List Char) : Option (DocumentNumber × List Char) := do
  let (whole, afterWhole) := digitRun cs
  if whole.isEmpty || (whole.length > 1 && whole.head? == some '0') then none
  let (value, taken, _) := collect 0 0 whole
  let dropped := whole.length - taken
  let (fraction, afterFraction) ← match afterWhole with
    | '.' :: rest =>
      let (digits, rest) := digitRun rest
      if digits.isEmpty then none else some (some digits, rest)
    | rest => some (none, rest)
  let (exponent, rest) ← exponentPart? afterFraction
  match fraction, exponent with
  | none, none =>
    if dropped = 0 then
      -- zero behind a sign and numbers out of range are floating point numbers
      if !negative then pure (.integer value, rest)
      else if value ≠ 0 ∧ value ≤ 0x8000000000000000 then pure (.integer (-(value : Int)), rest)
      else pure (← float? true value 0, rest)
    else pure (← float? negative value dropped, rest)
  | _, _ =>
    let digits := fraction.getD []
    let (value, takenDecimals, _) := if dropped = 0 then collect value 0 digits else (value, 0, [])
    let point : Int := (dropped : Int) - takenDecimals
    pure (← float? negative value (point + exponent.getD 0), rest)

/-! ## 2. Strings -/

/-- Four hexadecimal digits. -/
def readUnit? : List Char → Option (Nat × List Char)
  | a :: b :: c :: d :: rest => (hexNat? [a, b, c, d]).map fun n => (n, rest)
  | _ => none

/-- The rest of a string behind its opening quote; `acc` holds the characters read, last first. -/
def readString? : Nat → List Char → List Char → Option (String × List Char)
  | 0, _, _ => none
  | fuel + 1, acc, cs =>
    match cs with
    | [] => none
    | '"' :: rest => some (String.ofList acc.reverse, rest)
    | '\\' :: rest =>
      match rest with
      | '"' :: r => readString? fuel ('"' :: acc) r
      | '\\' :: r => readString? fuel ('\\' :: acc) r
      | '/' :: r => readString? fuel ('/' :: acc) r
      | 'b' :: r => readString? fuel (Char.ofNat 8 :: acc) r
      | 'f' :: r => readString? fuel (Char.ofNat 12 :: acc) r
      | 'n' :: r => readString? fuel ('\n' :: acc) r
      | 'r' :: r => readString? fuel ('\r' :: acc) r
      | 't' :: r => readString? fuel ('\t' :: acc) r
      | 'u' :: r =>
        match readUnit? r with
        | none => none
        | some (unit, r) =>
          if unit < 0xd800 || 0xe000 ≤ unit then readString? fuel (Char.ofNat unit :: acc) r
          else if 0xdc00 ≤ unit then none
          else match r with
            | '\\' :: 'u' :: r =>
              match readUnit? r with
              | some (low, r) =>
                if 0xdc00 ≤ low && low < 0xe000 then
                  readString? fuel
                    (Char.ofNat (0x10000 + (unit - 0xd800) * 0x400 + (low - 0xdc00)) :: acc) r
                else none
              | none => none
            | _ => none
      | _ => none
    | c :: rest => if c.toNat < 0x20 then none else readString? fuel (c :: acc) rest

/-! ## 3. Documents -/

/-- Drops the blanks that may stand between tokens. -/
def skipBlanks (cs : List Char) : List Char :=
  cs.dropWhile fun c => c == ' ' || c == '\n' || c == '\t' || c == '\r'

/-- What follows a fixed word. -/
def expect? (word : String) (cs : List Char) : Option (List Char) :=
  let letters := word.toList
  if letters.isPrefixOf cs then some (cs.drop letters.length) else none

mutual

/-- A document at the front, of at most `depth` levels. -/
def readValue? : Nat → Nat → List Char → Option (Document × List Char)
  | 0, _, _ => none
  | fuel + 1, depth, cs =>
    match skipBlanks cs with
    | 'n' :: rest => (expect? "ull" rest).map fun r => (.null, r)
    | 't' :: rest => (expect? "rue" rest).map fun r => (.bool true, r)
    | 'f' :: rest => (expect? "alse" rest).map fun r => (.bool false, r)
    | '"' :: rest => (readString? (rest.length + 1) [] rest).map fun (s, r) => (.string s, r)
    | '-' :: rest => (readNumber? true rest).map fun (n, r) => (.number n, r)
    | '[' :: rest =>
      match depth with
      | 0 => none
      | depth + 1 =>
        match skipBlanks rest with
        | ']' :: r => some (.array [], r)
        | _ => (readItems? fuel depth rest).map fun (items, r) => (.array items, r)
    | '\x7b' :: rest =>
      match depth with
      | 0 => none
      | depth + 1 =>
        match skipBlanks rest with
        | '\x7d' :: r => some (.object [], r)
        | _ => (readMembers? fuel depth [] rest).map fun (members, r) => (.object members, r)
    | c :: rest =>
      if c.isDigit then (readNumber? false (c :: rest)).map fun (n, r) => (.number n, r) else none
    | [] => none

/-- The items of an array up to its closing bracket, at least one. -/
def readItems? : Nat → Nat → List Char → Option (List Document × List Char)
  | 0, _, _ => none
  | fuel + 1, depth, cs =>
    match readValue? fuel depth cs with
    | none => none
    | some (item, rest) =>
      match skipBlanks rest with
      | ',' :: r => (readItems? fuel depth r).map fun (items, r) => (item :: items, r)
      | ']' :: r => some ([item], r)
      | _ => none

/-- The members of an object up to its closing brace, added to those read before. -/
def readMembers? : Nat → Nat → List (String × Document) → List Char →
    Option (List (String × Document) × List Char)
  | 0, _, _, _ => none
  | fuel + 1, depth, members, cs =>
    match skipBlanks cs with
    | '"' :: rest =>
      match readString? (rest.length + 1) [] rest with
      | none => none
      | some (key, rest) =>
        match skipBlanks rest with
        | ':' :: rest =>
          match readValue? fuel depth rest with
          | none => none
          | some (value, rest) =>
            let members := insertEntry key value members
            match skipBlanks rest with
            | ',' :: r => readMembers? fuel depth members r
            | '\x7d' :: r => some (members, r)
            | _ => none
        | _ => none
    | _ => none

end

/-- Levels of nesting that a text may have. -/
def depthLimit : Nat := 127

/-- The document that a whole text stands for. -/
def ofText? (s : String) : Option Document :=
  let cs := s.toList
  match readValue? (2 * cs.length + 2) depthLimit cs with
  | some (document, rest) => if (skipBlanks rest).isEmpty then some document else none
  | none => none

end TypedStore.Document
