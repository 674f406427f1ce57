/-
Exact decimal numbers: a sign, a whole number below `2 ^ 96` and a scale up to 28, the count of
decimals. Trailing zeros are kept, and zero has a sign. Conversions to whole numbers accept whole
values in range only.
-/
import TypedStore.Number.FloatText

set_option autoImplicit false

namespace TypedStore.Number

open TypedStore.Text (natText digitsValue?)

/-! ## 1. The type -/

/-- Bound of the digits of a decimal number. -/
def mantissaLimit : Nat := 0x1000000000000000000000000

/-- The most decimals a decimal number keeps. -/
def maxScale : Nat := 28

/-- An exact decimal number, `mantissa / 10 ^ scale` with a sign. -/
structure Decimal where
  negative : Bool
  mantissa : Nat
  scale : Nat
  mantissa_lt : mantissa < mantissaLimit
  scale_le : scale ≤ maxScale
deriving DecidableEq, Repr

namespace Decimal

/-- The decimal number of given parts, if they are in range. -/
def ofParts? (negative : Bool) (mantissa scale : Nat) : Option Decimal :=
  if h : mantissa < mantissaLimit ∧ scale ≤ maxScale then some ⟨negative, mantissa, scale, h.1, h.2⟩
  else none

/-- Zero without decimals. -/
def zero : Decimal := ⟨false, 0, 0, by decide, by decide⟩

instance : Inhabited Decimal := ⟨zero⟩

/-! ## 2. Text -/

/-- The text of a decimal number, with all its decimals. -/
def text (d : Decimal) : String :=
  let digits := (natText d.mantissa).toList
  (if d.negative then "-" else "")
    ++ String.ofList (if d.scale = 0 then digits else pointed digits d.scale)

/-- Reads digits with at most one point among them and a sign in front. A zero that is read has no
sign. -/
def ofText? (s : String) : Option Decimal :=
  let (negative, cs) := match s.toList with
    | '-' :: rest => (true, rest)
    | cs => (false, cs)
  let whole := cs.takeWhile (· != '.')
  let fraction := (cs.dropWhile (· != '.')).drop 1
  (digitsValue? (whole ++ fraction)).bind fun mantissa =>
    ofParts? (negative && mantissa != 0) mantissa fraction.length

/-! ## 3. Whole numbers -/

/-- The signed digits, the number without its scale. -/
def signedMantissa (d : Decimal) : Int :=
  if d.negative then -(d.mantissa : Int) else d.mantissa

/-- Whether the number is whole, whatever decimals it shows. -/
def isWhole (d : Decimal) : Bool :=
  d.mantissa % Nat.pow 10 d.scale == 0

/-- The number cut toward zero. -/
def truncate (d : Decimal) : Int :=
  d.signedMantissa.tdiv (Nat.pow 10 d.scale)

/-- The whole number, when it is one between the bounds. -/
def toInt? (d : Decimal) (low high : Int) : Option Int :=
  let n := d.truncate
  if low ≤ n ∧ n ≤ high ∧ d.isWhole then some n else none

/-- A whole number without decimals. Eight byte integers always fit. -/
def ofInt (n : Int) (h : n.natAbs < mantissaLimit) : Decimal :=
  ⟨n < 0, n.natAbs, 0, h, by decide⟩

/-! ## 4. Floating point -/

/-- The nearest eight byte number. Zero loses its sign. -/
def toBinary64 (d : Decimal) : Binary64 :=
  Binary64.ofFraction (d.negative && d.mantissa != 0) d.mantissa (Nat.pow 10 d.scale)

/-- Multiplies by `5 ^ count` and leaves the powers of two in the exponent of ten. Halves instead
where the digits would no longer fit, at the price of the last bit. -/
def absorbFives : Nat → Nat → Int → Nat × Int
  | 0, digits, exponent => (digits, exponent)
  | count + 1, digits, exponent =>
    if digits % 2 = 0 then absorbFives count (digits / 2) (exponent + 1)
    else if digits * 5 < mantissaLimit then absorbFives count (digits * 5) exponent
    else absorbFives count (digits / 2) (exponent + 1)

/-- Multiplies by `2 ^ count`, and by `1 / 5` and a power of ten where the digits would no longer
fit. -/
def absorbTwos : Nat → Nat → Int → Nat × Int
  | 0, digits, exponent => (digits, exponent)
  | count + 1, digits, exponent =>
    if digits * 2 < mantissaLimit then absorbTwos count (digits * 2) (exponent - 1)
    else absorbTwos count (digits / 5) exponent

/-- The digits without the last one, rounded half up. -/
def dropDigit (digits : Nat) : Nat :=
  digits / 10 + (if 5 ≤ digits % 10 then 1 else 0)

/-- Drops digits while more than `scale` decimals are left; zero needs no decimals. -/
def limitScale : Nat → Nat → Nat → Nat × Nat
  | 0, digits, scale => (digits, scale)
  | fuel + 1, digits, scale =>
    if scale ≤ maxScale then (digits, scale)
    else if digits / 10 = 0 then (0, 0)
    else limitScale fuel (dropDigit digits) (scale - 1)

/-- Drops decimals beyond the precision that an eight byte number carries. -/
def limitPrecision : Nat → Nat → Nat × Nat
  | digits, 0 => (digits, 0)
  | digits, scale + 1 =>
    if digits < 0x10000000000000 then (digits, scale + 1) else limitPrecision (dropDigit digits) scale

/-- Drops zeros at the end of the decimals. -/
def stripZeros : Nat → Nat → Nat × Nat
  | digits, 0 => (digits, 0)
  | digits, scale + 1 =>
    if digits % 10 = 0 then stripZeros (digits / 10) scale else (digits, scale + 1)

/-- The decimal number for an eight byte number, to the precision that it carries. Numbers that are
not finite or have more digits than a decimal number have none. -/
def ofBinary64? (x : Binary64) : Option Decimal :=
  match x.value with
  | .nan | .infinite _ => none
  | .finite negative significand exponent =>
    if significand = 0 then ofParts? negative 0 0
    else
      let (digits, tens) := match exponent with
        | .ofNat k => absorbTwos k significand k
        | .negSucc k => absorbFives (k + 1) significand exponent
      match tens with
      | .ofNat k => ofParts? negative (digits * Nat.pow 10 k) 0
      | .negSucc k =>
        let (digits, scale) := limitScale (k + 1) digits (k + 1)
        let (digits, scale) := limitPrecision digits scale
        let (digits, scale) := stripZeros digits scale
        ofParts? negative digits scale

end Decimal

end TypedStore.Number
