/-
Binary floating point numbers, held as the bits of the interchange formats. A finite number is a
significand times a power of two; a fraction is rounded to the nearest number of a format, halves
going to the even significand. All arithmetic is on whole numbers, so it is exact.
-/

set_option autoImplicit false

namespace TypedStore.Number

/-! ## 1. Formats -/

/-- A format by the widths of its two fields. -/
structure BinaryFormat where
  fractionBits : Nat
  exponentBits : Nat
deriving DecidableEq, Repr

namespace BinaryFormat

/-- Four byte numbers. -/
def single : BinaryFormat := ⟨23, 8⟩

/-- Eight byte numbers. -/
def double : BinaryFormat := ⟨52, 11⟩

/-- What is added to an exponent before it is stored. -/
def bias (fmt : BinaryFormat) : Nat := Nat.pow 2 (fmt.exponentBits - 1) - 1

/-- The power of two of the last place of the smallest numbers. -/
def leastExponent (fmt : BinaryFormat) : Int := 1 - (fmt.bias : Int) - (fmt.fractionBits : Int)

/-- The bits of infinity, which follow those of the largest number. -/
def infinityBits (fmt : BinaryFormat) : Nat := (Nat.pow 2 fmt.exponentBits - 1) * Nat.pow 2 fmt.fractionBits

/-- The bits of the sign alone. -/
def signBit (fmt : BinaryFormat) : Nat := Nat.pow 2 (fmt.fractionBits + fmt.exponentBits)

end BinaryFormat

/-! ## 2. Reading -/

/-- What bits stand for. A finite number is `significand * 2 ^ exponent` with its sign. -/
inductive BinaryValue where
  | nan
  | infinite (negative : Bool)
  | finite (negative : Bool) (significand : Nat) (exponent : Int)
deriving DecidableEq, Repr

/-- Reads bits. -/
def BinaryFormat.read (fmt : BinaryFormat) (bits : Nat) : BinaryValue :=
  let fraction := bits % Nat.pow 2 fmt.fractionBits
  let stored := bits / Nat.pow 2 fmt.fractionBits % Nat.pow 2 fmt.exponentBits
  let negative := bits / fmt.signBit % 2 == 1
  if stored = Nat.pow 2 fmt.exponentBits - 1 then
    if fraction = 0 then .infinite negative else .nan
  else if stored = 0 then .finite negative fraction fmt.leastExponent
  else .finite negative (fraction + Nat.pow 2 fmt.fractionBits) (fmt.leastExponent + (stored - 1))

/-! ## 3. Rounding -/

/-- The nearest whole number to a fraction, halves to the even one. -/
def roundHalfEven (num den : Nat) : Nat :=
  let q := num / den
  let twice := 2 * (num % den)
  if twice < den then q else if den < twice then q + 1 else q + q % 2

/-- `num / den` times a power of two, as numerator and denominator. -/
def shiftFraction (num den : Nat) (power : Int) : Nat × Nat :=
  match power with
  | .ofNat k => (num * Nat.pow 2 k, den)
  | .negSucc k => (num, den * Nat.pow 2 (k + 1))

/-- The largest power of two that a positive fraction reaches. -/
def floorLog2 (num den : Nat) : Int :=
  let guess : Int := (Nat.log2 num : Int) - (Nat.log2 den : Int)
  let (n, d) := shiftFraction num den (-guess)
  if n < d then guess - 1 else guess

/-- The bits of the number nearest to `num / den`, without a sign. -/
def BinaryFormat.magnitudeBits (fmt : BinaryFormat) (num den : Nat) : Nat :=
  if num = 0 then 0
  else
    let exponent := max (floorLog2 num den - (fmt.fractionBits : Int)) fmt.leastExponent
    let (n, d) := shiftFraction num den (-exponent)
    let significand := roundHalfEven n d
    -- a significand that rounds up to a power of two carries into the exponent
    let bits :=
      if significand < Nat.pow 2 fmt.fractionBits then significand
      else
        (exponent - fmt.leastExponent + 1).toNat * Nat.pow 2 fmt.fractionBits
          + (significand - Nat.pow 2 fmt.fractionBits)
    -- what lies beyond the largest number is infinite
    min bits fmt.infinityBits

/-- The bits of a signed fraction. -/
def BinaryFormat.write (fmt : BinaryFormat) (negative : Bool) (num den : Nat) : Nat :=
  (if negative then fmt.signBit else 0) + fmt.magnitudeBits num den

/-- The bits of a value, rounded where the format needs it. Every non-number has one form here. -/
def BinaryFormat.ofValue (fmt : BinaryFormat) : BinaryValue → Nat
  | .nan => fmt.infinityBits + Nat.pow 2 (fmt.fractionBits - 1)
  | .infinite negative => (if negative then fmt.signBit else 0) + fmt.infinityBits
  | .finite negative significand exponent =>
    let (n, d) := shiftFraction significand 1 exponent
    fmt.write negative n d

/-! ## 4. The two widths -/

/-- A four byte floating point number. -/
structure Binary32 where
  bits : UInt32
deriving DecidableEq, Repr

/-- An eight byte floating point number. -/
structure Binary64 where
  bits : UInt64
deriving DecidableEq, Repr

namespace Binary32

/-- What the number stands for. -/
def value (x : Binary32) : BinaryValue := BinaryFormat.single.read x.bits.toNat

/-- The nearest four byte number. -/
def ofValue (v : BinaryValue) : Binary32 := ⟨UInt32.ofNat (BinaryFormat.single.ofValue v)⟩

end Binary32

namespace Binary64

/-- What the number stands for. -/
def value (x : Binary64) : BinaryValue := BinaryFormat.double.read x.bits.toNat

/-- The nearest eight byte number. -/
def ofValue (v : BinaryValue) : Binary64 := ⟨UInt64.ofNat (BinaryFormat.double.ofValue v)⟩

/-- The nearest eight byte number to a fraction. -/
def ofFraction (negative : Bool) (num den : Nat) : Binary64 :=
  ⟨UInt64.ofNat (BinaryFormat.double.write negative num den)⟩

/-- The nearest eight byte number to a whole number. -/
def ofInt (n : Int) : Binary64 := ofFraction (n < 0) n.natAbs 1

end Binary64

/-- Widening, which is exact. -/
def Binary32.toBinary64 (x : Binary32) : Binary64 := Binary64.ofValue x.value

/-- Narrowing to the nearest number. -/
def Binary64.toBinary32 (x : Binary64) : Binary32 := Binary32.ofValue x.value

end TypedStore.Number
