/-
Shortest decimal digits. A floating point number is written with the fewest digits that read back as
the same number, and among those with the digits nearest to it. The numbers that read back form an
interval, closed when the significand is even; on the grid of each digit count only the two points
next to the number need to be tried.
-/
import TypedStore.Number.Binary

set_option autoImplicit false

namespace TypedStore.Number

/-- A decimal number `digits * 10 ^ exponent`. -/
structure DecimalDigits where
  digits : Nat
  exponent : Int
deriving DecidableEq, Repr

/-! ## 1. Places -/

/-- Digits in the decimal form of a number. -/
def digitCount (n : Nat) : Nat := (Nat.toDigits 10 n).length

/-- The largest power of ten that a positive fraction reaches. -/
def floorLog10 (num den : Nat) : Int :=
  if den ≤ num then (digitCount (num / den) : Int) - 1
  else -(digitCount ((den + num - 1) / num - 1) : Int)

/-- Drops zeros at the end, at most `fuel` of them. -/
def DecimalDigits.strip : Nat → DecimalDigits → DecimalDigits
  | 0, d => d
  | fuel + 1, d =>
    if d.digits ≠ 0 ∧ d.digits % 10 = 0 then strip fuel ⟨d.digits / 10, d.exponent + 1⟩ else d

/-! ## 2. The interval -/

/-- A positive number and the ends of the interval that rounds to it, over one denominator. -/
structure Neighbourhood where
  low : Nat
  mid : Nat
  high : Nat
  den : Nat
  closed : Bool

/-- Whether a fraction over the common denominator and a power of ten lies inside. -/
def Neighbourhood.holds (n : Neighbourhood) (num scale : Nat) : Bool :=
  let low := n.low * scale
  let high := n.high * scale
  if n.closed then low ≤ num && num ≤ high else low < num && num < high

/-- The neighbourhood of `significand * 2 ^ exponent`. Below a power of two the numbers lie twice as
close, so there the interval reaches half as far down. -/
def BinaryFormat.neighbourhood (fmt : BinaryFormat) (significand : Nat) (exponent : Int) :
    Neighbourhood :=
  -- all ends in quarters of the last place, so that they are whole
  let below := if significand = Nat.pow 2 fmt.fractionBits ∧ fmt.leastExponent < exponent then 1 else 2
  let (factor, den) := shiftFraction 1 1 (exponent - 2)
  { low := (4 * significand - below) * factor
    mid := 4 * significand * factor
    high := (4 * significand + 2) * factor
    den := den
    closed := significand % 2 == 0 }

/-- The point of the grid `10 ^ place` next to the number that lies inside, the nearer of two. -/
def Neighbourhood.onGrid? (n : Neighbourhood) (place : Int) : Option DecimalDigits :=
  let (up, down) := match place with
    | .ofNat k => (Nat.pow 10 k, 1)
    | .negSucc k => (1, Nat.pow 10 (k + 1))
  let unit := n.den * up
  let below := n.mid * down / unit
  let inLow := n.holds (below * unit) down
  let inHigh := n.holds ((below + 1) * unit) down
  let gapLow := n.mid * down - below * unit
  -- of two points as near the upper one
  if inLow && inHigh then some ⟨if 2 * gapLow < unit then below else below + 1, place⟩
  else if inLow then some ⟨below, place⟩
  else if inHigh then some ⟨below + 1, place⟩
  else none

/-- The shortest digits of a positive number. Seventeen digits always suffice; a finer grid is never
reached and stands for completeness. -/
def BinaryFormat.shortest (fmt : BinaryFormat) (significand : Nat) (exponent : Int) : DecimalDigits :=
  let n := fmt.neighbourhood significand exponent
  let top := floorLog10 n.mid n.den
  let found := (List.range 18).findSome? fun (i : Nat) => n.onGrid? (top - i)
  DecimalDigits.strip 20 (found.getD ⟨0, 0⟩)

end TypedStore.Number
