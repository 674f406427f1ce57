/-
Decimal numbers of the server: groups of four digits with the place of the first group, a sign and the
number of decimals. Reading gives as many decimals as were sent, rounding half away from zero where
the groups say more.
-/
import TypedStore.Number.Decimal
import TypedStore.Wire.Bytes

set_option autoImplicit false

namespace TypedStore.Wire

open TypedStore.Number

/-! ## 1. Groups -/

/-- Base of the groups. -/
def groupBase : Nat := 10000

/-- A decimal number as the server sends it. Group `i` counts `groupBase ^ (weight - i)`. -/
structure NumericGroups where
  negative : Bool
  weight : Int
  scale : Nat
  groups : List Nat
deriving DecidableEq, Repr

/-- Groups from the front, `count` of them. -/
def takeGroups? : Nat → List UInt8 → Option (List Nat)
  | 0, _ => some []
  | count + 1, raw => do
    let (group, rest) ← takeNat? 2 raw
    let others ← takeGroups? count rest
    pure (group :: others)

/-- The sign that a mark stands for; numbers that are not finite have others. -/
def signOf? (mark : Nat) : Option Bool :=
  if mark = 0 then some false else if mark = 0x4000 then some true else none

namespace NumericGroups

/-- Reads a header and its groups. What follows the groups is not looked at. -/
def ofBytes? (raw : List UInt8) : Option NumericGroups := do
  let (count, raw) ← takeNat? 2 raw
  let (weight, raw) ← takeInt? 2 raw
  let (mark, raw) ← takeNat? 2 raw
  let (scale, raw) ← takeNat? 2 raw
  let groups ← takeGroups? count raw
  let negative ← signOf? mark
  pure ⟨negative, weight, scale, groups⟩

/-- Writes a header and its groups. -/
def toBytes (n : NumericGroups) : List UInt8 :=
  bytesOfNat 2 n.groups.length ++ bytesOfInt 2 n.weight
    ++ bytesOfNat 2 (if n.negative then 0x4000 else 0) ++ bytesOfNat 2 n.scale
    ++ n.groups.flatMap (bytesOfNat 2)

/-! ## 2. Reading -/

/-- What one group counts, in units of the last decimal that is kept. A group that starts right
behind it rounds. -/
def groupUnits (place : Int) (group : Nat) : Nat :=
  match place with
  | .ofNat e => group * Nat.pow groupBase e * Nat.pow 10 maxScale
  | .negSucc e =>
    if 4 * (e + 1) ≤ maxScale then group * Nat.pow 10 (maxScale - 4 * (e + 1))
    else if 4 * (e + 1) = maxScale + 4 ∧ groupBase / 2 ≤ group then 1
    else 0

/-- The whole number in units of the last decimal that is kept, from the place of the first group. -/
def units : Int → List Nat → Nat
  | _, [] => 0
  | place, group :: rest => groupUnits place group + units (place - 1) rest

/-- A quotient rounded half up. -/
def roundedQuotient (n d : Nat) : Nat := (2 * n + d) / (2 * d)

/-- The decimal number of a count of units with at most `scale` decimals, and fewer where its digits
would not fit. -/
def fitScale? (negative : Bool) (units : Nat) : Nat → Option Decimal
  | 0 => Decimal.ofParts? negative (roundedQuotient units (Nat.pow 10 maxScale)) 0
  | scale + 1 =>
    let mantissa := roundedQuotient units (Nat.pow 10 (maxScale - (scale + 1)))
    if mantissa < mantissaLimit then Decimal.ofParts? negative mantissa (scale + 1)
    else fitScale? negative units scale

/-- The decimal number, if it is in range. -/
def toDecimal? (n : NumericGroups) : Option Decimal :=
  let total := units n.weight n.groups
  if total / Nat.pow 10 maxScale < mantissaLimit then fitScale? n.negative total (min n.scale maxScale)
  else none

/-! ## 3. Writing -/

/-- Groups of a number, most significant first, none for zero. `fuel` bounds their count. -/
def groupsOf : Nat → Nat → List Nat
  | 0, _ => []
  | fuel + 1, n => if n = 0 then [] else groupsOf fuel (n / groupBase) ++ [n % groupBase]

/-- More groups than a decimal number has, with its digits moved by up to three places. -/
def groupLimit : Nat := 32

/-- The groups without those at the end that are zero. -/
def dropZeroGroups (groups : List Nat) : List Nat :=
  (groups.reverse.dropWhile (· == 0)).reverse

/-- A decimal number in groups, its last group filled with zeros. Zero has no groups, no decimals and
no sign. Where a group stands before the point, those behind it lose the zero groups at their end. -/
def ofDecimal (d : Decimal) : NumericGroups :=
  if d.mantissa = 0 then ⟨false, 0, 0, []⟩
  else
    let fractionGroups := (d.scale + 3) / 4
    let groups := groupsOf groupLimit (d.mantissa * Nat.pow 10 (4 * fractionGroups - d.scale))
    let wholeGroups := groups.length - fractionGroups
    let sent :=
      if wholeGroups = 0 then groups
      else groups.take wholeGroups ++ dropZeroGroups (groups.drop wholeGroups)
    ⟨d.negative, (groups.length : Int) - fractionGroups - 1, d.scale, sent⟩

end NumericGroups

end TypedStore.Wire
