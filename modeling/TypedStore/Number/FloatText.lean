/-
The text of floating point numbers. The digits are always the shortest ones; the layouts differ in
which magnitudes take an exponent, in how it is written and in whether a whole number shows a
fraction.
-/
import TypedStore.Number.Shortest
import TypedStore.Text.Word

set_option autoImplicit false

namespace TypedStore.Number

open TypedStore.Text (natText intText)

/-! ## 1. Layouts -/

/-- How digits are laid out. -/
structure FloatLayout where
  /-- Exponents of the first digit below this one are written as exponents. -/
  positionalFrom : Option Int
  /-- Exponents of the first digit from this one on are written as exponents. -/
  positionalBelow : Option Int
  /-- What follows a whole number in positional form. -/
  wholeMark : String
  /-- What stands in front of an exponent that is not negative. -/
  exponentPlus : String

/-- Values in messages are plain decimals of any length. -/
def plainLayout : FloatLayout := ⟨none, none, "", ""⟩

/-- Values in diagnostics show a fraction, and an exponent from `1e16` on and below `0.0001`. -/
def diagnosticLayout : FloatLayout := ⟨some (-4), some 16, ".0", ""⟩

/-- Numbers in documents show a fraction, and a signed exponent from `1e+16` on and below
`0.00001`. -/
def documentLayout : FloatLayout := ⟨some (-5), some 16, ".0", "+"⟩

/-! ## 2. Writing -/

/-- Digits around a point that stands before the last `places` of them. -/
def pointed (digits : List Char) (places : Nat) : List Char :=
  let whole := digits.take (digits.length - places)
  let fraction := List.replicate (places - digits.length) '0' ++ digits.drop (digits.length - places)
  (if whole.isEmpty then ['0'] else whole) ++ '.' :: fraction

/-- Digits in positional form. -/
def positional (layout : FloatLayout) (d : DecimalDigits) : String :=
  let digits := (natText d.digits).toList
  match d.exponent with
  | .ofNat k => String.ofList (digits ++ List.replicate k '0') ++ layout.wholeMark
  | .negSucc k => String.ofList (pointed digits (k + 1))

/-- Digits with an exponent, one of them before the point. -/
def scientific (layout : FloatLayout) (d : DecimalDigits) (exponent : Int) : String :=
  let digits := (natText d.digits).toList
  let mantissa := if digits.length ≤ 1 then digits else pointed digits (digits.length - 1)
  String.ofList mantissa ++ "e" ++ (if exponent < 0 then "" else layout.exponentPlus)
    ++ intText exponent

/-- The text of positive digits. -/
def DecimalDigits.text (d : DecimalDigits) (layout : FloatLayout) : String :=
  let exponent := d.exponent + (digitCount d.digits : Int) - 1
  let tooSmall := layout.positionalFrom.any fun limit => exponent < limit
  let tooLarge := layout.positionalBelow.any fun limit => limit ≤ exponent
  if tooSmall || tooLarge then scientific layout d exponent else positional layout d

/-- The text of what bits of a format stand for. -/
def BinaryFormat.text (fmt : BinaryFormat) (layout : FloatLayout) : BinaryValue → String
  | .nan => "NaN"
  | .infinite negative => if negative then "-inf" else "inf"
  | .finite negative significand exponent =>
    (if negative then "-" else "")
      ++ (if significand = 0 then "0" ++ layout.wholeMark
          else (fmt.shortest significand exponent).text layout)

/-- The text of a four byte number. -/
def Binary32.text (x : Binary32) (layout : FloatLayout) : String :=
  BinaryFormat.single.text layout x.value

/-- The text of an eight byte number. -/
def Binary64.text (x : Binary64) (layout : FloatLayout) : String :=
  BinaryFormat.double.text layout x.value

end TypedStore.Number
