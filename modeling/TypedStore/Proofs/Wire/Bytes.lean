/-
Numbers read back from their bytes. A number that is written in some bytes and has anything behind it is
read as it was, as far as it fits, and what stands behind is handed back. Lengths, counts and the numbers
of types are all read this way.
-/
import Mathlib.Algebra.Group.Nat.Defs
import TypedStore.Wire.Encode

set_option autoImplicit false

namespace TypedStore.Wire

/-! ## 1. Numbers -/

theorem natOfBytes_concat (bytes : List UInt8) (b : UInt8) :
    natOfBytes (bytes ++ [b]) = natOfBytes bytes * 256 + b.toNat := by
  simp [natOfBytes]

/-- The bytes of a number spell what of it fits them. The induction is on the bytes from the last one. -/
theorem natOfBytes_bytesOfNat (width n : Nat) : natOfBytes (bytesOfNat width n) = n % 256 ^ width := by
  induction width generalizing n with
  | zero => simp [bytesOfNat, natOfBytes, Nat.mod_one]
  | succ width ih =>
    have byte : (UInt8.ofNat n).toNat = n % 256 := UInt8.toNat_ofNat'
    rw [bytesOfNat, natOfBytes_concat, ih, byte, Nat.pow_succ, Nat.mul_comm (256 ^ width), Nat.mod_mul]
    omega

theorem natOfBytes_bytesOfNat_of_lt {width n : Nat} (h : n < 256 ^ width) :
    natOfBytes (bytesOfNat width n) = n := by
  rw [natOfBytes_bytesOfNat, Nat.mod_eq_of_lt h]

/-- Numbers that some bytes have room for in two's complement. -/
def Fits (width : Nat) (n : Int) : Prop :=
  -(256 ^ width : Nat) ≤ n * 2 ∧ n * 2 < (256 ^ width : Nat)

/-- A signed number that fits is read back from its bytes. -/
theorem signedOf_bytesOfInt {width : Nat} {n : Int} (fits : Fits width n) :
    signedOf width (natOfBytes (bytesOfInt width n)) = n := by
  obtain ⟨low, high⟩ := fits
  have size : (0 : Int) < (256 ^ width : Nat) := by
    have := Nat.pow_pos (n := width) (show 0 < 256 by decide)
    omega
  have bound := Int.emod_lt_of_pos n size
  have positive := Int.emod_nonneg n (Int.ne_of_gt size)
  have small : (n % (256 ^ width : Nat)).toNat < 256 ^ width := (Int.toNat_lt positive).2 bound
  have spelt : natOfBytes (bytesOfInt width n) = (n % (256 ^ width : Nat)).toNat :=
    natOfBytes_bytesOfNat_of_lt small
  rw [spelt, signedOf, Int.toNat_of_nonneg positive]
  show Int.bmod (n % (256 ^ width : Nat)) (256 ^ width) = n
  rw [Int.emod_bmod, Int.bmod_eq_of_le_mul_two low high]

theorem length_bytesOfInt (width : Nat) (n : Int) : (bytesOfInt width n).length = width :=
  length_bytesOfNat _ _

/-! ## 2. Taking numbers from the front -/

variable {width : Nat} {rest : List UInt8}

/-- Of a number that does not fit, the last bytes are taken. -/
theorem takeNat?_append (n : Nat) (rest : List UInt8) :
    takeNat? width (bytesOfNat width n ++ rest) = some (n % 256 ^ width, rest) := by
  have taken := takeBytes?_append (bytesOfNat width n) rest
  rw [length_bytesOfNat] at taken
  simp only [takeNat?, taken, Option.map_some, natOfBytes_bytesOfNat]

theorem takeNat?_bytesOfNat {n : Nat} (h : n < 256 ^ width) :
    takeNat? width (bytesOfNat width n ++ rest) = some (n, rest) := by
  rw [takeNat?_append, Nat.mod_eq_of_lt h]

theorem takeInt?_bytesOfInt {n : Int} (fits : Fits width n) :
    takeInt? width (bytesOfInt width n ++ rest) = some (n, rest) := by
  have taken := takeBytes?_append (bytesOfInt width n) rest
  rw [length_bytesOfInt] at taken
  simp only [takeInt?, takeNat?, taken, Option.map_some, signedOf_bytesOfInt fits]

/-- A number without a sign is written as the signed one. -/
theorem bytesOfInt_natCast {n : Nat} (h : n < 256 ^ width) :
    bytesOfInt width n = bytesOfNat width n := by
  have small : (n : Int) % (Nat.pow 256 width : Nat) = n :=
    Int.emod_eq_of_lt (Int.natCast_nonneg n) (Int.ofNat_lt.2 h)
  rw [bytesOfInt, small, Int.toNat_natCast]

/-- A count that lies below the largest signed number of four bytes. -/
theorem takeInt?_count {n : Nat} (h : n < 2 ^ 31) :
    takeInt? 4 (bytesOfNat 4 n ++ rest) = some ((n : Int), rest) := by
  rw [← bytesOfInt_natCast (by omega)]
  exact takeInt?_bytesOfInt ⟨by omega, by omega⟩

/-! ## 3. Numbers alone -/

theorem exactNat_bytesOfNat {n : Nat} (h : n < 256 ^ width) :
    exactNat width (bytesOfNat width n) = .ok n := by
  rw [exactNat, if_pos (length_bytesOfNat width n), natOfBytes_bytesOfNat_of_lt h]

theorem exactInt_bytesOfInt {n : Int} (fits : Fits width n) :
    exactInt width (bytesOfInt width n) = .ok n := by
  rw [exactInt, exactNat, if_pos (length_bytesOfInt width n)]
  simp only [Except.map, signedOf_bytesOfInt fits]

end TypedStore.Wire
