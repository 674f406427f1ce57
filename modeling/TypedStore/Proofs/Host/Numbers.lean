/-
Exact numbers. Integers and decimal numbers stand for rational numbers, and a conversion among them keeps
the number: what is accepted is the number itself in another type, and what is refused is either not whole
or out of range (`convert_exact`). Only decimal numbers for two byte integers are refused whatever they
are. Wider integers hold all values of narrower ones, so the way there and back changes nothing.
-/
import Mathlib.Algebra.Order.Field.Rat
import Mathlib.Data.Rat.Cast.CharZero
import TypedStore.Host.Conversion

set_option autoImplicit false

namespace TypedStore

open TypedStore.Text TypedStore.Number

/-! ## 1. Numbers -/

/-- The number that a decimal number stands for. Trailing zeros and the sign of zero do not count. -/
def Number.Decimal.toRat (d : Decimal) : ℚ := d.signedMantissa / (10 : ℚ) ^ d.scale

/-- The number that a cell stands for exactly. -/
def Value.number? : Value → Option ℚ
  | .int16 n => some n.toInt
  | .int32 n => some n.toInt
  | .int64 n => some n.toInt
  | .decimal d => some d.toRat
  | _ => none

/-- The type of exact numbers that a cell belongs to. -/
def Value.exactType? : Value → Option ScalarType
  | .int16 _ => some .int16
  | .int32 _ => some .int32
  | .int64 _ => some .int64
  | .decimal _ => some .decimal
  | _ => none

/-- The types of exact numbers. -/
def exactTypes : List ScalarType := [.int16, .int32, .int64, .decimal]

/-- How many bits the integers of a type have. -/
def ScalarType.bits? : ScalarType → Option Nat
  | .int16 => some 16
  | .int32 => some 32
  | .int64 => some 64
  | _ => none

/-- Whether a number lies in the range of a type. Integers are whole, and a decimal number has room for
every exact number that is converted to it. -/
def ScalarType.Ranges (s : ScalarType) (q : ℚ) : Prop :=
  ∀ bits, s.bits? = some bits → ∃ n : ℤ, q = n ∧ -2 ^ (bits - 1) ≤ n ∧ n < 2 ^ (bits - 1)

/-! ## 2. Decimal numbers -/

namespace Number.Decimal

/-- A decimal number is a whole number, just where its digits are that many times the power of ten. -/
theorem toRat_eq_iff (d : Decimal) (n : ℤ) :
    d.toRat = n ↔ d.signedMantissa = n * (10 : ℤ) ^ d.scale := by
  have unit : (10 : ℚ) ^ d.scale ≠ 0 := pow_ne_zero _ (by decide)
  rw [toRat, div_eq_iff unit]
  norm_cast

theorem isWhole_iff (d : Decimal) : d.isWhole = true ↔ (10 : ℤ) ^ d.scale ∣ d.signedMantissa := by
  have unit : ((10 ^ d.scale : Nat) : ℤ) = (10 : ℤ) ^ d.scale := by norm_cast
  rw [isWhole, beq_iff_eq, Nat.pow_eq, ← Nat.dvd_iff_mod_eq_zero, ← unit, signedMantissa]
  split
  · rw [Int.dvd_neg, Int.natCast_dvd_natCast]
  · rw [Int.natCast_dvd_natCast]

/-- A decimal number gives a whole number, just where it is one between the bounds. -/
theorem toInt?_eq_some_iff (d : Decimal) (low high n : ℤ) :
    d.toInt? low high = some n ↔ d.toRat = n ∧ low ≤ n ∧ n ≤ high := by
  have unit : ((Nat.pow 10 d.scale : Nat) : ℤ) = (10 : ℤ) ^ d.scale := by norm_cast
  have positive : (10 : ℤ) ^ d.scale ≠ 0 := pow_ne_zero _ (by decide)
  rw [toRat_eq_iff, toInt?, Option.ite_none_right_eq_some, isWhole_iff, truncate, unit]
  constructor
  · rintro ⟨⟨above, below, whole⟩, same⟩
    cases same
    exact ⟨(Int.tdiv_mul_cancel whole).symm, above, below⟩
  · rintro ⟨same, above, below⟩
    have cut : d.signedMantissa.tdiv ((10 : ℤ) ^ d.scale) = n := by
      rw [same, Int.mul_tdiv_cancel n positive]
    rw [cut]
    exact ⟨⟨above, below, same ▸ Int.dvd_mul_left ..⟩, rfl⟩

/-- A decimal number that gives none is not whole or out of bounds. -/
theorem toInt?_eq_none_iff (d : Decimal) (low high : ℤ) :
    d.toInt? low high = none ↔ ¬ ∃ n : ℤ, d.toRat = n ∧ low ≤ n ∧ n ≤ high := by
  simp only [Option.eq_none_iff_forall_ne_some, ne_eq, toInt?_eq_some_iff, not_exists]

theorem toRat_ofInt (n : ℤ) (h : n.natAbs < mantissaLimit) : (ofInt n h).toRat = n := by
  rw [toRat_eq_iff, ofInt, signedMantissa]
  dsimp only
  rw [pow_zero, mul_one]
  split
  · rename_i negative
    have := of_decide_eq_true negative
    omega
  · rename_i positive
    have := of_decide_eq_false (Bool.eq_false_iff.2 positive)
    omega

end Number.Decimal

/-! ## 3. Answers -/

namespace ScalarType

/-- An answer that keeps a number: the number in a type, where it is in range, and else a refusal. -/
def Keeps (s : ScalarType) (q : ℚ) (answer : Except Error Value) : Prop :=
  (s.Ranges q ∧ ∃ cell, answer = .ok cell ∧ cell.exactType? = some s ∧ cell.number? = some q)
    ∨ (¬ s.Ranges q ∧ ∃ shown, answer = .error (.valueConversionFailed s.path shown))

variable {s : ScalarType} {bits : Nat}

theorem ranges_int (sized : s.bits? = some bits) (n : ℤ) :
    s.Ranges n ↔ -2 ^ (bits - 1) ≤ n ∧ n < 2 ^ (bits - 1) := by
  constructor
  · intro ranges
    obtain ⟨m, same, within⟩ := ranges bits sized
    rwa [Rat.intCast_inj.1 same]
  · intro within other same
    rw [sized] at same
    cases same
    exact ⟨n, rfl, within⟩

/-- An integer of a type is in its range. -/
theorem ranges_number {v : Value} {q : ℚ} (type : v.exactType? = some s) (number : v.number? = some q) :
    s.Ranges q := by
  cases v with
  | int16 n =>
    cases type
    cases number
    exact (ranges_int rfl _).2 ⟨Int16.le_toInt n, Int16.toInt_lt n⟩
  | int32 n =>
    cases type
    cases number
    exact (ranges_int rfl _).2 ⟨Int32.le_toInt n, Int32.toInt_lt n⟩
  | int64 n =>
    cases type
    cases number
    exact (ranges_int rfl _).2 ⟨Int64.le_toInt n, Int64.toInt_lt n⟩
  | decimal d =>
    cases type
    nofun
  | _ => cases type

theorem keeps_of_ok {q : ℚ} {cell : Value} (type : cell.exactType? = some s)
    (number : cell.number? = some q) : s.Keeps q (.ok cell) :=
  .inl ⟨ranges_number type number, cell, rfl, type, number⟩

/-- Whether a type's integers are made of the numbers in its range. -/
def Makes (s : ScalarType) (bits : Nat) (make : ℤ → Value) : Prop :=
  ∀ n, -2 ^ (bits - 1) ≤ n → n < 2 ^ (bits - 1) →
    (make n).exactType? = some s ∧ (make n).number? = some (n : ℚ)

theorem makes_int16 : int16.Makes 16 fun n => .int16 (Int16.ofInt n) := fun _ above below =>
  ⟨rfl, congrArg (fun n : ℤ => some (n : ℚ)) (Int16.toInt_ofInt_of_le above below)⟩

theorem makes_int32 : int32.Makes 32 fun n => .int32 (Int32.ofInt n) := fun _ above below =>
  ⟨rfl, congrArg (fun n : ℤ => some (n : ℚ)) (Int32.toInt_ofInt_of_le above below)⟩

theorem makes_int64 : int64.Makes 64 fun n => .int64 (Int64.ofInt n) := fun _ above below =>
  ⟨rfl, congrArg (fun n : ℤ => some (n : ℚ)) (Int64.toInt_ofInt_of_le above below)⟩

variable {make : ℤ → Value}

/-- A wider integer is narrowed where it is in range. -/
theorem keeps_narrowed (sized : s.bits? = some bits) (makes : s.Makes bits make) (n : ℤ) :
    s.Keeps n (if -2 ^ (bits - 1) ≤ n ∧ n < 2 ^ (bits - 1) then .ok (make n)
      else refuse s (intText n)) := by
  split
  · rename_i within
    obtain ⟨type, number⟩ := makes n within.1 within.2
    exact keeps_of_ok type number
  · rename_i beyond
    exact .inr ⟨fun ranges => beyond ((ranges_int sized n).1 ranges), _, rfl⟩

/-- A decimal number is narrowed where it is whole and in range. -/
theorem keeps_toInt? (sized : s.bits? = some bits) (makes : s.Makes bits make) (d : Decimal) :
    s.Keeps d.toRat (match d.toInt? (-2 ^ (bits - 1)) (2 ^ (bits - 1) - 1) with
      | some n => .ok (make n)
      | none => refuse s d.text) := by
  split
  · rename_i n whole
    obtain ⟨same, above, below⟩ := (d.toInt?_eq_some_iff _ _ n).1 whole
    obtain ⟨type, number⟩ := makes n above (by omega)
    rw [same]
    exact keeps_of_ok type number
  · rename_i none
    refine .inr ⟨fun ranges => ?_, _, rfl⟩
    obtain ⟨n, same, above, below⟩ := ranges bits sized
    exact (d.toInt?_eq_none_iff _ _).1 none ⟨n, same, above, by omega⟩

theorem number?_decimalOfInt64 (n : Int64) :
    (Value.decimal (decimalOfInt64 n)).number? = some (n.toInt : ℚ) :=
  congrArg some (Decimal.toRat_ofInt _ _)

/-- Every conversion among exact types keeps the number, but the one that there is not. -/
theorem keeps_accept {v : Value} {q : ℚ} (target : s ∈ exactTypes) (number : v.number? = some q)
    (offered : ¬ (s = .int16 ∧ v.exactType? = some .decimal)) : s.Keeps q (s.accept v) := by
  simp only [exactTypes, List.mem_cons, List.not_mem_nil, or_false] at target
  cases v with
  | int16 n =>
    cases number
    rcases target with rfl | rfl | rfl | rfl
    · exact keeps_of_ok rfl rfl
    · exact keeps_of_ok rfl (congrArg (fun n : ℤ => some (n : ℚ)) (Int16.toInt_toInt32 n))
    · exact keeps_of_ok rfl (congrArg (fun n : ℤ => some (n : ℚ)) (Int16.toInt_toInt64 n))
    · refine keeps_of_ok rfl ((number?_decimalOfInt64 _).trans ?_)
      rw [Int16.toInt_toInt64]
  | int32 n =>
    cases number
    rcases target with rfl | rfl | rfl | rfl
    · exact keeps_narrowed rfl makes_int16 _
    · exact keeps_of_ok rfl rfl
    · exact keeps_of_ok rfl (congrArg (fun n : ℤ => some (n : ℚ)) (Int32.toInt_toInt64 n))
    · refine keeps_of_ok rfl ((number?_decimalOfInt64 _).trans ?_)
      rw [Int32.toInt_toInt64]
  | int64 n =>
    cases number
    rcases target with rfl | rfl | rfl | rfl
    · exact keeps_narrowed rfl makes_int16 _
    · exact keeps_narrowed rfl makes_int32 _
    · exact keeps_of_ok rfl rfl
    · exact keeps_of_ok rfl (number?_decimalOfInt64 n)
  | decimal d =>
    cases number
    rcases target with rfl | rfl | rfl | rfl
    · exact absurd ⟨rfl, rfl⟩ offered
    · exact keeps_toInt? rfl makes_int32 d
    · exact keeps_toInt? rfl makes_int64 d
    · exact keeps_of_ok rfl rfl
  | _ => cases number

/-- What is accepted is no decimal number for integers of two bytes. -/
theorem offered_of_accept {v cell : Value} (accepted : s.accept v = .ok cell) :
    ¬ (s = .int16 ∧ v.exactType? = some .decimal) := by
  rintro ⟨rfl, type⟩
  cases v with
  | decimal d => cases accepted
  | _ => cases type

theorem Keeps.of_ok {q : ℚ} {answer : Except Error Value} (keeps : s.Keeps q answer) {cell : Value}
    (ok : answer = .ok cell) : s.Ranges q ∧ cell.exactType? = some s ∧ cell.number? = some q := by
  subst ok
  obtain ⟨ranges, other, same, type, number⟩ | ⟨-, shown, refused⟩ := keeps
  · cases same
    exact ⟨ranges, type, number⟩
  · cases refused

theorem Keeps.exists_ok {q : ℚ} {answer : Except Error Value} (keeps : s.Keeps q answer)
    (ranges : s.Ranges q) :
    ∃ cell, answer = .ok cell ∧ cell.exactType? = some s ∧ cell.number? = some q :=
  (keeps.resolve_right fun refused => refused.1 ranges).2

/-! ## 4. Integers there and back -/

/-- Integers of one type are told apart by their numbers. -/
theorem eq_of_number? (sized : s.bits? = some bits) {v w : Value}
    (type : v.exactType? = some s) (type' : w.exactType? = some s) (same : v.number? = w.number?) :
    v = w := by
  have whole : ∀ {m n : ℤ}, some (m : ℚ) = some (n : ℚ) → m = n := fun h =>
    Rat.intCast_inj.1 (Option.some.inj h)
  cases v with
  | int16 n =>
    cases type
    cases w with
    | int16 m => rw [Int16.toInt_inj.1 (whole same)]
    | _ => cases type'
  | int32 n =>
    cases type
    cases w with
    | int32 m => rw [Int32.toInt_inj.1 (whole same)]
    | _ => cases type'
  | int64 n =>
    cases type
    cases w with
    | int64 m => rw [Int64.toInt_inj.1 (whole same)]
    | _ => cases type'
  | decimal d =>
    cases type
    cases sized
  | _ => cases type

theorem mem_exactTypes (sized : s.bits? = some bits) :
    s ∈ exactTypes := by
  cases s <;> first | decide | cases sized

/-- More bits have room for all numbers of fewer. -/
theorem Ranges.mono {t : ScalarType} {narrow wide : Nat} (small : t.bits? = some narrow)
    (large : s.bits? = some wide) (less : narrow ≤ wide) {q : ℚ} (ranges : t.Ranges q) : s.Ranges q := by
  obtain ⟨n, rfl, above, below⟩ := ranges narrow small
  have room : (2 : ℤ) ^ (narrow - 1) ≤ 2 ^ (wide - 1) := by
    exact_mod_cast Nat.pow_le_pow_right (by decide) (by omega)
  exact (ranges_int large n).2 ⟨by omega, by omega⟩

/-- Integers are no decimal numbers. -/
theorem offered_of_bits? {v : Value} (type : v.exactType? = some s) (sized : s.bits? = some bits)
    (t : ScalarType) : ¬ (t = .int16 ∧ v.exactType? = some .decimal) := by
  rintro ⟨-, decimal⟩
  rw [type] at decimal
  cases decimal
  cases sized

variable {v : Value} {q : ℚ}

theorem convert_scalar_eq_ok_iff (ds : Declarations) (x : HostValue) :
    ds.convert (.scalar s) v = .ok x ↔ ∃ cell, s.accept v = .ok cell ∧ x = .scalar cell := by
  rw [Declarations.convert]
  cases s.accept v with
  | error e =>
    constructor
    · intro h
      cases h
    · rintro ⟨_, same, -⟩
      cases same
  | ok cell =>
    constructor
    · intro h
      cases h
      exact ⟨cell, rfl, rfl⟩
    · rintro ⟨_, same, rfl⟩
      cases same
      rfl

/-- **Exact conversions keep the number.** What is accepted is the same number in another type. A number
is accepted just where it is in range, but decimal numbers never for integers of two bytes. And the way
from an integer to a wider type and back ends where it began. -/
theorem convert_exact (ds : Declarations) (target : s ∈ exactTypes) (number : v.number? = some q) :
    (∀ x, ds.convert (.scalar s) v = .ok x →
        ∃ cell, x = .scalar cell ∧ cell.exactType? = some s ∧ cell.number? = some q)
      ∧ ((∃ x, ds.convert (.scalar s) v = .ok x)
        ↔ s.Ranges q ∧ ¬ (s = .int16 ∧ v.exactType? = some .decimal))
      ∧ ∀ t narrow wide, v.exactType? = some t → t.bits? = some narrow → s.bits? = some wide →
        narrow < wide → ∃ x, ds.convert (.scalar s) v = .ok x
          ∧ ds.convert (.scalar t) (ds.toValue (.scalar s) x) = .ok (.scalar v) := by
  simp only [convert_scalar_eq_ok_iff]
  have kept : ∀ {cell}, s.accept v = .ok cell →
      s.Ranges q ∧ cell.exactType? = some s ∧ cell.number? = some q := fun accepted =>
    (keeps_accept target number (offered_of_accept accepted)).of_ok accepted
  refine ⟨?_, ⟨?_, ?_⟩, ?_⟩
  · rintro _ ⟨cell, accepted, rfl⟩
    exact ⟨cell, rfl, (kept accepted).2⟩
  · rintro ⟨_, cell, accepted, rfl⟩
    exact ⟨(kept accepted).1, offered_of_accept accepted⟩
  · rintro ⟨ranges, offered⟩
    obtain ⟨cell, accepted, -⟩ := (keeps_accept target number offered).exists_ok ranges
    exact ⟨_, cell, accepted, rfl⟩
  · intro t narrow wide type small large less
    have own := ranges_number type number
    obtain ⟨cell, accepted, type', number'⟩ :=
      (keeps_accept target number (offered_of_bits? type small s)).exists_ok
        (own.mono small large (Nat.le_of_lt less))
    obtain ⟨back, returned, type'', number''⟩ :=
      (keeps_accept (mem_exactTypes small) number' (offered_of_bits? type' large t)).exists_ok own
    refine ⟨_, ⟨cell, accepted, rfl⟩, back, returned, ?_⟩
    rw [eq_of_number? small type type'' (number.trans number''.symm)]

/-- Minus one, as a decimal number with two decimals. -/
def minusOne : Decimal := ⟨true, 100, 2, by decide, by decide⟩

theorem convert_exact_minusOne :
    (Value.decimal minusOne).number? = some (-1)
      ∧ (∃ x, Declarations.convert [] (.scalar .int64) (.decimal minusOne) = .ok x)
      ∧ ∃ x, Declarations.convert [] (.scalar .int64) (.int16 (-7)) = .ok x
        ∧ Declarations.convert [] (.scalar .int16) (Declarations.toValue [] (.scalar .int64) x)
          = .ok (.scalar (.int16 (-7))) := by
  have whole : minusOne.toRat = ((-1 : ℤ) : ℚ) := (minusOne.toRat_eq_iff (-1)).2 (by decide)
  have number : (Value.decimal minusOne).number? = some ((-1 : ℤ) : ℚ) := congrArg some whole
  refine ⟨number, ?_, ?_⟩
  · exact (convert_exact (s := .int64) [] (by decide) number).2.1.2
      ⟨(ranges_int rfl _).2 (by decide), nofun⟩
  · exact (convert_exact (s := .int64) (v := .int16 (-7)) [] (by decide) rfl).2.2 _ _ _ rfl rfl rfl
      (by decide)

end ScalarType

end TypedStore
