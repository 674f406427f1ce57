/-
Base types on the wire. `BaseForm.Writes` says how values of a form are written: whole numbers, patterns of
floating point and identifiers by their bytes, texts in UTF-8, decimal numbers by groups of digits, dates
and times by what they count from the start of 2000, and documents by a text. A value that is written so
is read back.
-/
import TypedStore.Proofs.Text.Encoding
import TypedStore.Proofs.Wire.Bytes

set_option autoImplicit false

namespace TypedStore.Wire

open TypedStore.Number TypedStore.Calendar TypedStore.Text

/-! ## 1. Decimal numbers -/

/-- Parts of a decimal number that have room on the wire. -/
structure NumericGroups.Travels (n : NumericGroups) : Prop where
  count : n.groups.length < 256 ^ 2
  group : ∀ group ∈ n.groups, group < groupBase
  weight : Fits 2 n.weight
  scale : n.scale < 256 ^ 2

theorem takeGroups?_flatMap {groups : List Nat} (h : ∀ group ∈ groups, group < groupBase) :
    takeGroups? groups.length (groups.flatMap (bytesOfNat 2)) = some groups := by
  induction groups with
  | nil => rfl
  | cons group rest ih =>
    have small : group < 256 ^ 2 := Nat.lt_trans (h group List.mem_cons_self) (by decide)
    have others := ih fun other mem => h other (List.mem_cons_of_mem _ mem)
    simp [takeGroups?, takeNat?_bytesOfNat small, others]

theorem NumericGroups.ofBytes?_toBytes {n : NumericGroups} (travels : n.Travels) :
    ofBytes? n.toBytes = some n := by
  obtain ⟨negative, weight, scale, groups⟩ := n
  have mark : (if negative then 0x4000 else 0) < 256 ^ 2 := by
    cases negative <;> decide
  have sign : signOf? (if negative then 0x4000 else 0) = some negative := by
    cases negative <;> rfl
  simp [ofBytes?, toBytes, takeNat?_bytesOfNat travels.count, takeInt?_bytesOfInt travels.weight,
    takeNat?_bytesOfNat mark, takeNat?_bytesOfNat travels.scale, takeGroups?_flatMap travels.group, sign]

/-! ## 2. Values of base types -/

/-- How values of a base type are written. Where a value is what the client makes of a number, of groups
of digits or of a text, it is written as any of them. -/
inductive BaseForm.Writes : BaseForm → Value → List UInt8 → Prop where
  | bool (b : Bool) : Writes .bool (.boolean b) [if b then 1 else 0]
  | byte (n : Int8) : Writes .byte (.int16 (Int16.ofInt n.toInt)) (bytesOfInt 1 n.toInt)
  | int2 (n : Int16) : Writes .int2 (.int16 n) (bytesOfInt 2 n.toInt)
  | int4 (n : Int32) : Writes .int4 (.int32 n) (bytesOfInt 4 n.toInt)
  | int8 (n : Int64) : Writes .int8 (.int64 n) (bytesOfInt 8 n.toInt)
  | unsigned4 (n : UInt32) :
    Writes .unsigned4 (.int64 (Int64.ofNat n.toNat)) (bytesOfNat 4 n.toNat)
  | float4 (x : Binary32) : Writes .float4 (.float32 x) (bytesOfNat 4 x.bits.toNat)
  | float8 (x : Binary64) : Writes .float8 (.float64 x) (bytesOfNat 8 x.bits.toNat)
  | numeric {d : Decimal} (n : NumericGroups) (travels : n.Travels) (stands : n.toDecimal? = some d) :
    Writes .numeric (.decimal d) n.toBytes
  | text (s : String) : Writes .text (.text s) (utf8Encode s)
  | bytes (raw : List UInt8) : Writes .bytes (.blob raw) raw
  | date {d : Date} (days : Int) (fits : Fits 4 days) (stands : Date.ofDays? days = some d) :
    Writes .date (.date d) (bytesOfInt 4 days)
  | time (n : Int) (fits : Fits 8 n) :
    Writes .time (.time (Time.ofNanoseconds (n * microsecond))) (bytesOfInt 8 n)
  | timestamp {t : Timestamp} (n : Int) (fits : Fits 8 n)
      (stands : Timestamp.ofNanoseconds? (n * microsecond) = some t) :
    Writes .timestamp (.timestamp t) (bytesOfInt 8 n)
  | zoned {t : Timestamp} (n : Int) (fits : Fits 8 n)
      (stands : Timestamp.ofNanoseconds? (n * microsecond) = some t) :
    Writes .zoned (.zoned ⟨t, 0⟩) (bytesOfInt 8 n)
  | uuid (u : Uuid) : Writes .uuid (.uuid u) (bytesOfNat 16 u.bits.toNat)
  | json {d : Document} (s : String) (stands : Document.ofText? s = some d) :
    Writes .json (.document d) (utf8Encode s)
  | jsonb {d : Document} (s : String) (stands : Document.ofText? s = some d) :
    Writes .jsonb (.document d) (documentVersion :: utf8Encode s)

theorem readText_utf8Encode (s : String) : readText (utf8Encode s) = .ok s := by
  rw [readText, utf8Decode?_utf8Encode, orMalformed]

theorem readDocument_utf8Encode {s : String} {d : Document} (stands : Document.ofText? s = some d) :
    readDocument (utf8Encode s) = .ok (.document d) := by
  unfold readDocument
  rw [readText_utf8Encode]
  show (orMalformed (Document.ofText? s) >>= _) = _
  rw [stands]
  rfl

theorem fits_int8 (n : Int8) : Fits 1 n.toInt := by
  have := n.le_toInt
  have := n.toInt_lt
  exact ⟨by omega, by omega⟩

theorem fits_int16 (n : Int16) : Fits 2 n.toInt := by
  have := n.le_toInt
  have := n.toInt_lt
  exact ⟨by omega, by omega⟩

theorem fits_int32 (n : Int32) : Fits 4 n.toInt := by
  have := n.le_toInt
  have := n.toInt_lt
  exact ⟨by omega, by omega⟩

theorem fits_int64 (n : Int64) : Fits 8 n.toInt := by
  have := n.le_toInt
  have := n.toInt_lt
  exact ⟨by omega, by omega⟩

/-- Values of base types are read back. -/
theorem BaseForm.read_of_writes {form : BaseForm} {v : Value} {raw : List UInt8}
    (written : form.Writes v raw) (typeName : String) : form.read typeName raw = .ok v := by
  cases written with
  | bool b => cases b <;> rfl
  | byte n => simp [BaseForm.read, exactInt_bytesOfInt (fits_int8 n), Except.map]
  | int2 n => simp [BaseForm.read, exactInt_bytesOfInt (fits_int16 n), Except.map]
  | int4 n => simp [BaseForm.read, exactInt_bytesOfInt (fits_int32 n), Except.map]
  | int8 n => simp [BaseForm.read, exactInt_bytesOfInt (fits_int64 n), Except.map]
  | unsigned4 n =>
    have small : n.toNat < 256 ^ 4 := n.toNat_lt
    simp [BaseForm.read, exactNat_bytesOfNat small, Except.map]
  | float4 x =>
    have small : x.bits.toNat < 256 ^ 4 := x.bits.toNat_lt
    simp [BaseForm.read, exactNat_bytesOfNat small, Except.map]
  | float8 x =>
    have small : x.bits.toNat < 256 ^ 8 := x.bits.toNat_lt
    simp [BaseForm.read, exactNat_bytesOfNat small, Except.map]
  | numeric n travels stands =>
    simp [BaseForm.read, NumericGroups.ofBytes?_toBytes travels, stands, orMalformed, Except.map]
  | text s => simp [BaseForm.read, readText_utf8Encode, Except.map]
  | bytes => rfl
  | date days fits stands =>
    unfold BaseForm.read
    rw [exactInt_bytesOfInt fits]
    show (orMalformed (Date.ofDays? days) >>= _) = _
    rw [stands]
    rfl
  | time n fits => simp [BaseForm.read, exactInt_bytesOfInt fits, Except.map]
  | timestamp n fits stands =>
    unfold BaseForm.read
    rw [exactInt_bytesOfInt fits]
    show (orMalformed (Timestamp.ofNanoseconds? _) >>= _) = _
    rw [stands]
    rfl
  | zoned n fits stands =>
    unfold BaseForm.read
    rw [exactInt_bytesOfInt fits]
    show (orMalformed (Timestamp.ofNanoseconds? _) >>= _) = _
    rw [stands]
    rfl
  | uuid u =>
    have small : u.bits.toNat < 256 ^ 16 := u.bits.isLt
    simp [BaseForm.read, exactNat_bytesOfNat small, Except.map]
  | json s stands => exact readDocument_utf8Encode stands
  | jsonb s stands =>
    rw [BaseForm.read, if_pos rfl]
    exact readDocument_utf8Encode stands

end TypedStore.Wire
