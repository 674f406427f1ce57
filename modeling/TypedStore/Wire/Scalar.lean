/-
Base types of the server's binary protocol. Numbers are big endian; dates are days, times and
timestamps are microseconds, all counted from the start of 2000. Smaller parts of a second are cut off
toward that moment.
-/
import TypedStore.Value.Text
import TypedStore.Document.Reader
import TypedStore.Text.Bytes
import TypedStore.Wire.Error
import TypedStore.Wire.Numeric
import TypedStore.Wire.Type

set_option autoImplicit false

namespace TypedStore.Wire

open TypedStore.Number TypedStore.Calendar TypedStore.Text

/-! ## 1. Reading -/

/-- The number that exactly `width` bytes spell. -/
def exactNat (width : Nat) (raw : List UInt8) : Except CodecError Nat :=
  if raw.length = width then .ok (natOfBytes raw) else .error .malformed

/-- The signed number that exactly `width` bytes spell. -/
def exactInt (width : Nat) (raw : List UInt8) : Except CodecError Int :=
  (exactNat width raw).map (signedOf width)

/-- A value that may not exist. -/
def orMalformed {α : Type} : Option α → Except CodecError α
  | some a => .ok a
  | none => .error .malformed

/-- Text in UTF-8. -/
def readText (raw : List UInt8) : Except CodecError String :=
  orMalformed (utf8Decode? raw)

/-- A document from its text. -/
def readDocument (raw : List UInt8) : Except CodecError Value := do
  let s ← readText raw
  let d ← orMalformed (Document.ofText? s)
  pure (.document d)

/-- Version of the binary documents that are read. -/
def documentVersion : UInt8 := 1

/-- Nanoseconds of a microsecond. -/
def microsecond : Int := 1000

/-- Reads a value of a base type. -/
def BaseForm.read (form : BaseForm) (typeName : String) (raw : List UInt8) :
    Except CodecError Value :=
  match form with
  | .bool => (exactNat 1 raw).map fun n => .boolean (n != 0)
  | .byte => (exactInt 1 raw).map fun n => .int16 (Int16.ofInt n)
  | .int2 => (exactInt 2 raw).map fun n => .int16 (Int16.ofInt n)
  | .int4 => (exactInt 4 raw).map fun n => .int32 (Int32.ofInt n)
  | .int8 => (exactInt 8 raw).map fun n => .int64 (Int64.ofInt n)
  | .unsigned4 => (exactNat 4 raw).map fun n => .int64 (Int64.ofNat n)
  | .float4 => (exactNat 4 raw).map fun n => .float32 ⟨UInt32.ofNat n⟩
  | .float8 => (exactNat 8 raw).map fun n => .float64 ⟨UInt64.ofNat n⟩
  | .numeric =>
    (orMalformed ((NumericGroups.ofBytes? raw).bind NumericGroups.toDecimal?)).map .decimal
  | .text => (readText raw).map .text
  | .bytes => .ok (.blob raw)
  | .date => do
    let days ← exactInt 4 raw
    let date ← orMalformed (Date.ofDays? days)
    pure (.date date)
  | .time => (exactInt 8 raw).map fun n => .time (Time.ofNanoseconds (n * microsecond))
  | .timestamp => do
    let n ← exactInt 8 raw
    let t ← orMalformed (Timestamp.ofNanoseconds? (n * microsecond))
    pure (.timestamp t)
  | .zoned => do
    let n ← exactInt 8 raw
    let t ← orMalformed (Timestamp.ofNanoseconds? (n * microsecond))
    pure (.zoned ⟨t, 0⟩)
  | .uuid => (exactNat 16 raw).map fun n => .uuid ⟨BitVec.ofNat 128 n⟩
  | .json => readDocument raw
  | .jsonb =>
    match raw with
    | version :: rest => if version = documentVersion then readDocument rest else .error .malformed
    | [] => .error .malformed
  | .record | .unreadable => .error (.unsupported typeName)

/-! ## 2. Writing -/

/-- Types of label trees, whose texts carry a version in front. -/
def isVersionedText (typeName : String) : Bool :=
  typeName == "ltree" || typeName == "lquery" || typeName == "ltxtquery"

/-- Microseconds of a moment, cut toward the start of 2000. -/
def microseconds (nanoseconds : Int) : Int := nanoseconds.tdiv microsecond

/-- Whether a type is the one of binary documents. -/
def WireType.isBinaryDocument : WireType → Bool
  | .base _ _ .jsonb => true
  | _ => false

/-- Writes a value that is neither NULL nor structured, as bytes of its own kind whatever the type
is. -/
def writeScalar (t : WireType) : Value → List UInt8
  | .boolean b => [if b then 1 else 0]
  | .int16 n => bytesOfInt 2 n.toInt
  | .int32 n => bytesOfInt 4 n.toInt
  | .int64 n => bytesOfInt 8 n.toInt
  | .float32 x => bytesOfNat 4 x.bits.toNat
  | .float64 x => bytesOfNat 8 x.bits.toNat
  | .decimal d => (NumericGroups.ofDecimal d).toBytes
  | .text s => (if isVersionedText t.name then [1] else []) ++ utf8Encode s
  | .blob bytes => bytes
  | .date d => bytesOfInt 4 d.toDays
  | .time c => bytesOfInt 8 (microseconds c.toNanoseconds)
  | .timestamp s => bytesOfInt 8 (microseconds s.toNanoseconds)
  | .zoned s => bytesOfInt 8 (microseconds s.toNanoseconds)
  | .uuid u => bytesOfNat 16 u.bits.toNat
  | .document d =>
    (if t.isBinaryDocument then [documentVersion] else []) ++ utf8Encode d.text
  | .enumeration _ label => utf8Encode label
  | _ => []

end TypedStore.Wire
