/-
Writing parameters in the server's binary protocol. Values are declared with the type of their kind,
and where the kind does not tell, the type is left to the server. Labels travel as text; records and
self describing values do not travel, they are expanded before.
-/
import TypedStore.Wire.Scalar

set_option autoImplicit false

namespace TypedStore.Wire

/-! ## 1. Declared types -/

/-- The type that a parameter is declared with. -/
def parameterType : Value → WireType
  | .boolean _ => .base "bool" 16 .bool
  | .int16 _ => .base "int2" 21 .int2
  | .int32 _ => .base "int4" 23 .int4
  | .int64 _ => .base "int8" 20 .int8
  | .float32 _ => .base "float4" 700 .float4
  | .float64 _ => .base "float8" 701 .float8
  | .decimal _ => .base "numeric" 1700 .numeric
  | .text _ => .text
  | .blob _ => .base "bytea" 17 .bytes
  | .date _ => .base "date" 1082 .date
  | .time _ => .base "time" 1083 .time
  | .timestamp _ => .base "timestamp" 1114 .timestamp
  | .zoned _ => .base "timestamptz" 1184 .zoned
  | .uuid _ => .base "uuid" 2950 .uuid
  | .document _ => .base "jsonb" 3802 .jsonb
  | .null | .enumeration _ _ | .array _ | .record _ _ | .dynamic _ _ => .unknown

/-! ## 2. Bytes -/

/-- Bytes with their length in front. -/
def sized : Option (List UInt8) → List UInt8
  | none => bytesOfInt 4 (-1)
  | some bytes => bytesOfNat 4 bytes.length ++ bytes

/-- Index of the first element, zero for vectors and one for other arrays. -/
def lowerBound (arrayOid : Nat) : Nat :=
  if WireType.vectors.any fun v => v.1.oid == arrayOid then 0 else 1

/-- The header of an array of one dimension. -/
def arrayHeader (arrayOid elementOid length : Nat) (hasNull : Bool) : List UInt8 :=
  bytesOfNat 4 1 ++ bytesOfNat 4 (if hasNull then 1 else 0) ++ bytesOfNat 4 elementOid
    ++ bytesOfNat 4 length ++ bytesOfNat 4 (lowerBound arrayOid)

mutual

/-- Writes a value for a type; NULL has no bytes. Arrays have one dimension whose elements are written
for the element type, so they travel as array types only. -/
def encode (t : WireType) : Value → Except CodecError (Option (List UInt8))
  | .null => .ok none
  | .record typeName fields => .error (.unexpanded (Value.record typeName fields).display)
  | .dynamic tag content => .error (.unexpanded (Value.dynamic tag content).display)
  | .array items =>
    match t with
    | .array _ oid element => do
      let cells ← encodeItems element items
      let header := arrayHeader oid element.oid cells.length (cells.any Option.isNone)
      pure (some (header ++ cells.flatMap sized))
    | _ => .error .misplacedArray
  | v => .ok (some (writeScalar t v))

/-- Writes the elements of an array. -/
def encodeItems (element : WireType) : List Value → Except CodecError (List (Option (List UInt8)))
  | [] => .ok []
  | v :: rest => do
    let first ← encode element v
    let others ← encodeItems element rest
    pure (first :: others)

end

end TypedStore.Wire
