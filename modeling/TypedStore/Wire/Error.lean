/-
Failures of reading and writing cells. Four of them have a message; of the others only the fact counts.
Two are faults: the caller or the peer broke a rule that is taken for granted, and the work stops where
other failures are answered.
-/
import TypedStore.Error

set_option autoImplicit false

namespace TypedStore.Wire

open TypedStore.Text (natText)

/-- Why a value could not be read or written. -/
inductive CodecError where
  /-- Bytes that no value of the type is written as, or a value that no bytes stand for. -/
  | malformed
  /-- A length that runs over the end. -/
  | truncated
  /-- A field that is not described and whose type is not built in. -/
  | unknownField (position : Nat) (typeName : String) (oid : Nat)
  /-- A base type that is not read. -/
  | unsupported (typeName : String)
  /-- A structured value that has not been expanded. -/
  | unexpanded (shown : String)
  /-- An array of more elements than can be counted. -/
  | uncountable
  /-- An array for a type that is not an array type. -/
  | misplacedArray
deriving DecidableEq, Repr

namespace CodecError

/-- What a failure says. -/
def message? : CodecError → Option String
  | malformed | uncountable | misplacedArray => none
  | truncated => some "Truncated Postgres value"
  | unknownField position typeName oid =>
    some ("Cannot decode field " ++ natText position ++ " of " ++ Error.cited typeName
      ++ ", unknown type oid " ++ natText oid)
  | unsupported typeName => some ("Cannot decode the Postgres type " ++ Error.cited typeName)
  | unexpanded shown =>
    some ("Value " ++ Error.cited shown ++ " must be expanded before it is bound")

/-- Whether a failure is a fault. Room that cannot be made would stop the work as well, but reading makes no
room here: what is asked for is told apart from the answer. -/
def isFault : CodecError → Bool
  | uncountable | misplacedArray => true
  | _ => false

end CodecError

end TypedStore.Wire
