/-
Whole numbers as bytes, most significant first. Reading takes bytes from the front and hands back
what follows, or fails where there are too few of them.
-/

set_option autoImplicit false

namespace TypedStore.Wire

/-! ## 1. Numbers -/

/-- The number that bytes spell. -/
def natOfBytes (bytes : List UInt8) : Nat :=
  bytes.foldl (fun acc b => acc * 256 + b.toNat) 0

/-- The last `width` bytes of a number. -/
def bytesOfNat : Nat → Nat → List UInt8
  | 0, _ => []
  | width + 1, n => bytesOfNat width (n / 256) ++ [UInt8.ofNat n]

/-- The signed number with the same `width` bytes. -/
def signedOf (width n : Nat) : Int :=
  Int.bmod n (Nat.pow 256 width)

/-- The last `width` bytes of a signed number, in two's complement. -/
def bytesOfInt (width : Nat) (n : Int) : List UInt8 :=
  bytesOfNat width (n % (Nat.pow 256 width : Nat)).toNat

theorem length_bytesOfNat (width n : Nat) : (bytesOfNat width n).length = width := by
  induction width generalizing n with
  | zero => rfl
  | succ width ih => simp [bytesOfNat, ih]

/-! ## 2. Taking from the front -/

/-- A number of bytes and what follows them. -/
def takeBytes? (size : Nat) (raw : List UInt8) : Option (List UInt8 × List UInt8) :=
  if size ≤ raw.length then some (raw.take size, raw.drop size) else none

/-- An unsigned number of `width` bytes and what follows it. -/
def takeNat? (width : Nat) (raw : List UInt8) : Option (Nat × List UInt8) :=
  (takeBytes? width raw).map fun (bytes, rest) => (natOfBytes bytes, rest)

/-- A signed number of `width` bytes and what follows it. -/
def takeInt? (width : Nat) (raw : List UInt8) : Option (Int × List UInt8) :=
  (takeNat? width raw).map fun (n, rest) => (signedOf width n, rest)

theorem append_of_takeBytes? {size : Nat} {raw bytes rest : List UInt8}
    (h : takeBytes? size raw = some (bytes, rest)) : bytes ++ rest = raw ∧ bytes.length = size := by
  unfold takeBytes? at h
  split at h
  · obtain ⟨rfl, rfl⟩ := Prod.mk.inj (Option.some.inj h)
    exact ⟨List.take_append_drop _ _, by simp; omega⟩
  · simp at h

theorem length_of_takeBytes? {size : Nat} {raw bytes rest : List UInt8}
    (h : takeBytes? size raw = some (bytes, rest)) :
    bytes.length = size ∧ raw.length = size + rest.length := by
  obtain ⟨whole, sized⟩ := append_of_takeBytes? h
  have := congrArg List.length whole
  simp only [List.length_append] at this
  omega

theorem takeBytes?_append (bytes rest : List UInt8) :
    takeBytes? bytes.length (bytes ++ rest) = some (bytes, rest) := by
  simp [takeBytes?]

theorem length_of_takeNat? {width n : Nat} {raw rest : List UInt8}
    (h : takeNat? width raw = some (n, rest)) : raw.length = width + rest.length := by
  obtain ⟨⟨bytes, tail⟩, taken, same⟩ := Option.map_eq_some_iff.1 h
  obtain ⟨rfl, rfl⟩ := Prod.mk.inj same
  exact (length_of_takeBytes? taken).2

theorem length_of_takeInt? {width : Nat} {n : Int} {raw rest : List UInt8}
    (h : takeInt? width raw = some (n, rest)) : raw.length = width + rest.length := by
  obtain ⟨⟨m, tail⟩, taken, same⟩ := Option.map_eq_some_iff.1 h
  obtain ⟨rfl, rfl⟩ := Prod.mk.inj same
  exact length_of_takeNat? taken

end TypedStore.Wire
