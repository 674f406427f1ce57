/-
Reading cells of the server's binary protocol. An array is a header followed by its elements in row
major order, a composite value is a count followed by its fields, and elements and fields have their
lengths in front, a negative one for NULL. Bytes behind the last element or field are not looked at.
-/
import TypedStore.Wire.Scalar

set_option autoImplicit false

namespace TypedStore.Wire

/-! ## 1. Parts -/

/-- Dimensions of an array, the first outermost. -/
structure ArrayHeader where
  lengths : List Nat
deriving DecidableEq, Repr

/-- Bound of the numbers that elements are counted in. -/
def countLimit : Nat := 0x10000000000000000

/-- Multiplies lengths one after the other, as long as the product stays below the bound. -/
def countedProduct? : Nat → List Nat → Option Nat
  | product, [] => some product
  | product, length :: rest =>
    if product * length < countLimit then countedProduct? (product * length) rest else none

/-- A product that can be counted is the product. -/
theorem countedProduct?_eq_some {product total : Nat} {lengths : List Nat}
    (h : countedProduct? product lengths = some total) : total = lengths.foldl (· * ·) product := by
  induction lengths generalizing product with
  | nil => exact (Option.some.inj h).symm
  | cons length rest ih =>
    unfold countedProduct? at h
    split at h
    · exact ih h
    · simp at h

/-- Number of elements that the dimensions call for, if it can be counted; without dimensions there are
none. -/
def ArrayHeader.total? (h : ArrayHeader) : Option Nat :=
  if h.lengths.isEmpty then some 0 else countedProduct? 1 h.lengths

/-- Lengths and lower bounds of dimensions. A negative length counts as zero. -/
def takeDimensions? : Nat → List UInt8 → Option (List Nat × List UInt8)
  | 0, raw => some ([], raw)
  | count + 1, raw => do
    let (length, raw) ← takeInt? 4 raw
    let (_, raw) ← takeInt? 4 raw
    let (others, raw) ← takeDimensions? count raw
    pure (length.toNat :: others, raw)

/-- The header of an array: count of dimensions, a flag for NULLs and the element type, of which the
last two are not needed, then the dimensions. -/
def takeArrayHeader? (raw : List UInt8) : Option (ArrayHeader × List UInt8) := do
  let (dimensions, raw) ← takeInt? 4 raw
  let (_, raw) ← takeInt? 4 raw
  let (_, raw) ← takeNat? 4 raw
  let (lengths, raw) ← takeDimensions? dimensions.toNat raw
  pure (⟨lengths⟩, raw)

/-- Bytes with their length in front, none if it is negative. -/
def takeCell (raw : List UInt8) : Except CodecError (Option (List UInt8) × List UInt8) :=
  match takeInt? 4 raw with
  | none => .error .malformed
  | some (length, rest) =>
    if length < 0 then .ok (none, rest)
    else
      match takeBytes? length.toNat rest with
      | some (bytes, rest) => .ok (some bytes, rest)
      | none => .error .truncated

/-- The number of a type, then bytes with their length in front. -/
def takeField (raw : List UInt8) :
    Except CodecError (Nat × Option (List UInt8) × List UInt8) :=
  match takeNat? 4 raw with
  | none => .error .malformed
  | some (oid, rest) =>
    match takeCell rest with
    | .error e => .error e
    | .ok (cell, rest) => .ok (oid, cell, rest)

theorem length_of_takeDimensions? {count : Nat} {raw rest : List UInt8} {lengths : List Nat}
    (h : takeDimensions? count raw = some (lengths, rest)) :
    raw.length = 8 * count + rest.length := by
  induction count generalizing raw lengths with
  | zero =>
    obtain ⟨rfl, rfl⟩ := Prod.mk.inj (Option.some.inj h)
    simp
  | succ count ih =>
    simp only [takeDimensions?, Option.bind_eq_bind, Option.bind_eq_some_iff, Prod.exists] at h
    obtain ⟨_, r₁, h₁, _, r₂, h₂, _, r₃, h₃, same⟩ := h
    obtain ⟨rfl, rfl⟩ := Prod.mk.inj (Option.some.inj same)
    have := length_of_takeInt? h₁
    have := length_of_takeInt? h₂
    have := ih h₃
    omega

/-- There are as many lengths as dimensions. -/
theorem count_of_takeDimensions? {count : Nat} {raw rest : List UInt8} {lengths : List Nat}
    (h : takeDimensions? count raw = some (lengths, rest)) : lengths.length = count := by
  induction count generalizing raw lengths with
  | zero =>
    obtain ⟨rfl, rfl⟩ := Prod.mk.inj (Option.some.inj h)
    rfl
  | succ count ih =>
    simp only [takeDimensions?, Option.bind_eq_bind, Option.bind_eq_some_iff, Prod.exists] at h
    obtain ⟨_, _, _, _, _, _, _, _, h₃, same⟩ := h
    obtain ⟨rfl, rfl⟩ := Prod.mk.inj (Option.some.inj same)
    simp [ih h₃]

theorem length_of_takeArrayHeader? {raw rest : List UInt8} {header : ArrayHeader}
    (h : takeArrayHeader? raw = some (header, rest)) :
    raw.length = 12 + 8 * header.lengths.length + rest.length := by
  simp only [takeArrayHeader?, Option.bind_eq_bind, Option.bind_eq_some_iff, Prod.exists] at h
  obtain ⟨_, r₁, h₁, _, r₂, h₂, _, r₃, h₃, lengths, r₄, h₄, same⟩ := h
  obtain ⟨rfl, rfl⟩ := Prod.mk.inj (Option.some.inj same)
  have := length_of_takeInt? h₁
  have := length_of_takeInt? h₂
  have := length_of_takeNat? h₃
  have := length_of_takeDimensions? h₄
  have := count_of_takeDimensions? h₄
  simp only
  omega

/-- What a cell takes: its length, and its bytes if there are any. -/
theorem length_of_takeCell {raw rest : List UInt8} {cell : Option (List UInt8)}
    (h : takeCell raw = .ok (cell, rest)) :
    rest.length < raw.length ∧ ∀ bytes ∈ cell, bytes.length < raw.length := by
  unfold takeCell at h
  split at h
  · simp at h
  · rename_i taken
    have := length_of_takeInt? taken
    split at h
    · obtain ⟨rfl, rfl⟩ := Prod.mk.inj (Except.ok.inj h)
      exact ⟨by omega, by simp⟩
    · split at h
      · rename_i cut
        obtain ⟨rfl, rfl⟩ := Prod.mk.inj (Except.ok.inj h)
        have := length_of_takeBytes? cut
        exact ⟨by omega, by simp; omega⟩
      · simp at h

theorem length_of_takeField {raw rest : List UInt8} {oid : Nat} {cell : Option (List UInt8)}
    (h : takeField raw = .ok (oid, cell, rest)) :
    rest.length < raw.length ∧ ∀ bytes ∈ cell, bytes.length < raw.length := by
  unfold takeField at h
  split at h
  · simp at h
  · rename_i taken
    have := length_of_takeNat? taken
    split at h
    · simp at h
    · rename_i held
      simp only [Except.ok.injEq, Prod.mk.injEq] at h
      obtain ⟨rfl, rfl, rfl⟩ := h
      obtain ⟨shorter, inside⟩ := length_of_takeCell held
      exact ⟨by omega, fun bytes member => by have := inside bytes member; omega⟩

/-! ## 2. Shapes -/

/-- Elements in row major order as nested arrays. -/
def nest : List Nat → List Value → Value
  | [], _ => .null
  | [length], items => .array (items.take length)
  | length :: rest, items =>
    let size := rest.foldl (· * ·) 1
    .array ((List.range length).map fun i => nest rest ((items.drop (i * size)).take size))

/-- Elements as the array that a header describes. -/
def ArrayHeader.shape (h : ArrayHeader) (items : List Value) : Value :=
  if h.lengths.length ≤ 1 then .array items else nest h.lengths items

/-! ## 3. Cells -/

/-- The name and type of the field at a position. A field that is described has the described type
whatever number stands in front of it; another must have the number of a built-in type and gets no
name. -/
def fieldAt (typeName : String) (described : List (String × WireType)) (position oid : Nat) :
    Except CodecError (String × WireType) :=
  match described[position]? with
  | some field => .ok field
  | none =>
    match WireType.ofOid? oid with
    | some t => .ok ("", t)
    | none => .error (.unknownField position typeName oid)

mutual

/-- Reads the bytes of a value. -/
def decode (t : WireType) (raw : List UInt8) : Except CodecError Value :=
  match t with
  | .base name _ form =>
    if form = .record then
      match _taken : takeInt? 4 raw with
      | none => .error .malformed
      | some (count, rest) => (decodeFields name [] 0 count.toNat rest).map (.record name)
    else form.read name raw
  | .enumeration _ _ => (readText raw).map .text
  | .array _ _ element =>
    match _taken : takeArrayHeader? raw with
    | none => .error .malformed
    | some (header, rest) =>
      match header.total? with
      | none => .error .uncountable
      | some total => (decodeItems element total rest).map header.shape
  | .domain _ _ inner => decode inner raw
  | .composite name _ fields =>
    match _taken : takeInt? 4 raw with
    | none => .error .malformed
    | some (count, rest) => (decodeFields name fields 0 count.toNat rest).map (.record name)
termination_by (raw.length, sizeOf t)
decreasing_by
  · have := length_of_takeInt? _taken
    simp only [Prod.lex_def]
    omega
  · have := length_of_takeArrayHeader? _taken
    simp only [Prod.lex_def]
    omega
  · refine Prod.Lex.right _ ?_
    rw [WireType.domain.sizeOf_spec]
    omega
  · have := length_of_takeInt? _taken
    simp only [Prod.lex_def]
    omega

/-- Reads elements with their lengths in front. -/
def decodeItems (element : WireType) (count : Nat) (raw : List UInt8) :
    Except CodecError (List Value) :=
  match count with
  | 0 => .ok []
  | count + 1 =>
    match _taken : takeCell raw with
    | .error e => .error e
    | .ok (none, rest) => do
      let others ← decodeItems element count rest
      pure (.null :: others)
    | .ok (some bytes, rest) => do
      let first ← decode element bytes
      let others ← decodeItems element count rest
      pure (first :: others)
termination_by (raw.length, 0)
decreasing_by
  · have := (length_of_takeCell _taken).1
    simp only [Prod.lex_def]
    omega
  · have := (length_of_takeCell _taken).2 _ rfl
    simp only [Prod.lex_def]
    omega
  · have := (length_of_takeCell _taken).1
    simp only [Prod.lex_def]
    omega

/-- Reads fields from a position on. -/
def decodeFields (typeName : String) (described : List (String × WireType)) (position count : Nat)
    (raw : List UInt8) : Except CodecError (List (String × Value)) :=
  match count with
  | 0 => .ok []
  | count + 1 =>
    match _taken : takeField raw with
    | .error e => .error e
    | .ok (oid, none, rest) => do
      let (name, _) ← fieldAt typeName described position oid
      let others ← decodeFields typeName described (position + 1) count rest
      pure ((name, .null) :: others)
    | .ok (oid, some bytes, rest) => do
      let (name, fieldType) ← fieldAt typeName described position oid
      let first ← decode fieldType bytes
      let others ← decodeFields typeName described (position + 1) count rest
      pure ((name, first) :: others)
termination_by (raw.length, 0)
decreasing_by
  · have := (length_of_takeField _taken).1
    simp only [Prod.lex_def]
    omega
  · have := (length_of_takeField _taken).2 _ rfl
    simp only [Prod.lex_def]
    omega
  · have := (length_of_takeField _taken).1
    simp only [Prod.lex_def]
    omega

end

/-- Reads a cell; no bytes are NULL. -/
def decodeCell (t : WireType) : Option (List UInt8) → Except CodecError Value
  | none => .ok .null
  | some raw => decode t raw

end TypedStore.Wire
