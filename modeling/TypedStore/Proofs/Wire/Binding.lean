/-
Arrays that are bound and read back. An array is written with one dimension, its items for the element type,
and read with as many dimensions as its header has. So an array of scalars comes back as it was
(`returns_row`), whatever scalars these are, as long as each comes back by itself; but the items of an array
in an array are arrays for a type that is none, and binding stops there (`encode_nested`). Among arrays that
are nested evenly it is just those of one dimension that come back (`returns_iff_row`).
-/
import TypedStore.Proofs.Wire.Inversion

set_option autoImplicit false

namespace TypedStore.Wire

/-! ## 1. One dimension -/

/-- A value comes back: it is bound as a type, and its bytes are read as that type. -/
def Returns (t : WireType) (v : Value) : Prop :=
  ∃ raw, encode t v = .ok (some raw) ∧ decode t raw = .ok v

/-- A NULL, or a value that comes back by itself, in a cell whose length has room in front of it. -/
def ReturnsIn (element : WireType) (item : Value) : Prop :=
  ∃ cell, encode element item = .ok cell ∧ decodeCell element cell = .ok item ∧ Fitting cell

theorem returnsIn_null (element : WireType) : ReturnsIn element .null :=
  ⟨none, by rw [encode], rfl, nofun⟩

/-- Items are written one after the other. -/
theorem encodeItems_map {element : WireType} {sent : List (Value × Option (List UInt8))}
    (each : ∀ item ∈ sent, encode element item.1 = .ok item.2) :
    encodeItems element (sent.map (·.1)) = .ok (sent.map (·.2)) := by
  induction sent with
  | nil => rw [List.map_nil, encodeItems, List.map_nil]
  | cons item rest ih =>
    have others := ih fun other mem => each other (List.mem_cons_of_mem _ mem)
    rw [List.map_cons, encodeItems, each item List.mem_cons_self, others]
    rfl

/-- The cells of items that come back. -/
theorem exists_cells {element : WireType} {items : List Value}
    (each : ∀ item ∈ items, ReturnsIn element item) :
    ∃ sent : List (Value × Option (List UInt8)), sent.map (·.1) = items
      ∧ (∀ item ∈ sent, encode element item.1 = .ok item.2)
      ∧ (∀ item ∈ sent, decodeCell element item.2 = .ok item.1) ∧ ∀ item ∈ sent, Fitting item.2 := by
  induction items with
  | nil => exact ⟨[], rfl, nofun, nofun, nofun⟩
  | cons item rest ih =>
    obtain ⟨cell, written, read, fits⟩ := each item List.mem_cons_self
    obtain ⟨sent, rfl, writes, reads, fit⟩ := ih fun other mem => each other (List.mem_cons_of_mem _ mem)
    exact ⟨(item, cell) :: sent, rfl, List.forall_mem_cons.2 ⟨written, writes⟩,
      List.forall_mem_cons.2 ⟨read, reads⟩, List.forall_mem_cons.2 ⟨fits, fit⟩⟩

/-- The header of a bound array tells its length. -/
theorem takeArrayHeader?_arrayHeader {arrayOid elementOid length : Nat} {hasNull : Bool}
    {rest : List UInt8} (small : length < 2 ^ 31) :
    takeArrayHeader? (arrayHeader arrayOid elementOid length hasNull ++ rest) = some (⟨[length]⟩, rest) := by
  have flag : (if hasNull then 1 else 0) < 2 ^ 31 := by
    cases hasNull <;> decide
  have bound : lowerBound arrayOid < 2 ^ 31 := by
    unfold lowerBound
    split <;> decide
  have one : 1 < 2 ^ 31 := by decide
  simp [arrayHeader, takeArrayHeader?, takeInt?_count one, takeInt?_count flag, takeNat?_append,
    takeDimensions?, takeInt?_count small, takeInt?_count bound]

/-- The bytes of a bound array: a header of one dimension, then the cells. -/
def rowBytes (arrayOid elementOid : Nat) (cells : List (Option (List UInt8))) : List UInt8 :=
  arrayHeader arrayOid elementOid cells.length (cells.any Option.isNone) ++ cells.flatMap sized

theorem encode_row {name : String} {oid : Nat} {element : WireType} {items : List Value}
    {cells : List (Option (List UInt8))} (written : encodeItems element items = .ok cells) :
    encode (.array name oid element) (.array items) = .ok (some (rowBytes oid element.oid cells)) := by
  rw [encode, written]
  rfl

/-- An array is read back from the cells of its items. -/
theorem decode_rowBytes {name : String} {oid elementOid : Nat} {element : WireType}
    {sent : List (Value × Option (List UInt8))} (count : sent.length < 2 ^ 31)
    (fits : ∀ item ∈ sent, Fitting item.2)
    (reads : ∀ item ∈ sent, decodeCell element item.2 = .ok item.1) :
    decode (.array name oid element) (rowBytes oid elementOid (sent.map (·.2)))
      = .ok (.array (sent.map (·.1))) := by
  have taken : takeArrayHeader? (rowBytes oid elementOid (sent.map (·.2))) = _ :=
    takeArrayHeader?_arrayHeader (by rwa [List.length_map])
  have counted : (ArrayHeader.mk [sent.length]).total? = some sent.length := by
    have small : sent.length < countLimit := Nat.lt_trans count (by decide)
    simp [ArrayHeader.total?, countedProduct?, small]
  rw [List.length_map, List.flatMap_map] at taken
  rw [decode_array taken counted, decodeItems_flatMap fits reads]
  rfl

/-- An array of items that come back comes back. -/
theorem returns_row {name : String} {oid : Nat} {element : WireType} {items : List Value}
    (count : items.length < 2 ^ 31) (each : ∀ item ∈ items, ReturnsIn element item) :
    Returns (.array name oid element) (.array items) := by
  obtain ⟨sent, rfl, writes, reads, fits⟩ := exists_cells each
  rw [List.length_map] at count
  exact ⟨_, encode_row (encodeItems_map writes), decode_rowBytes count fits reads⟩

/-! ## 2. More dimensions -/

/-- Whether a type is an array type. -/
def WireType.isArray : WireType → Bool
  | .array _ _ _ => true
  | _ => false

theorem encode_array_of_plain {t : WireType} (plain : t.isArray = false) (items : List Value) :
    encode t (.array items) = .error .misplacedArray := by
  cases t with
  | array => cases plain
  | _ =>
    rw [encode]
    nofun

/-- An array in an array cannot be bound: it is written for the element type. -/
theorem encode_nested {name : String} {oid : Nat} {element : WireType} (plain : element.isArray = false)
    (inner items : List Value) :
    encode (.array name oid element) (.array (.array inner :: items)) = .error .misplacedArray := by
  rw [encode, encodeItems, encode_array_of_plain plain]
  rfl

theorem Laid.exists_array {length : Nat} {lengths : List Nat} {v : Value} {items : List Value}
    (laid : Laid (length :: lengths) v items) : ∃ parts, v = .array parts := by
  cases laid with
  | array parts within => exact ⟨_, rfl⟩

/-- What is laid out by several lengths begins with an array. -/
theorem Laid.exists_nested {outer inner : Nat} {lengths : List Nat} {v : Value} {items : List Value}
    (laid : Laid (outer :: inner :: lengths) v items) (positive : 1 ≤ outer) :
    ∃ first rest, v = .array (.array first :: rest) := by
  cases laid with
  | array parts within =>
    cases parts with
    | nil => cases positive
    | cons part others =>
      obtain ⟨first, shape⟩ := (within part List.mem_cons_self).exists_array
      exact ⟨first, others.map (·.1), by rw [List.map_cons, shape]⟩

/-- **An array comes back if it has one dimension.** Let the items of an array be NULLs and scalars that
come back by themselves, nested evenly and nowhere empty. The array can be bound as the array type of its
items, and is then read as it was, if and only if it has one dimension. An array of more dimensions is not
bound at all. The array without items comes back. -/
theorem returns_iff_row {name : String} {oid : Nat} {element : WireType} {lengths : List Nat} {v : Value}
    {items : List Value} (plain : element.isArray = false) (laid : Laid lengths v items)
    (nonempty : lengths ≠ []) (positive : ∀ n ∈ lengths, 1 ≤ n) (count : items.length < 2 ^ 31)
    (each : ∀ item ∈ items, ReturnsIn element item) :
    (Returns (.array name oid element) v ↔ lengths.length = 1)
      ∧ (2 ≤ lengths.length → encode (.array name oid element) v = .error .misplacedArray)
      ∧ Returns (.array name oid element) (.array []) := by
  have stops : 2 ≤ lengths.length → encode (.array name oid element) v = .error .misplacedArray := by
    intro several
    rcases lengths with _ | ⟨outer, _ | ⟨inner, others⟩⟩
    · exact absurd rfl nonempty
    · exact absurd several (Nat.not_succ_le_self 1)
    · obtain ⟨first, rest, rfl⟩ := laid.exists_nested (positive outer List.mem_cons_self)
      exact encode_nested plain first rest
  refine ⟨⟨fun ⟨raw, written, _⟩ => ?_, fun single => ?_⟩, stops, returns_row (by decide) nofun⟩
  · refine Classical.not_not.1 fun other => ?_
    have filled : lengths.length ≠ 0 := fun none => nonempty (List.length_eq_zero_iff.1 none)
    rw [stops (by omega)] at written
    cases written
  · obtain ⟨length, rfl⟩ := List.length_eq_one_iff.1 single
    rw [laid.eq_array]
    exact returns_row count each

theorem returnsIn_int4 (n : Int32) : ReturnsIn (.base "int4" 23 .int4) (.int32 n) := by
  refine ⟨some (bytesOfInt 4 n.toInt), ?_, ?_, ?_⟩
  · rw [encode]
    · rfl
    all_goals exact nofun
  · show decode _ _ = _
    rw [decode, if_neg (by decide)]
    exact BaseForm.read_of_writes (.int4 n) "int4"
  · rintro _ ⟨rfl⟩
    rw [length_bytesOfInt]
    decide

/-- A number and NULL come back. -/
theorem returns_iff_row_pair :
    Laid [2] (.array [.int32 5, .null]) [.int32 5, .null]
      ∧ (∀ item ∈ [.int32 5, .null], ReturnsIn (.base "int4" 23 .int4) item)
      ∧ Returns numbers (.array [.int32 5, .null]) := by
  have laid : Laid [2] (.array [.int32 5, .null]) [.int32 5, .null] := .row [.int32 5, .null]
  have each : ∀ item ∈ [.int32 5, .null], ReturnsIn (.base "int4" 23 .int4) item := by
    rw [List.forall_mem_cons, List.forall_mem_singleton]
    exact ⟨returnsIn_int4 5, returnsIn_null _⟩
  exact ⟨laid, each, (returns_iff_row rfl laid nofun (by decide) (by decide) each).1.2 rfl⟩

/-- Two rows of two numbers are laid out evenly, and each number comes back, but the rows do not. -/
theorem returns_fails :
    Laid [2, 2] (.array [.array [.int32 1, .int32 2], .array [.int32 3, .int32 4]])
        [.int32 1, .int32 2, .int32 3, .int32 4]
      ∧ (∀ n, ReturnsIn (.base "int4" 23 .int4) (.int32 n))
      ∧ encode numbers (.array [.array [.int32 1, .int32 2], .array [.int32 3, .int32 4]])
        = .error .misplacedArray
      ∧ ¬ Returns numbers (.array [.array [.int32 1, .int32 2], .array [.int32 3, .int32 4]]) := by
  have laid : Laid [2, 2] (.array [.array [.int32 1, .int32 2], .array [.int32 3, .int32 4]])
      [.int32 1, .int32 2, .int32 3, .int32 4] := by
    refine .array [(.array [.int32 1, .int32 2], [.int32 1, .int32 2]),
      (.array [.int32 3, .int32 4], [.int32 3, .int32 4])] ?_
    rw [List.forall_mem_cons, List.forall_mem_singleton]
    exact ⟨.row [.int32 1, .int32 2], .row [.int32 3, .int32 4]⟩
  have stops : encode numbers (.array [.array [.int32 1, .int32 2], .array [.int32 3, .int32 4]])
      = .error .misplacedArray := encode_nested rfl _ _
  refine ⟨laid, returnsIn_int4, stops, ?_⟩
  rintro ⟨raw, written, -⟩
  rw [stops] at written
  cases written

end TypedStore.Wire
