/-
Arrays and composite values on the wire, as far as their parts are cells. Cells and fields have their
lengths in front and are cut off exactly (`takeCell_sized`, `takeField_bytes`); the header of an array
gives its lengths back (`takeArrayHeader?_headerBytes`); and elements in row-major order are regrouped as
they were laid out (`nest_of_laid`), whatever the number of dimensions.
-/
import TypedStore.Proofs.Wire.Bytes
import TypedStore.Wire.Decode

set_option autoImplicit false

namespace TypedStore.Wire

/-! ## 1. Cells and fields -/

variable {cell : Option (List UInt8)} {rest : List UInt8}

/-- Bound of the lengths that stand in front of cells. -/
def cellLimit : Nat := 2 ^ 31

/-- A cell whose length has room in front of it. -/
def Fitting (cell : Option (List UInt8)) : Prop := ∀ raw ∈ cell, raw.length < cellLimit

theorem takeCell_sized (fits : Fitting cell) : takeCell (sized cell ++ rest) = .ok (cell, rest) := by
  cases cell with
  | none =>
    have taken : takeInt? 4 (sized none ++ rest) = some (-1, rest) :=
      takeInt?_bytesOfInt ⟨by decide, by decide⟩
    simp [takeCell, taken]
  | some bytes =>
    have taken : takeInt? 4 (sized (some bytes) ++ rest) = some ((bytes.length : Int), bytes ++ rest) := by
      rw [sized, List.append_assoc]
      exact takeInt?_count (fits bytes rfl)
    have positive : ¬ ((bytes.length : Int) < 0) := by omega
    simp [takeCell, taken, positive, takeBytes?_append]

/-- A field of a composite value: its name and type, the number that stands for its type, its value and
its cell. -/
structure SentField where
  name : String
  type : WireType
  oid : UInt32
  value : Value
  cell : Option (List UInt8)

/-- The number of the type, then the cell with its length in front. -/
def SentField.bytes (f : SentField) : List UInt8 := bytesOfNat 4 f.oid.toNat ++ sized f.cell

theorem takeField_bytes {f : SentField} (fits : Fitting f.cell) :
    takeField (f.bytes ++ rest) = .ok (f.oid.toNat, f.cell, rest) := by
  have small : f.oid.toNat < 256 ^ 4 := f.oid.toNat_lt
  rw [SentField.bytes, List.append_assoc]
  simp [takeField, takeNat?_bytesOfNat small, takeCell_sized fits]

/-- The count of the fields, then the fields. -/
def recordBytes (fields : List SentField) : List UInt8 :=
  bytesOfNat 4 fields.length ++ fields.flatMap SentField.bytes

/-- A part is not longer than all parts together. -/
theorem length_le_flatMap {α β : Type} {f : α → List β} {parts : List α} {part : α} (h : part ∈ parts) :
    (f part).length ≤ (parts.flatMap f).length := by
  rw [List.flatMap_def]
  exact (List.sublist_flatten_of_mem (List.mem_map_of_mem h)).length_le

theorem length_le_sized {raw : List UInt8} (h : raw ∈ cell) : raw.length ≤ (sized cell).length := by
  cases h
  simp [sized]

/-- Parts of one size take as many times their count. -/
theorem length_flatMap_of_forall {α β : Type} {f : α → List β} {size : Nat} {parts : List α}
    (h : ∀ part ∈ parts, (f part).length = size) :
    (parts.flatMap f).length = parts.length * size := by
  induction parts with
  | nil => simp
  | cons part rest ih =>
    have first := h part List.mem_cons_self
    have others := ih fun other mem => h other (List.mem_cons_of_mem _ mem)
    simp only [List.flatMap_cons, List.length_append, List.length_cons, first, others, Nat.add_mul]
    omega

/-- Parts of some size at least take as many times their count at least. -/
theorem mul_length_le_flatMap {α β : Type} {f : α → List β} {size : Nat} {parts : List α}
    (h : ∀ part ∈ parts, size ≤ (f part).length) : size * parts.length ≤ (parts.flatMap f).length := by
  induction parts with
  | nil => simp
  | cons part rest ih =>
    have first := h part List.mem_cons_self
    have others := ih fun other mem => h other (List.mem_cons_of_mem _ mem)
    simp only [List.length_cons, List.flatMap_cons, List.length_append, Nat.mul_add]
    omega

theorem four_le_length_sized (cell : Option (List UInt8)) : 4 ≤ (sized cell).length := by
  cases cell <;> simp [sized, length_bytesOfInt, length_bytesOfNat]

/-! ## 2. Headers -/

/-- A dimension of an array. -/
structure Dimension where
  length : Nat
  lowerBound : Int32

/-- The header of an array: the count of dimensions, whether there are NULLs, the number of the element
type, then length and lower bound of each dimension. -/
def headerBytes (hasNull : Bool) (elementOid : UInt32) (dimensions : List Dimension) : List UInt8 :=
  bytesOfNat 4 dimensions.length ++ bytesOfNat 4 (if hasNull then 1 else 0)
    ++ bytesOfNat 4 elementOid.toNat
    ++ dimensions.flatMap fun d => bytesOfNat 4 d.length ++ bytesOfInt 4 d.lowerBound.toInt

theorem length_headerBytes (hasNull : Bool) (elementOid : UInt32) (dimensions : List Dimension) :
    (headerBytes hasNull elementOid dimensions).length = 12 + 8 * dimensions.length := by
  have each : ∀ d ∈ dimensions,
      (bytesOfNat 4 d.length ++ bytesOfInt 4 d.lowerBound.toInt).length = 8 := by
    intro d _
    rw [List.length_append, length_bytesOfNat, length_bytesOfInt]
  simp only [headerBytes, List.length_append, length_bytesOfNat, length_flatMap_of_forall each]
  omega

theorem takeDimensions?_flatMap {dimensions : List Dimension} (rest : List UInt8)
    (small : ∀ d ∈ dimensions, d.length < 2 ^ 31) :
    takeDimensions? dimensions.length
        ((dimensions.flatMap fun d => bytesOfNat 4 d.length ++ bytesOfInt 4 d.lowerBound.toInt) ++ rest)
      = some (dimensions.map (·.length), rest) := by
  induction dimensions with
  | nil => rfl
  | cons d others ih =>
    have bound : Fits 4 d.lowerBound.toInt := by
      have := d.lowerBound.le_toInt
      have := d.lowerBound.toInt_lt
      exact ⟨by omega, by omega⟩
    have more := ih fun other mem => small other (List.mem_cons_of_mem _ mem)
    simp [takeDimensions?, takeInt?_count (small d List.mem_cons_self), takeInt?_bytesOfInt bound, more]

theorem takeArrayHeader?_headerBytes {hasNull : Bool} {elementOid : UInt32}
    {dimensions : List Dimension} (count : dimensions.length < 2 ^ 31)
    (small : ∀ d ∈ dimensions, d.length < 2 ^ 31) :
    takeArrayHeader? (headerBytes hasNull elementOid dimensions ++ rest)
      = some (⟨dimensions.map (·.length)⟩, rest) := by
  have flag : (if hasNull then 1 else 0) < 2 ^ 31 := by
    cases hasNull <;> decide
  have oid : elementOid.toNat < 256 ^ 4 := elementOid.toNat_lt
  have lengths := takeDimensions?_flatMap rest small
  simp [headerBytes, takeArrayHeader?, takeInt?_count count, takeInt?_count flag,
    takeNat?_bytesOfNat oid, lengths]

/-- Further lengths of at least one do not make a product smaller. -/
theorem le_foldl_mul (product : Nat) {lengths : List Nat} (positive : ∀ n ∈ lengths, 1 ≤ n) :
    product ≤ lengths.foldl (· * ·) product := by
  induction lengths generalizing product with
  | nil => exact Nat.le_refl _
  | cons length rest ih =>
    have first := positive length List.mem_cons_self
    have others := ih (product * length) fun n mem => positive n (List.mem_cons_of_mem _ mem)
    exact Nat.le_trans (Nat.le_mul_of_pos_right product first) others

theorem countedProduct?_of_lt {product : Nat} {lengths : List Nat} (positive : ∀ n ∈ lengths, 1 ≤ n)
    (small : lengths.foldl (· * ·) product < countLimit) :
    countedProduct? product lengths = some (lengths.foldl (· * ·) product) := by
  induction lengths generalizing product with
  | nil => rfl
  | cons length rest ih =>
    have others : ∀ n ∈ rest, 1 ≤ n := fun n mem => positive n (List.mem_cons_of_mem _ mem)
    have here : product * length < countLimit := Nat.lt_of_le_of_lt (le_foldl_mul _ others) small
    rw [countedProduct?, if_pos here]
    exact ih others small

/-- A length is at most the product of all. -/
theorem le_foldl_of_mem {lengths : List Nat} (positive : ∀ n ∈ lengths, 1 ≤ n) {n : Nat}
    (h : n ∈ lengths) (product : Nat) (pos : 1 ≤ product) : n ≤ lengths.foldl (· * ·) product := by
  induction lengths generalizing product with
  | nil => cases h
  | cons length rest ih =>
    have others : ∀ n ∈ rest, 1 ≤ n := fun n mem => positive n (List.mem_cons_of_mem _ mem)
    have first := positive length List.mem_cons_self
    rcases List.mem_cons.1 h with rfl | h
    · exact Nat.le_trans (Nat.le_mul_of_pos_left _ pos) (le_foldl_mul _ others)
    · exact ih others h (product * length) (Nat.mul_pos pos first)

/-! ## 3. Shapes -/

/-- A value that arrays of some lengths are nested in, the first outermost, and its elements in row-major
order: an element of an outer array comes with all its elements before the next one. -/
inductive Laid : List Nat → Value → List Value → Prop where
  | element (v : Value) : Laid [] v [v]
  | array {lengths : List Nat} (parts : List (Value × List Value))
      (within : ∀ part ∈ parts, Laid lengths part.1 part.2) :
    Laid (parts.length :: lengths) (.array (parts.map (·.1))) (parts.flatMap (·.2))

/-- An array of one dimension is laid out as it is. -/
theorem Laid.row (items : List Value) : Laid [items.length] (.array items) items := by
  have laid : Laid [(items.map fun v => (v, [v])).length] _ _ := .array (items.map fun v => (v, [v])) (by
    intro part mem
    obtain ⟨v, -, rfl⟩ := List.mem_map.1 mem
    exact .element v)
  simpa [List.flatMap_map, Function.comp_def] using laid

/-- The elements are as many as the lengths make. -/
theorem length_of_laid {lengths : List Nat} {v : Value} {items : List Value}
    (laid : Laid lengths v items) : items.length = lengths.foldl (· * ·) 1 := by
  induction laid with
  | element v => rfl
  | @array lengths parts within ih =>
    rw [length_flatMap_of_forall ih, List.foldl_cons, Nat.mul_comm 1, List.foldl_assoc]

/-- Their count can be told from the lengths. -/
theorem total?_of_laid {lengths : List Nat} {v : Value} {items : List Value}
    (laid : Laid lengths v items) (nonempty : lengths ≠ []) (positive : ∀ n ∈ lengths, 1 ≤ n)
    (bound : items.length < countLimit) : (ArrayHeader.mk lengths).total? = some items.length := by
  have total := length_of_laid laid
  have some_ : ¬ lengths.isEmpty = true := by simpa using nonempty
  rw [ArrayHeader.total?, if_neg some_, countedProduct?_of_lt positive (total ▸ bound), total]

/-- Parts of one size are found where their place says. -/
theorem take_drop_flatMap {α β : Type} {f : α → List β} {size : Nat} {parts : List α}
    (h : ∀ part ∈ parts, (f part).length = size) (i : Nat) (bound : i < parts.length) :
    ((parts.flatMap f).drop (i * size)).take size = f parts[i] := by
  induction parts generalizing i with
  | nil => cases bound
  | cons part rest ih =>
    have first := h part List.mem_cons_self
    cases i with
    | zero => simp [← first]
    | succ i =>
      have skipped : (i + 1) * size = (f part).length + i * size := by
        rw [first, Nat.add_mul, Nat.one_mul, Nat.add_comm]
      rw [List.flatMap_cons, skipped, List.drop_length_add_append]
      exact ih (fun other mem => h other (List.mem_cons_of_mem _ mem)) i (Nat.lt_of_succ_lt_succ bound)

/-- Elements in row-major order are regrouped as they were laid out. The induction is on the nesting. -/
theorem nest_of_laid {lengths : List Nat} {v : Value} {items : List Value}
    (laid : Laid lengths v items) (nonempty : lengths ≠ []) : nest lengths items = v := by
  induction laid with
  | element v => exact absurd rfl nonempty
  | @array lengths parts within ih =>
    cases lengths with
    | nil =>
      -- the parts of the innermost arrays are elements
      have single : ∀ part ∈ parts, part.2 = [part.1] := by
        intro part mem
        have laid := within part mem
        generalize part.2 = items at laid
        cases laid
        rfl
      have items : parts.flatMap (·.2) = parts.map (·.1) := by
        rw [List.map_eq_flatMap, List.flatMap_def, List.flatMap_def, List.map_congr_left single]
      rw [nest, items, List.take_of_length_le (by simp)]
    | cons length others =>
      have sizes : ∀ part ∈ parts, part.2.length = (length :: others).foldl (· * ·) 1 :=
        fun part mem => length_of_laid (within part mem)
      rw [nest]
      · refine congrArg Value.array (List.ext_getElem (by simp) ?_)
        intro i _ bound
        have here : i < parts.length := by simpa using bound
        rw [List.getElem_map, List.getElem_map, List.getElem_range, take_drop_flatMap sizes i here]
        exact ih parts[i] (List.getElem_mem here) nofun
      · nofun

/-- What is laid out by one length is the array of its items. -/
theorem Laid.eq_array {length : Nat} {v : Value} {items : List Value} (laid : Laid [length] v items) :
    v = .array items := by
  have all : items.length = length := by simpa using length_of_laid laid
  rw [← nest_of_laid laid nofun, nest, List.take_of_length_le (Nat.le_of_eq all)]

/-- The array that a header describes. -/
theorem shape_of_laid {lengths : List Nat} {v : Value} {items : List Value}
    (laid : Laid lengths v items) (nonempty : lengths ≠ []) :
    (ArrayHeader.mk lengths).shape items = v := by
  have whole := nest_of_laid laid nonempty
  unfold ArrayHeader.shape
  split
  · rename_i single
    match lengths, single with
    | [length], _ => exact laid.eq_array.symm
  · exact whole

end TypedStore.Wire
