/-
Cells are read back. `Sent` says how the server sends values of types in any nesting: enumerations by
their labels, domains as what they are built upon, arrays of any number of dimensions, composite values
by their fields, and anonymous records, whose fields name built-in types. The decoder inverts it. The
induction is on how the value was sent, not on the type: an anonymous record does not tell the types of
its fields, and they may be records again.
-/
import TypedStore.Proofs.Wire.Layout
import TypedStore.Proofs.Wire.Scalar

set_option autoImplicit false

namespace TypedStore.Wire

open TypedStore.Text

/-! ## 1. What the server sends -/

/-- How a value of a type is sent as a cell. -/
inductive Sent : WireType → Value → Option (List UInt8) → Prop where
  | null (t : WireType) : Sent t .null none
  | base {name : String} {oid : Nat} {form : BaseForm} {v : Value} {raw : List UInt8}
      (written : form.Writes v raw) : Sent (.base name oid form) v (some raw)
  | enumeration (name : String) (oid : Nat) (label : String) :
    Sent (.enumeration name oid) (.text label) (some (utf8Encode label))
  | domain (name : String) (oid : Nat) {inner : WireType} {v : Value} {raw : List UInt8}
      (within : Sent inner v (some raw)) : Sent (.domain name oid inner) v (some raw)
  /-- An array without elements has no dimensions. -/
  | emptyArray (name : String) (oid : Nat) (element : WireType) (hasNull : Bool) (elementOid : UInt32) :
    Sent (.array name oid element) (.array []) (some (headerBytes hasNull elementOid []))
  /-- The elements, each with its cell, are laid out by the lengths of the dimensions. -/
  | array (name : String) (oid : Nat) {element : WireType} (hasNull : Bool) (elementOid : UInt32)
      {dimensions : List Dimension} {v : Value} {items : List (Value × Option (List UInt8))}
      (nonempty : dimensions ≠ []) (positive : ∀ d ∈ dimensions, 1 ≤ d.length)
      (laid : Laid (dimensions.map (·.length)) v (items.map (·.1)))
      (each : ∀ item ∈ items, Sent element item.1 item.2) :
    Sent (.array name oid element) v
      (some (headerBytes hasNull elementOid dimensions ++ items.flatMap fun item => sized item.2))
  | composite (name : String) (oid : Nat) (fields : List SentField)
      (each : ∀ f ∈ fields, Sent f.type f.value f.cell) :
    Sent (.composite name oid (fields.map fun f => (f.name, f.type)))
      (.record name (fields.map fun f => (f.name, f.value))) (some (recordBytes fields))
  /-- The fields of an anonymous record have no names, and built-in types. -/
  | record (name : String) (oid : Nat) (fields : List SentField)
      (builtIn : ∀ f ∈ fields, WireType.ofOid? f.oid.toNat = some f.type)
      (each : ∀ f ∈ fields, Sent f.type f.value f.cell) :
    Sent (.base name oid .record) (.record name (fields.map fun f => ("", f.value)))
      (some (recordBytes fields))

/-! ## 2. One part after the other -/

theorem decodeItems_of_takeCell {element : WireType} {count : Nat} {raw rest : List UInt8}
    {cell : Option (List UInt8)} {v : Value} (taken : takeCell raw = .ok (cell, rest))
    (read : decodeCell element cell = .ok v) :
    decodeItems element (count + 1) raw = (decodeItems element count rest).map (v :: ·) := by
  rw [decodeItems]
  split
  · rename_i failed
    rw [taken] at failed
    cases failed
  · rename_i found
    rw [taken] at found
    cases found
    cases read
    cases decodeItems element count rest <;> rfl
  · rename_i found
    rw [taken] at found
    cases found
    simp only [decodeCell] at read
    rw [read]
    cases decodeItems element count rest <;> rfl

theorem decodeFields_of_takeField {typeName : String} {described : List (String × WireType)}
    {position count oid : Nat} {raw rest : List UInt8} {cell : Option (List UInt8)} {name : String}
    {t : WireType} {v : Value} (taken : takeField raw = .ok (oid, cell, rest))
    (known : fieldAt typeName described position oid = .ok (name, t))
    (read : decodeCell t cell = .ok v) :
    decodeFields typeName described position (count + 1) raw
      = (decodeFields typeName described (position + 1) count rest).map ((name, v) :: ·) := by
  rw [decodeFields]
  split
  · rename_i failed
    rw [taken] at failed
    cases failed
  · rename_i found
    rw [taken] at found
    cases found
    cases read
    rw [known]
    cases decodeFields typeName described (position + 1) count rest <;> rfl
  · rename_i found
    rw [taken] at found
    cases found
    simp only [decodeCell] at read
    rw [known]
    show (decode t _ >>= _) = _
    rw [read]
    cases decodeFields typeName described (position + 1) count rest <;> rfl

/-- Elements are read back one after the other. The induction is on the elements. -/
theorem decodeItems_flatMap {element : WireType} {items : List (Value × Option (List UInt8))}
    (fits : ∀ item ∈ items, Fitting item.2)
    (each : ∀ item ∈ items, decodeCell element item.2 = .ok item.1) :
    decodeItems element items.length (items.flatMap fun item => sized item.2)
      = .ok (items.map (·.1)) := by
  induction items with
  | nil => 
    rw [List.length_nil, decodeItems]
    rfl
  | cons item rest ih =>
    have taken : takeCell (sized item.2 ++ rest.flatMap fun item => sized item.2) = _ :=
      takeCell_sized (fits item List.mem_cons_self)
    have others := ih (fun other mem => fits other (List.mem_cons_of_mem _ mem))
      fun other mem => each other (List.mem_cons_of_mem _ mem)
    rw [List.length_cons, List.flatMap_cons,
      decodeItems_of_takeCell taken (each item List.mem_cons_self), others]
    rfl

/-- Fields are read back one after the other, under the names that stand at their positions. -/
theorem decodeFields_flatMap {typeName : String} {described : List (String × WireType)}
    {position : Nat} {fields : List SentField} {nameOf : SentField → String}
    (fits : ∀ f ∈ fields, Fitting f.cell)
    (known : ∀ i f, fields[i]? = some f →
      fieldAt typeName described (position + i) f.oid.toNat = .ok (nameOf f, f.type))
    (each : ∀ f ∈ fields, decodeCell f.type f.cell = .ok f.value) :
    decodeFields typeName described position fields.length (fields.flatMap SentField.bytes)
      = .ok (fields.map fun f => (nameOf f, f.value)) := by
  induction fields generalizing position with
  | nil =>
    rw [List.length_nil, decodeFields]
    rfl
  | cons f rest ih =>
    have taken : takeField (f.bytes ++ rest.flatMap SentField.bytes) = _ :=
      takeField_bytes (fits f List.mem_cons_self)
    have here : fieldAt typeName described position f.oid.toNat = _ := known 0 f rfl
    have behind : ∀ i other, rest[i]? = some other →
        fieldAt typeName described (position + 1 + i) other.oid.toNat
          = .ok (nameOf other, other.type) := by
      intro i other there
      rw [Nat.add_assoc, Nat.add_comm 1 i]
      exact known (i + 1) other there
    have others := ih (fun other mem => fits other (List.mem_cons_of_mem _ mem)) behind
      fun other mem => each other (List.mem_cons_of_mem _ mem)
    rw [List.length_cons, List.flatMap_cons,
      decodeFields_of_takeField taken here (each f List.mem_cons_self), others]
    rfl

/-! ## 3. Whole cells -/

theorem decode_array_eq (name : String) (oid : Nat) (element : WireType) (raw : List UInt8) :
    decode (.array name oid element) raw
      = match takeArrayHeader? raw with
        | none => .error .malformed
        | some (header, rest) =>
          match header.total? with
          | none => .error .uncountable
          | some total => (decodeItems element total rest).map header.shape := by
  rw [decode]
  cases takeArrayHeader? raw with
  | none => rfl
  | some headed => rfl

theorem decode_array {name : String} {oid : Nat} {element : WireType} {raw rest : List UInt8}
    {header : ArrayHeader} {total : Nat} (taken : takeArrayHeader? raw = some (header, rest))
    (counted : header.total? = some total) :
    decode (.array name oid element) raw = (decodeItems element total rest).map header.shape := by
  simp only [decode_array_eq, taken, counted]

/-- Types whose values consist of fields: composite types, which describe them, and anonymous records,
which do not. -/
inductive WireType.HasFields : WireType → String → List (String × WireType) → Prop where
  | composite (name : String) (oid : Nat) (described : List (String × WireType)) :
    HasFields (.composite name oid described) name described
  | record (name : String) (oid : Nat) : HasFields (.base name oid .record) name []

theorem decode_fields_eq {t : WireType} {name : String} {described : List (String × WireType)}
    (has : t.HasFields name described) (raw : List UInt8) :
    decode t raw
      = match takeInt? 4 raw with
        | none => .error .malformed
        | some (count, rest) => (decodeFields name described 0 count.toNat rest).map (.record name) := by
  cases has with
  | composite oid =>
    rw [decode]
    split
    all_goals
      rename_i taken
      simp only [taken]
  | record oid =>
    rw [decode, if_pos rfl]
    split
    all_goals
      rename_i taken
      simp only [taken]

theorem decode_fields {t : WireType} {name : String} {described : List (String × WireType)}
    (has : t.HasFields name described) {raw rest : List UInt8} {count : Int}
    (taken : takeInt? 4 raw = some (count, rest)) :
    decode t raw = (decodeFields name described 0 count.toNat rest).map (.record name) := by
  simp only [decode_fields_eq has, taken]

/-- The fields of a value are shorter than the value. -/
theorem fitting_of_recordBytes {fields : List SentField} (fits : Fitting (some (recordBytes fields))) :
    fields.length < 2 ^ 31 ∧ ∀ f ∈ fields, Fitting f.cell := by
  have whole : (recordBytes fields).length < 2 ^ 31 := fits _ rfl
  rw [recordBytes, List.length_append, length_bytesOfNat] at whole
  constructor
  · have sized : ∀ f ∈ fields, 8 ≤ f.bytes.length := by
      intro f _
      have := four_le_length_sized f.cell
      rw [SentField.bytes, List.length_append, length_bytesOfNat]
      omega
    have := mul_length_le_flatMap sized
    omega
  · intro f mem raw held
    have inside := length_le_sized held
    have part : f.bytes.length ≤ _ := length_le_flatMap mem
    rw [SentField.bytes, List.length_append] at part
    show raw.length < 2 ^ 31
    omega

/-- The fields of a value are read back under the names that are known for them. -/
theorem decode_recordBytes {t : WireType} {name : String} {described : List (String × WireType)}
    (has : t.HasFields name described) {fields : List SentField} {nameOf : SentField → String}
    (fits : Fitting (some (recordBytes fields)))
    (known : ∀ i f, fields[i]? = some f →
      fieldAt name described i f.oid.toNat = .ok (nameOf f, f.type))
    (each : ∀ f ∈ fields, Fitting f.cell → decodeCell f.type f.cell = .ok f.value) :
    decodeCell t (some (recordBytes fields))
      = .ok (.record name (fields.map fun f => (nameOf f, f.value))) := by
  obtain ⟨count, inside⟩ := fitting_of_recordBytes fits
  have known' : ∀ i f, fields[i]? = some f →
      fieldAt name described (0 + i) f.oid.toNat = .ok (nameOf f, f.type) := by
    simpa using known
  have read := decodeFields_flatMap inside known' fun f mem => each f mem (inside f mem)
  have taken : takeInt? 4 (recordBytes fields) = some ((fields.length : Int), _) := takeInt?_count count
  show decode t (recordBytes fields) = _
  rw [decode_fields has taken, Int.toNat_natCast, read]
  rfl

/-- The lengths and the elements of an array are not larger than the array. -/
theorem fitting_of_headerBytes {hasNull : Bool} {elementOid : UInt32} {dimensions : List Dimension}
    {v : Value} {items : List (Value × Option (List UInt8))}
    (positive : ∀ n ∈ dimensions.map (·.length), 1 ≤ n)
    (laid : Laid (dimensions.map (·.length)) v (items.map (·.1)))
    (fits : Fitting (some (headerBytes hasNull elementOid dimensions
      ++ items.flatMap fun item => sized item.2))) :
    dimensions.length < 2 ^ 31 ∧ (∀ d ∈ dimensions, d.length < 2 ^ 31)
      ∧ (items.map (·.1)).length < countLimit ∧ ∀ item ∈ items, Fitting item.2 := by
  have whole : (_ ++ items.flatMap fun item => sized item.2).length < 2 ^ 31 := fits _ rfl
  rw [List.length_append, length_headerBytes] at whole
  have count : items.length < 2 ^ 31 := by
    have : 4 * items.length ≤ (items.flatMap fun item => sized item.2).length :=
      mul_length_le_flatMap fun item _ => four_le_length_sized item.2
    omega
  have total := length_of_laid laid
  rw [List.length_map] at total ⊢
  refine ⟨by omega, ?_, Nat.lt_trans count (by decide), ?_⟩
  · intro d mem
    have := le_foldl_of_mem positive (List.mem_map_of_mem mem) 1 (Nat.le_refl 1)
    omega
  · intro item mem raw held
    have inside := length_le_sized held
    have part : (sized item.2).length ≤ (items.flatMap fun item => sized item.2).length :=
      length_le_flatMap (f := fun item : Value × Option (List UInt8) => sized item.2) mem
    show raw.length < 2 ^ 31
    omega

/-- The elements of an array are read back and regrouped. -/
theorem decode_headerBytes {name : String} {oid : Nat} {element : WireType} {hasNull : Bool}
    {elementOid : UInt32} {dimensions : List Dimension} {v : Value}
    {items : List (Value × Option (List UInt8))} (nonempty : dimensions ≠ [])
    (positive : ∀ d ∈ dimensions, 1 ≤ d.length)
    (laid : Laid (dimensions.map (·.length)) v (items.map (·.1)))
    (fits : Fitting (some (headerBytes hasNull elementOid dimensions
      ++ items.flatMap fun item => sized item.2)))
    (each : ∀ item ∈ items, Fitting item.2 → decodeCell element item.2 = .ok item.1) :
    decodeCell (.array name oid element) (some (headerBytes hasNull elementOid dimensions
      ++ items.flatMap fun item => sized item.2)) = .ok v := by
  have positive' : ∀ n ∈ dimensions.map (·.length), 1 ≤ n := by simpa using positive
  have nonempty' : dimensions.map (·.length) ≠ [] := by simpa using nonempty
  obtain ⟨count, small, bound, inside⟩ := fitting_of_headerBytes positive' laid fits
  have taken : takeArrayHeader? (headerBytes hasNull elementOid dimensions
      ++ items.flatMap fun item => sized item.2) = _ := takeArrayHeader?_headerBytes count small
  have counted := total?_of_laid laid nonempty' positive' bound
  rw [List.length_map] at counted
  have read := decodeItems_flatMap inside fun item mem => each item mem (inside item mem)
  show decode (.array name oid element) _ = .ok v
  rw [decode_array taken counted, read]
  exact congrArg Except.ok (shape_of_laid laid nonempty')

/-- **Cells are read back.** Whatever value of whatever type the server sends, the decoder returns it:
labels of enumerations as text, what a domain is built upon, arrays nested as deep as they have dimensions
and of just their lengths, fields in order under their declared names or, in anonymous records, without.
Parts of a cell are shorter than the cell, so it is enough that its own length has room. -/
theorem decodeCell_of_sent {t : WireType} {v : Value} {cell : Option (List UInt8)}
    (sent : Sent t v cell) (fits : Fitting cell) : decodeCell t cell = .ok v := by
  induction sent with
  | null t => rfl
  | @base name oid form v raw written =>
    show decode (.base name oid form) raw = .ok v
    have plain : form ≠ .record := by
      rintro rfl
      cases written
    rw [decode, if_neg plain]
    exact BaseForm.read_of_writes written name
  | enumeration name oid label =>
    show decode (.enumeration name oid) (utf8Encode label) = _
    rw [decode, readText_utf8Encode]
    rfl
  | @domain name oid inner v raw within ih =>
    show decode (.domain name oid inner) raw = .ok v
    rw [decode]
    exact ih fits
  | emptyArray name oid element hasNull elementOid =>
    have taken : takeArrayHeader? (headerBytes hasNull elementOid [] ++ []) = _ :=
      takeArrayHeader?_headerBytes (by decide) fun _ mem => absurd mem List.not_mem_nil
    rw [List.append_nil] at taken
    show decode (.array name oid element) (headerBytes hasNull elementOid []) = _
    rw [decode_array taken rfl, decodeItems]
    rfl
  | array name oid hasNull elementOid nonempty positive laid each ih =>
    exact decode_headerBytes nonempty positive laid fits ih
  | composite name oid fields each ih =>
    refine decode_recordBytes (.composite name oid _) fits ?_ ih
    intro i f there
    simp [fieldAt, there]
  | record name oid fields builtIn each ih =>
    refine decode_recordBytes (.record name oid) fits ?_ ih
    intro i f there
    simp [fieldAt, builtIn f (List.mem_of_getElem? there)]

/-- Arrays of numbers. -/
def numbers : WireType := .array "_int4" 1007 (.base "int4" 23 .int4)

/-- A composite type over a domain, an enumeration and anonymous records. -/
def cardType : WireType :=
  .composite "card" 16400
    [("title", .domain "title" 16401 .text), ("state", .enumeration "state" 16402),
      ("marks", .base "record" 2249 .record)]

/-- A card without a state, whose marks are a record in a record with an array of two dimensions. -/
def card : Value :=
  .record "card"
    [("title", .text "Ubik"), ("state", .null),
      ("marks", .record "record" [("", .record "record"
        [("", .array [.array [.int32 1, .null], .array [.int32 3, .int32 4]]), ("", .null)])])]

/-- The elements of the array with their cells. -/
def markItems : List (Value × Option (List UInt8)) :=
  [(.int32 1, some (bytesOfInt 4 1)), (.null, none), (.int32 3, some (bytesOfInt 4 3)),
    (.int32 4, some (bytesOfInt 4 4))]

/-- The array. -/
def marksCell : List UInt8 :=
  headerBytes true 23 [⟨2, 1⟩, ⟨2, 1⟩] ++ markItems.flatMap fun item => sized item.2

/-- The fields of the inner record. -/
def innerFields : List SentField :=
  [⟨"", .array "_int4" 1007 (.base "int4" 23 .int4), 1007,
      .array [.array [.int32 1, .null], .array [.int32 3, .int32 4]], some marksCell⟩,
    ⟨"", .text, 25, .null, none⟩]

/-- The field of the outer record. -/
def outerFields : List SentField :=
  [⟨"", .base "record" 2249 .record, 2249, .record "record" (innerFields.map fun f => ("", f.value)),
      some (recordBytes innerFields)⟩]

/-- The fields of the card. -/
def cardFields : List SentField :=
  [⟨"title", .domain "title" 16401 .text, 16401, .text "Ubik", some (utf8Encode "Ubik")⟩,
    ⟨"state", .enumeration "state" 16402, 16402, .null, none⟩,
    ⟨"marks", .base "record" 2249 .record, 2249,
      .record "record" (outerFields.map fun f => ("", f.value)), some (recordBytes outerFields)⟩]

/-- The rows of the array come one after the other. -/
theorem laid_marks : Laid [2, 2] (.array [.array [.int32 1, .null], .array [.int32 3, .int32 4]])
    [.int32 1, .null, .int32 3, .int32 4] := by
  refine .array [(.array [.int32 1, .null], [.int32 1, .null]),
    (.array [.int32 3, .int32 4], [.int32 3, .int32 4])] ?_
  rw [List.forall_mem_cons, List.forall_mem_singleton]
  exact ⟨.row [.int32 1, .null], .row [.int32 3, .int32 4]⟩

theorem sent_marks : Sent (.array "_int4" 1007 (.base "int4" 23 .int4))
    (.array [.array [.int32 1, .null], .array [.int32 3, .int32 4]]) (some marksCell) := by
  refine .array "_int4" 1007 true 23 nofun (by decide) laid_marks ?_
  simp only [markItems, List.forall_mem_cons]
  exact ⟨.base (.int4 1), .null _, .base (.int4 3), .base (.int4 4), nofun⟩

theorem sent_inner : Sent (.base "record" 2249 .record)
    (.record "record" (innerFields.map fun f => ("", f.value))) (some (recordBytes innerFields)) := by
  refine .record "record" 2249 innerFields ?_ ?_
  all_goals simp only [innerFields, List.forall_mem_cons]
  · exact ⟨rfl, rfl, nofun⟩
  · exact ⟨sent_marks, .null _, nofun⟩

theorem sent_outer : Sent (.base "record" 2249 .record)
    (.record "record" (outerFields.map fun f => ("", f.value))) (some (recordBytes outerFields)) := by
  refine .record "record" 2249 outerFields ?_ ?_
  all_goals simp only [outerFields, List.forall_mem_singleton]
  · rfl
  · exact sent_inner

/-- The card is read back from its bytes. -/
theorem decodeCell_of_sent_card : decodeCell cardType (some (recordBytes cardFields)) = .ok card := by
  refine decodeCell_of_sent (.composite "card" 16400 cardFields ?_) ?_
  · simp only [cardFields, List.forall_mem_cons]
    exact ⟨.domain "title" 16401 (.base (.text "Ubik")), .null _, sent_outer, nofun⟩
  · rintro _ ⟨rfl⟩
    decide +kernel

end TypedStore.Wire
