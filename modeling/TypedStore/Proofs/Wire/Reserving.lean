/-
Bytes that keep their word. Reading is safe if it ends in no fault, the lengths of arrays can be multiplied
and no more entries are made room for than there are bytes. Counts are not compared with the bytes behind
them before they are used, so this is not so for all bytes (`decode_unsafe`), but it can be told cell by
cell (`decode_safe_iff`): a fault is that of a cell which was reached, and a cell that is read keeps its
word, unless a dimension of an array is empty.
-/
import TypedStore.Proofs.Wire.Demands

set_option autoImplicit false

namespace TypedStore.Wire

variable {d : Demand}

/-! ## 1. Failures of cells that are reached -/

theorem BegunItem.failed {element : WireType} {count : Nat} {raw bytes : List UInt8} {e : CodecError}
    (h : BegunItem element count raw bytes) (failed : decode element bytes = .error e) :
    decodeItems element count raw = .error e := by
  induction h with
  | first taken =>
    rw [decodeItems_succ, taken]
    show (decode element _).bind _ = _
    rw [failed]
    rfl
  | later taken read _ ih =>
    rw [decodeItems_succ, taken]
    show (decodeCell element _).bind _ = _
    rw [read]
    show (decodeItems element _ _).map _ = _
    rw [ih failed]
    rfl

theorem BegunField.failed {typeName : String} {described : List (String × WireType)}
    {position count : Nat} {raw bytes : List UInt8} {t : WireType} {e : CodecError}
    (h : BegunField typeName described position count raw t bytes) (failed : decode t bytes = .error e) :
    decodeFields typeName described position count raw = .error e := by
  induction h with
  | first taken known =>
    rw [decodeFields_succ, taken]
    show (fieldAt typeName described _ _).bind _ = _
    rw [known]
    show (decode _ _).bind _ = _
    rw [failed]
    rfl
  | later taken known read _ ih =>
    rw [decodeFields_succ, taken]
    show (fieldAt typeName described _ _).bind _ = _
    rw [known]
    show (decodeCell _ _).bind _ = _
    rw [read]
    show (decodeFields typeName described _ _ _).map _ = _
    rw [ih failed]
    rfl

/-- The failure of a part that is begun is that of the whole. -/
theorem Begun.failed {t inner : WireType} {raw bytes : List UInt8} {e : CodecError}
    (h : Begun t raw inner bytes) (failed : decode inner bytes = .error e) :
    decode t raw = .error e := by
  cases h with
  | inner =>
    rw [decode]
    exact failed
  | element taken counted begun =>
    rw [decode_array taken counted, begun.failed failed]
    rfl
  | field has taken begun =>
    rw [decode_fields has taken, begun.failed failed]
    rfl

theorem Reached.failed {t inner : WireType} {raw part : List UInt8} {e : CodecError}
    (h : Reached t raw inner part) (failed : decode inner part = .error e) :
    decode t raw = .error e := by
  induction h with
  | self => exact failed
  | part _ begun ih => exact ih (begun.failed failed)

/-- Where bytes are read, all cells in them that reading comes to are. -/
theorem Reached.decoded {t inner : WireType} {raw part : List UInt8} {v : Value}
    (h : Reached t raw inner part) (decoded : decode t raw = .ok v) : ∃ w, decode inner part = .ok w := by
  cases read : decode inner part with
  | ok w => exact ⟨w, rfl⟩
  | error e =>
    rw [h.failed read] at decoded
    cases decoded

theorem Reached.length_le {t inner : WireType} {raw part : List UInt8} (h : Reached t raw inner part) :
    part.length ≤ raw.length := by
  induction h with
  | self => exact Nat.le_refl _
  | part _ begun ih =>
    have := begun.smaller
    omega

/-! ## 2. Faults -/

/-- Answers that are no faults. -/
def Faultless {α : Type} (x : Except CodecError α) : Prop := ∀ e, x = .error e → e.isFault = false

section

variable {α β : Type} {x : Except CodecError α}

theorem faultless_ok (a : α) : Faultless (.ok a : Except CodecError α) := nofun

theorem faultless_error {e : CodecError} (h : e.isFault = false) :
    Faultless (.error e : Except CodecError α) := by
  rintro _ ⟨rfl⟩
  exact h

theorem Faultless.bind {f : α → Except CodecError β} (first : Faultless x)
    (second : ∀ a, Faultless (f a)) : Faultless (x >>= f) := fun e failed =>
  (bind_eq_error failed).elim (first e) fun ⟨a, _, failed⟩ => second a e failed

theorem Faultless.map {f : α → β} (h : Faultless x) : Faultless (x.map f) := by
  cases x with
  | ok a => exact faultless_ok _
  | error e => exact faultless_error (h e rfl)

theorem faultless_orMalformed (a? : Option α) : Faultless (orMalformed a?) := by
  cases a? with
  | none => exact faultless_error rfl
  | some a => exact faultless_ok a

end

theorem faultless_exactNat (width : Nat) (raw : List UInt8) : Faultless (exactNat width raw) := by
  unfold exactNat
  split
  · exact faultless_ok _
  · exact faultless_error rfl

theorem faultless_exactInt (width : Nat) (raw : List UInt8) : Faultless (exactInt width raw) :=
  (faultless_exactNat width raw).map

theorem faultless_readDocument (raw : List UInt8) : Faultless (readDocument raw) :=
  (faultless_orMalformed _).bind fun _ => (faultless_orMalformed _).bind fun _ => faultless_ok _

theorem BaseForm.faultless_read (form : BaseForm) (typeName : String) (raw : List UInt8) :
    Faultless (form.read typeName raw) := by
  cases form with
  | bool | unsigned4 | float4 | float8 | uuid => exact (faultless_exactNat _ raw).map
  | byte | int2 | int4 | int8 | time => exact (faultless_exactInt _ raw).map
  | numeric | text => exact (faultless_orMalformed _).map
  | bytes => exact faultless_ok _
  | date | timestamp | zoned =>
    exact (faultless_exactInt _ raw).bind fun _ => (faultless_orMalformed _).bind fun _ => faultless_ok _
  | json => exact faultless_readDocument raw
  | jsonb =>
    cases raw with
    | nil => exact faultless_error (e := .malformed) rfl
    | cons version rest =>
      show Faultless (if version = documentVersion then readDocument rest else .error .malformed)
      split
      · exact faultless_readDocument rest
      · exact faultless_error rfl
  | record | unreadable => exact faultless_error (e := .unsupported typeName) rfl

theorem faultless_takeCell (raw : List UInt8) : Faultless (takeCell raw) := by
  unfold takeCell
  split
  · exact faultless_error rfl
  · split
    · exact faultless_ok _
    · split
      · exact faultless_ok _
      · exact faultless_error rfl

theorem faultless_takeField (raw : List UInt8) : Faultless (takeField raw) := by
  unfold takeField
  split
  · exact faultless_error rfl
  · split
    · rename_i failed
      exact faultless_error (faultless_takeCell _ _ failed)
    · exact faultless_ok _

theorem faultless_fieldAt (typeName : String) (described : List (String × WireType))
    (position oid : Nat) : Faultless (fieldAt typeName described position oid) := by
  unfold fieldAt
  split
  · exact faultless_ok _
  · split
    · exact faultless_ok _
    · exact faultless_error rfl

/-- A fault among elements is one of an element that is begun. The induction is on the elements. -/
theorem exists_begunItem_of_fault {element : WireType} {count : Nat} {raw : List UInt8} {e : CodecError}
    (failed : decodeItems element count raw = .error e) (fault : e.isFault = true) :
    ∃ bytes, BegunItem element count raw bytes ∧ decode element bytes = .error e := by
  induction count generalizing raw with
  | zero =>
    rw [decodeItems] at failed
    cases failed
  | succ count ih =>
    rw [decodeItems_succ] at failed
    rcases bind_eq_error failed with taken | ⟨⟨cell, rest⟩, taken, failed⟩
    · rw [faultless_takeCell raw e taken] at fault
      cases fault
    · rcases bind_eq_error failed with first | ⟨v, read, failed⟩
      · cases cell with
        | none => cases first
        | some bytes => exact ⟨bytes, .first taken, first⟩
      · obtain ⟨bytes, begun, there⟩ := ih (map_eq_error failed)
        exact ⟨bytes, .later taken read begun, there⟩

/-- A fault among fields is one of a field that is begun. The induction is on the fields. -/
theorem exists_begunField_of_fault {typeName : String} {described : List (String × WireType)}
    {position count : Nat} {raw : List UInt8} {e : CodecError}
    (failed : decodeFields typeName described position count raw = .error e)
    (fault : e.isFault = true) :
    ∃ t bytes, BegunField typeName described position count raw t bytes
      ∧ decode t bytes = .error e := by
  induction count generalizing position raw with
  | zero =>
    rw [decodeFields] at failed
    cases failed
  | succ count ih =>
    rw [decodeFields_succ] at failed
    rcases bind_eq_error failed with taken | ⟨⟨oid, cell, rest⟩, taken, failed⟩
    · rw [faultless_takeField raw e taken] at fault
      cases fault
    · rcases bind_eq_error failed with unknown | ⟨⟨label, t⟩, known, failed⟩
      · rw [faultless_fieldAt _ _ _ _ e unknown] at fault
        cases fault
      · rcases bind_eq_error failed with first | ⟨v, read, failed⟩
        · cases cell with
          | none => cases first
          | some bytes => exact ⟨t, bytes, .first taken known, first⟩
        · obtain ⟨t', bytes, begun, there⟩ := ih (map_eq_error failed)
          exact ⟨t', bytes, .later taken known read begun, there⟩

/-- An array whose elements cannot be counted. -/
def Uncounted (t : WireType) (raw : List UInt8) : Prop :=
  ∃ name oid element header rest, t = .array name oid element
    ∧ takeArrayHeader? raw = some (header, rest) ∧ header.total? = none

theorem Uncounted.decode_eq {t : WireType} {raw : List UInt8} (h : Uncounted t raw) :
    decode t raw = .error .uncountable := by
  obtain ⟨name, oid, element, header, rest, rfl, taken, uncounted⟩ := h
  simp only [decode_array_eq, taken, uncounted]

/-- A value faults where it is an array that cannot be counted, or a part of it faults. -/
theorem uncounted_or_begun_of_fault {t : WireType} {raw : List UInt8} {e : CodecError}
    (failed : decode t raw = .error e) (fault : e.isFault = true) :
    Uncounted t raw ∨ ∃ inner bytes, Begun t raw inner bytes ∧ decode inner bytes = .error e := by
  have fields : ∀ {name : String} {described : List (String × WireType)}, t.HasFields name described →
      ∃ inner bytes, Begun t raw inner bytes ∧ decode inner bytes = .error e := by
    intro name described has
    rcases taken : takeInt? 4 raw with _ | ⟨count, rest⟩
    · simp only [decode_fields_eq has, taken] at failed
      cases failed
      cases fault
    · rw [decode_fields has taken] at failed
      obtain ⟨inner, bytes, begun, there⟩ := exists_begunField_of_fault (map_eq_error failed) fault
      exact ⟨inner, bytes, .field has taken begun, there⟩
  match t with
  | .base name oid form =>
    by_cases isRecord : form = .record
    · subst isRecord
      exact .inr (fields (.record name oid))
    · rw [decode, if_neg isRecord] at failed
      rw [form.faultless_read name raw e failed] at fault
      cases fault
  | .enumeration name oid =>
    rw [decode] at failed
    rw [faultless_orMalformed _ e (map_eq_error failed)] at fault
    cases fault
  | .array name oid element =>
    rcases taken : takeArrayHeader? raw with _ | ⟨header, rest⟩
    · simp only [decode_array_eq, taken] at failed
      cases failed
      cases fault
    · rcases counted : header.total? with _ | total
      · exact .inl ⟨name, oid, element, header, rest, rfl, taken, counted⟩
      · rw [decode_array taken counted] at failed
        obtain ⟨bytes, begun, there⟩ := exists_begunItem_of_fault (map_eq_error failed) fault
        exact .inr ⟨element, bytes, .element taken counted begun, there⟩
  | .domain name oid inner =>
    rw [decode] at failed
    exact .inr ⟨inner, raw, .inner name oid inner raw, failed⟩
  | .composite name oid described => exact .inr (fields (.composite name oid described))

/-- A fault is that of a cell which is reached. -/
theorem exists_uncounted_of_fault {t : WireType} {raw : List UInt8} {e : CodecError}
    (failed : decode t raw = .error e) (fault : e.isFault = true) :
    ∃ inner part, Reached t raw inner part ∧ Uncounted inner part := by
  rcases uncounted_or_begun_of_fault failed fault with here | ⟨middle, bytes, begun, there⟩
  · exact ⟨t, raw, .self, here⟩
  · have := begun.smaller
    obtain ⟨inner, part, reached, uncounted⟩ := exists_uncounted_of_fault there fault
    exact ⟨inner, part, .of_begun begun reached, uncounted⟩
termination_by (raw.length, sizeOf t)
decreasing_by
  simp only [Prod.lex_def]
  omega

theorem product_not_mem_dimensionsRoom {lengths : List Nat} {raw : List UInt8} :
    .product lengths ∉ dimensionsRoom raw := by
  unfold dimensionsRoom
  split
  · exact nofun
  · split
    · exact nofun
    · exact nofun

theorem product_not_mem_rowDemands {lengths : List Nat} {header : ArrayHeader} :
    .product lengths ∉ header.rowDemands := by
  intro mem
  unfold ArrayHeader.rowDemands at mem
  split at mem
  · cases mem
  · obtain ⟨_, -, same⟩ := mem_rowsRoom mem
    cases same

/-- The only product that a cell asks for is that of the lengths of an array. -/
theorem product_mem_owed {t : WireType} {raw : List UInt8} {lengths : List Nat}
    (h : .product lengths ∈ owed t raw) :
    ∃ name oid element header rest, t = .array name oid element
      ∧ takeArrayHeader? raw = some (header, rest) ∧ .product lengths ∈ header.demands := by
  unfold owed at h
  split at h
  · rename_i name oid element
    rcases List.mem_append.1 h with h | h
    · exact absurd h product_not_mem_dimensionsRoom
    · rcases taken : takeArrayHeader? raw with _ | ⟨header, rest⟩
      · rw [taken] at h
        cases h
      · rw [taken] at h
        rcases List.mem_append.1 h with h | h
        · exact ⟨name, oid, element, header, rest, rfl, rfl, h⟩
        · split at h
          · exact absurd h product_not_mem_rowDemands
          · cases h
  · obtain ⟨_, -, same⟩ := Option.map_eq_some_iff.1 (Option.mem_toList.1 h)
    cases same
  · obtain ⟨_, -, same⟩ := Option.map_eq_some_iff.1 (Option.mem_toList.1 h)
    cases same
  · cases h

/-- Arrays that cannot be counted are the cells that ask for a product which overflows. -/
theorem uncounted_iff {t : WireType} {raw : List UInt8} (limit : Nat) :
    Uncounted t raw ↔ ∃ lengths, .product lengths ∈ owed t raw ∧ ¬ (Demand.product lengths).Met limit := by
  constructor
  · rintro ⟨name, oid, element, header, rest, rfl, taken, uncounted⟩
    obtain ⟨mem, unmet⟩ := (total?_eq_none_iff limit).1 uncounted
    refine ⟨header.lengths, ?_, unmet⟩
    simp only [owed, taken]
    exact List.mem_append_right _ (List.mem_append_left _ mem)
  · rintro ⟨lengths, asked, unmet⟩
    obtain ⟨name, oid, element, header, rest, rfl, taken, mem⟩ := product_mem_owed asked
    obtain rfl := eq_of_product_mem mem
    exact ⟨name, oid, element, header, rest, rfl, taken, (total?_eq_none_iff limit).2 ⟨mem, unmet⟩⟩

/-! ## 3. Bytes that keep their word -/

/-- Reading is safe: there is no fault, the lengths of all arrays can be multiplied, and no more entries
are made room for than there are bytes. The only fault of `decode` is a product that overflows. Where room is
really made, the work also stops at a demand for more than a machine has: 28 bytes may announce two
dimensions of `2 ^ 30`, so that room is asked for `2 ^ 60` elements, while `decode` goes on without the room
and answers `malformed`. Reading is not safe then either, since the demand is not met. -/
structure Safe (t : WireType) (raw : List UInt8) : Prop where
  faultless : Faultless (decode t raw)
  met : ∀ d ∈ (traced t raw).demands, d.Met raw.length

/-- No dimension of an array is empty. -/
def NoEmptyDimension (t : WireType) (raw : List UInt8) : Prop :=
  ∀ name oid element header rest, t = .array name oid element →
    takeArrayHeader? raw = some (header, rest) → ∀ length ∈ header.lengths, 1 ≤ length

theorem dimensionsRoom_of_taken {raw rest : List UInt8} {header : ArrayHeader}
    (taken : takeArrayHeader? raw = some (header, rest)) :
    dimensionsRoom raw = [.room header.lengths.length] := by
  simp only [takeArrayHeader?, Option.bind_eq_bind, Option.bind_eq_some_iff, Prod.exists] at taken
  obtain ⟨dimensions, r₁, h₁, _, r₂, h₂, _, r₃, h₃, lengths, r₄, h₄, same⟩ := taken
  obtain ⟨rfl, rfl⟩ := Prod.mk.inj (Option.some.inj same)
  have := length_of_takeInt? h₂
  have := length_of_takeNat? h₃
  simp only [dimensionsRoom, h₁, count_of_takeDimensions? h₄]
  exact if_pos (by omega)

theorem count_le_of_decodeItems {element : WireType} {count : Nat} {raw : List UInt8}
    {items : List Value} (decoded : decodeItems element count raw = .ok items) :
    count ≤ raw.length := by
  induction count generalizing raw items with
  | zero => exact Nat.zero_le _
  | succ count ih =>
    rw [decodeItems_succ] at decoded
    obtain ⟨⟨cell, rest⟩, taken, decoded⟩ := bind_eq_ok_iff.1 decoded
    obtain ⟨first, -, decoded⟩ := bind_eq_ok_iff.1 decoded
    obtain ⟨others, behind, -⟩ := map_eq_ok decoded
    have shorter : rest.length < raw.length := (length_of_takeCell taken).1
    have others : count ≤ rest.length := ih behind
    omega

theorem count_le_of_decodeFields {typeName : String} {described : List (String × WireType)}
    {position count : Nat} {raw : List UInt8} {fields : List (String × Value)}
    (decoded : decodeFields typeName described position count raw = .ok fields) :
    count ≤ raw.length := by
  induction count generalizing position raw fields with
  | zero => exact Nat.zero_le _
  | succ count ih =>
    rw [decodeFields_succ] at decoded
    obtain ⟨⟨oid, cell, rest⟩, taken, decoded⟩ := bind_eq_ok_iff.1 decoded
    obtain ⟨known, -, decoded⟩ := bind_eq_ok_iff.1 decoded
    obtain ⟨first, -, decoded⟩ := bind_eq_ok_iff.1 decoded
    obtain ⟨others, behind, -⟩ := map_eq_ok decoded
    have shorter : rest.length < raw.length := (length_of_takeField taken).1
    have others : count ≤ rest.length := ih behind
    omega

/-- What a header asks for is met where its elements can be counted and there is room for them. -/
theorem ArrayHeader.met_of_mem_demands {header : ArrayHeader} {total limit : Nat}
    (counted : header.total? = some total) (enough : total ≤ limit) :
    ∀ d ∈ header.demands, d.Met limit := by
  intro d hd
  have own := hd
  rw [ArrayHeader.demands, counted, List.mem_append] at hd
  rcases hd with product | room
  · cases d with
    | room entries =>
      split at product
      · cases product
      · cases List.mem_singleton.1 product
    | product lengths =>
      obtain rfl := eq_of_product_mem own
      refine Classical.not_not.1 fun unmet => ?_
      rw [(total?_eq_none_iff limit).2 ⟨own, unmet⟩] at counted
      cases counted
  · rw [List.mem_singleton.1 room]
    exact enough

/-- Rows have no more entries than there are elements, unless a dimension is empty. -/
theorem ArrayHeader.met_of_mem_rowDemands {header : ArrayHeader} {total limit : Nat}
    (counted : header.total? = some total) (enough : total ≤ limit)
    (full : ∀ length ∈ header.lengths, 1 ≤ length) : ∀ d ∈ header.rowDemands, d.Met limit := by
  intro d hd
  unfold ArrayHeader.rowDemands at hd
  split at hd
  · cases hd
  · rename_i several
    obtain ⟨length, mem, rfl⟩ := mem_rowsRoom hd
    have filled : ¬ header.lengths.isEmpty = true := by
      intro none
      simp [List.isEmpty_iff.1 none] at several
    rw [ArrayHeader.total?, if_neg filled] at counted
    rw [countedProduct?_eq_some counted] at enough
    exact Nat.le_trans (le_foldl_of_mem full mem 1 (Nat.le_refl 1)) enough

/-- A cell that is read keeps its word, unless a dimension is empty. -/
theorem met_of_decoded {t : WireType} {raw : List UInt8} {v : Value} (decoded : decode t raw = .ok v)
    (full : NoEmptyDimension t raw) : ∀ d ∈ owed t raw, d.Met raw.length := by
  have fields : ∀ {name : String} {described : List (String × WireType)},
      t.HasFields name described → ∀ d ∈ owed t raw, d.Met raw.length := by
    intro name described has d hd
    rw [owed_fields has] at hd
    obtain ⟨⟨count, rest⟩, taken, rfl⟩ := Option.map_eq_some_iff.1 (Option.mem_toList.1 hd)
    rw [decode_fields has taken] at decoded
    obtain ⟨fields, inside, -⟩ := map_eq_ok decoded
    have := length_of_takeInt? taken
    have := count_le_of_decodeFields inside
    show count.toNat ≤ raw.length
    omega
  match t with
  | .base name oid form =>
    by_cases isRecord : form = .record
    · subst isRecord
      exact fields (.record name oid)
    · cases form with
      | record => exact absurd rfl isRecord
      | _ => exact nofun
  | .enumeration name oid => exact nofun
  | .array name oid element =>
    intro d hd
    rcases taken : takeArrayHeader? raw with _ | ⟨header, rest⟩
    · simp only [decode_array_eq, taken] at decoded
      cases decoded
    · rcases counted : header.total? with _ | total
      · simp only [decode_array_eq, taken, counted] at decoded
        cases decoded
      · rw [decode_array taken counted] at decoded
        obtain ⟨items, inside, -⟩ := map_eq_ok decoded
        have whole := length_of_takeArrayHeader? taken
        have enough : total ≤ raw.length := by
          have := count_le_of_decodeItems inside
          omega
        rw [owed_array taken counted inside, dimensionsRoom_of_taken taken, List.mem_append,
          List.mem_append] at hd
        rcases hd with dimensions | own | rows
        · rw [List.mem_singleton.1 dimensions]
          show header.lengths.length ≤ raw.length
          omega
        · exact ArrayHeader.met_of_mem_demands counted enough d own
        · exact ArrayHeader.met_of_mem_rowDemands counted enough
            (full name oid element header rest rfl taken) d rows
  | .domain name oid inner => exact nofun
  | .composite name oid described => exact fields (.composite name oid described)

theorem Demand.Met.mono {few many : Nat} {d : Demand} (h : d.Met few) (le : few ≤ many) :
    d.Met many := by
  cases d with
  | room entries => exact Nat.le_trans h le
  | product lengths => exact h

/-- **When bytes keep their word.** Reading with a record of its demands reads the same. It is safe if and
only if every cell that is reached, at any depth, asks in its own header for no more than the bytes have
room for; it ends in a fault if and only if it comes to lengths whose product overflows; and bytes that are
read, with no empty dimension in any array, are safe. That room cannot be made is not among the faults of the
third part, whatever is asked for; the second part has it, as a demand that is not met. -/
theorem decode_safe_iff (t : WireType) (raw : List UInt8) :
    (traced t raw).result = decode t raw
      ∧ (Safe t raw ↔ ∀ inner part, Reached t raw inner part → ∀ d ∈ owed inner part, d.Met raw.length)
      ∧ ((∃ e, decode t raw = .error e ∧ e.isFault = true)
        ↔ ∃ lengths, .product lengths ∈ (traced t raw).demands
          ∧ ¬ (Demand.product lengths).Met raw.length)
      ∧ ((∃ v, decode t raw = .ok v) →
        (∀ inner part, Reached t raw inner part → NoEmptyDimension inner part) → Safe t raw) := by
  have faults : (∃ e, decode t raw = .error e ∧ e.isFault = true)
      ↔ ∃ lengths, .product lengths ∈ (traced t raw).demands
        ∧ ¬ (Demand.product lengths).Met raw.length := by
    constructor
    · rintro ⟨e, failed, fault⟩
      obtain ⟨inner, part, reached, uncounted⟩ := exists_uncounted_of_fault failed fault
      obtain ⟨lengths, asked, unmet⟩ := (uncounted_iff raw.length).1 uncounted
      exact ⟨lengths, mem_demands_iff.2 ⟨inner, part, reached, asked⟩, unmet⟩
    · rintro ⟨lengths, asked, unmet⟩
      obtain ⟨inner, part, reached, own⟩ := mem_demands_iff.1 asked
      have uncounted := (uncounted_iff raw.length).2 ⟨lengths, own, unmet⟩
      exact ⟨.uncountable, reached.failed uncounted.decode_eq, rfl⟩
  have safe : Safe t raw
      ↔ ∀ inner part, Reached t raw inner part → ∀ d ∈ owed inner part, d.Met raw.length := by
    constructor
    · intro h inner part reached d own
      exact h.met d (mem_demands_iff.2 ⟨inner, part, reached, own⟩)
    · intro each
      have met : ∀ d ∈ (traced t raw).demands, d.Met raw.length := by
        intro d asked
        obtain ⟨inner, part, reached, own⟩ := mem_demands_iff.1 asked
        exact each inner part reached d own
      refine ⟨fun e failed => ?_, met⟩
      cases fault : e.isFault with
      | false => rfl
      | true =>
        obtain ⟨lengths, asked, unmet⟩ := faults.1 ⟨e, failed, fault⟩
        exact absurd (met _ asked) unmet
  refine ⟨traced_result t raw, safe, faults, ?_⟩
  rintro ⟨v, decoded⟩ full
  refine safe.2 fun inner part reached d own => ?_
  obtain ⟨w, read⟩ := reached.decoded decoded
  exact (met_of_decoded read (full inner part reached) d own).mono reached.length_le

/-- Three dimensions, each as long as can be said. -/
def cube : List UInt8 := headerBytes false 23 [⟨2147483647, 1⟩, ⟨2147483647, 1⟩, ⟨2147483647, 1⟩]

/-- As many dimensions as can be said, of which none follows. -/
def boast : List UInt8 := bytesOfNat 4 2147483647 ++ bytesOfNat 4 0 ++ bytesOfNat 4 23

/-- Forty rows of no elements. -/
def hollow : List UInt8 := headerBytes false 23 [⟨40, 1⟩, ⟨0, 1⟩]

/-- Bytes need not keep their word: lengths overflow, which is a fault; twelve bytes ask for room for two
billion dimensions; and forty rows are read from 28 bytes. -/
theorem decode_unsafe :
    (¬ Safe numbers cube ∧ decode numbers cube = .error .uncountable)
      ∧ (¬ Safe numbers boast ∧ boast.length = 12)
      ∧ ¬ Safe numbers hollow ∧ hollow.length = 28
      ∧ decode numbers hollow = .ok (.array (List.replicate 40 (.array []))) := by
  have overflows : decode numbers cube = .error .uncountable := by
    have taken : takeArrayHeader? cube = some (⟨[2147483647, 2147483647, 2147483647]⟩, []) := by
      decide +kernel
    have uncounted : (ArrayHeader.mk [2147483647, 2147483647, 2147483647]).total? = none := by
      decide +kernel
    exact Uncounted.decode_eq ⟨_, _, _, _, _, rfl, taken, uncounted⟩
  have few : boast.length = 12 := by decide +kernel
  have taken : takeArrayHeader? hollow = some (⟨[40, 0]⟩, []) := by decide +kernel
  have counted : (ArrayHeader.mk [40, 0]).total? = some 0 := by decide +kernel
  have none : decodeItems (.base "int4" 23 .int4) 0 [] = .ok [] := by rw [decodeItems]
  have short : hollow.length = 28 := by decide +kernel
  refine ⟨⟨fun safe => ?_, overflows⟩, ⟨fun safe => ?_, few⟩, fun safe => ?_, short, ?_⟩
  · cases safe.faultless _ overflows
  · have asked : .room 2147483647 ∈ (traced numbers boast).demands :=
      mem_demands_iff.2 ⟨_, _, .self, List.mem_append_left _ (by decide +kernel)⟩
    have met : 2147483647 ≤ boast.length := safe.met _ asked
    omega
  · have own : .room 40 ∈ owed numbers hollow := by
      rw [numbers, owed_array taken counted none]
      decide +kernel
    have met : 40 ≤ hollow.length := safe.met _ (mem_demands_iff.2 ⟨_, _, .self, own⟩)
    omega
  · rw [numbers, decode_array taken counted, none]
    rfl

end TypedStore.Wire
