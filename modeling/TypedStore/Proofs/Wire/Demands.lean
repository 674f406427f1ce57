/-
What reading asks for on the word of the bytes. Counts and lengths are used before anything that they count
has been looked at: room is made for the dimensions, elements and fields that are announced, and for the
rows that elements are regrouped in, and lengths are multiplied. Reading with a record of these demands
(`traced`) reads the same values, and every demand is one of a cell that was reached, about its own header
(`mem_demands_iff`).
-/
import TypedStore.Proofs.Wire.Delimiting

set_option autoImplicit false

namespace TypedStore.Wire

/-! ## 1. Demands -/

/-- What a count or a length is used for before the bytes that it is about. -/
inductive Demand where
  /-- Room for as many entries, which may be more than can be made. -/
  | room (entries : Nat)
  /-- The product of lengths. -/
  | product (lengths : List Nat)
deriving DecidableEq

/-- There is no more room than asked for, and lengths can be multiplied one after the other. -/
def Demand.Met (limit : Nat) : Demand → Prop
  | .room entries => entries ≤ limit
  | .product lengths => ∀ front, front <+: lengths → front.foldl (· * ·) 1 < countLimit

/-- The demand of an array for its dimensions, of which the count stands in front of eight other bytes. -/
def dimensionsRoom (raw : List UInt8) : List Demand :=
  match takeInt? 4 raw with
  | none => []
  | some (dimensions, rest) => if 8 ≤ rest.length then [.room dimensions.toNat] else []

/-- The demands of a header: the product of its lengths, unless there are none, and room for the
elements. -/
def ArrayHeader.demands (h : ArrayHeader) : List Demand :=
  (if h.lengths.isEmpty then [] else [.product h.lengths]) ++ h.total?.toList.map .room

/-- Room for arrays in arrays, each with as many entries as its length says. -/
def rowsRoom : List Nat → List Demand
  | [] => []
  | length :: rest => .room length :: (List.replicate length (rowsRoom rest)).flatten

/-- The demands of regrouping elements, where there is more than one dimension. -/
def ArrayHeader.rowDemands (h : ArrayHeader) : List Demand :=
  if h.lengths.length ≤ 1 then [] else rowsRoom h.lengths

theorem mem_rowsRoom {lengths : List Nat} {d : Demand} (h : d ∈ rowsRoom lengths) :
    ∃ length ∈ lengths, d = .room length := by
  induction lengths with
  | nil => cases h
  | cons length rest ih =>
    rcases List.mem_cons.1 h with rfl | h
    · exact ⟨length, List.mem_cons_self, rfl⟩
    · obtain ⟨rooms, mem, hd⟩ := List.mem_flatten.1 h
      rw [List.eq_of_mem_replicate mem] at hd
      obtain ⟨other, there, same⟩ := ih hd
      exact ⟨other, List.mem_cons_of_mem _ there, same⟩

/-- Lengths are counted if each product on the way can be. -/
theorem exists_countedProduct?_iff {product : Nat} {lengths : List Nat} (small : product < countLimit) :
    (∃ total, countedProduct? product lengths = some total)
      ↔ ∀ front, front <+: lengths → front.foldl (· * ·) product < countLimit := by
  induction lengths generalizing product with
  | nil =>
    refine ⟨fun _ front part => ?_, fun _ => ⟨product, rfl⟩⟩
    rw [List.prefix_nil.1 part]
    exact small
  | cons length rest ih =>
    rw [countedProduct?]
    split
    · rename_i next
      rw [ih next]
      constructor
      · intro each front part
        rcases List.prefix_cons_iff.1 part with rfl | ⟨front', rfl, part'⟩
        · exact small
        · exact each front' part'
      · intro each front part
        exact each (length :: front) ((List.prefix_cons_inj length).2 part)
    · rename_i large
      constructor
      · rintro ⟨_, none_eq⟩
        cases none_eq
      · intro each
        exact absurd (each [length] ⟨rest, rfl⟩) large

/-- Elements cannot be counted if and only if the product of the lengths is a demand that cannot be met. -/
theorem total?_eq_none_iff {header : ArrayHeader} (limit : Nat) :
    header.total? = none
      ↔ .product header.lengths ∈ header.demands ∧ ¬ (Demand.product header.lengths).Met limit := by
  obtain ⟨lengths⟩ := header
  have counted : (∃ total, countedProduct? 1 lengths = some total) ↔ _ :=
    exists_countedProduct?_iff (by decide)
  rw [Demand.Met, ← counted]
  cases lengths with
  | nil => simp [ArrayHeader.total?, ArrayHeader.demands]
  | cons length rest =>
    cases product : countedProduct? 1 (length :: rest) <;>
      simp [ArrayHeader.total?, ArrayHeader.demands, product]

/-- Products are asked for in headers only, for their own lengths. -/
theorem eq_of_product_mem {header : ArrayHeader} {lengths : List Nat}
    (h : .product lengths ∈ header.demands) : lengths = header.lengths := by
  rw [ArrayHeader.demands, List.mem_append] at h
  rcases h with h | h
  · split at h
    · cases h
    · exact Demand.product.inj (List.mem_singleton.1 h)
  · obtain ⟨_, -, same⟩ := List.mem_map.1 h
    cases same

/-! ## 2. Reading with a record of demands -/

/-- An answer and the demands on the way to it. -/
structure Traced (α : Type) where
  demands : List Demand
  result : Except CodecError α

namespace Traced

variable {α β : Type}

/-- An answer that asks for nothing. -/
def answer (x : Except CodecError α) : Traced α := ⟨[], x⟩

/-- Demands before others. -/
def after (asked : List Demand) (x : Traced α) : Traced α := ⟨asked ++ x.demands, x.result⟩

/-- An answer from another one. -/
def map (f : α → β) (x : Traced α) : Traced β := ⟨x.demands, x.result.map f⟩

/-- Two steps; there is no second one where the first fails. -/
def bind (x : Traced α) (next : α → Traced β) : Traced β :=
  match x.result with
  | .error e => ⟨x.demands, .error e⟩
  | .ok a => (next a).after x.demands

theorem bind_result (x : Traced α) (next : α → Traced β) :
    (x.bind next).result = x.result.bind fun a => (next a).result := by
  obtain ⟨demands, result⟩ := x
  cases result <;> rfl

theorem map_result (f : α → β) (x : Traced α) : (x.map f).result = x.result.map f := rfl

theorem mem_bind {x : Traced α} {next : α → Traced β} {d : Demand} :
    d ∈ (x.bind next).demands
      ↔ d ∈ x.demands ∨ ∃ a, x.result = .ok a ∧ d ∈ (next a).demands := by
  obtain ⟨demands, result⟩ := x
  cases result <;> simp [bind, after]

end Traced

open Traced

/-- Regroups elements. -/
def ArrayHeader.tracedShape (h : ArrayHeader) (items : List Value) : Traced Value :=
  ⟨h.rowDemands, .ok (h.shape items)⟩

mutual

/-- Reads the bytes of a value. -/
def traced (t : WireType) (raw : List UInt8) : Traced Value :=
  match t with
  | .base name _ form =>
    if form = .record then
      match _taken : takeInt? 4 raw with
      | none => answer (.error .malformed)
      | some (count, rest) =>
        after [.room count.toNat] ((tracedFields name [] 0 count.toNat rest).map (.record name))
    else answer (form.read name raw)
  | .enumeration _ _ => answer ((readText raw).map .text)
  | .array _ _ element =>
    match _taken : takeArrayHeader? raw with
    | none => after (dimensionsRoom raw) (answer (.error .malformed))
    | some (header, rest) =>
      after (dimensionsRoom raw ++ header.demands)
        (match header.total? with
        | none => answer (.error .uncountable)
        | some total => (tracedItems element total rest).bind header.tracedShape)
  | .domain _ _ inner => traced inner raw
  | .composite name _ fields =>
    match _taken : takeInt? 4 raw with
    | none => answer (.error .malformed)
    | some (count, rest) =>
      after [.room count.toNat] ((tracedFields name fields 0 count.toNat rest).map (.record name))
termination_by (raw.length, sizeOf t)
decreasing_by
  · have := length_of_takeInt? _taken
    simp only [Prod.lex_def]
    omega
  · have := length_of_takeArrayHeader? _taken
    simp only [Prod.lex_def]
    omega
  · refine Prod.Lex.right _ ?_
    rw [WireType.domain.sizeOf_spec]
    omega
  · have := length_of_takeInt? _taken
    simp only [Prod.lex_def]
    omega

/-- Reads elements with their lengths in front. -/
def tracedItems (element : WireType) (count : Nat) (raw : List UInt8) : Traced (List Value) :=
  match count with
  | 0 => answer (.ok [])
  | count + 1 =>
    match _taken : takeCell raw with
    | .error e => answer (.error e)
    | .ok (none, rest) => (tracedItems element count rest).map (.null :: ·)
    | .ok (some bytes, rest) =>
      (traced element bytes).bind fun first => (tracedItems element count rest).map (first :: ·)
termination_by (raw.length, 0)
decreasing_by
  · have := (length_of_takeCell _taken).1
    simp only [Prod.lex_def]
    omega
  · have := (length_of_takeCell _taken).2 _ rfl
    simp only [Prod.lex_def]
    omega
  · have := (length_of_takeCell _taken).1
    simp only [Prod.lex_def]
    omega

/-- Reads fields from a position on. -/
def tracedFields (typeName : String) (described : List (String × WireType)) (position count : Nat)
    (raw : List UInt8) : Traced (List (String × Value)) :=
  match count with
  | 0 => answer (.ok [])
  | count + 1 =>
    match _taken : takeField raw with
    | .error e => answer (.error e)
    | .ok (oid, none, rest) =>
      (answer (fieldAt typeName described position oid)).bind fun known =>
      (tracedFields typeName described (position + 1) count rest).map ((known.1, .null) :: ·)
    | .ok (oid, some bytes, rest) =>
      (answer (fieldAt typeName described position oid)).bind fun known =>
      (traced known.2 bytes).bind fun first =>
      (tracedFields typeName described (position + 1) count rest).map ((known.1, first) :: ·)
termination_by (raw.length, 0)
decreasing_by
  · have := (length_of_takeField _taken).1
    simp only [Prod.lex_def]
    omega
  · have := (length_of_takeField _taken).2 _ rfl
    simp only [Prod.lex_def]
    omega
  · have := (length_of_takeField _taken).1
    simp only [Prod.lex_def]
    omega

end

/-- Reads a cell; no bytes are NULL. -/
def tracedCell (t : WireType) : Option (List UInt8) → Traced Value
  | none => answer (.ok .null)
  | some raw => traced t raw

theorem tracedItems_succ (element : WireType) (count : Nat) (raw : List UInt8) :
    tracedItems element (count + 1) raw
      = (answer (takeCell raw)).bind fun taken => (tracedCell element taken.1).bind fun first =>
          (tracedItems element count taken.2).map (first :: ·) := by
  rw [tracedItems]
  split
  all_goals
    rename_i taken
    rw [taken]
    rfl

theorem tracedFields_succ (typeName : String) (described : List (String × WireType))
    (position count : Nat) (raw : List UInt8) :
    tracedFields typeName described position (count + 1) raw
      = (answer (takeField raw)).bind fun taken =>
          (answer (fieldAt typeName described position taken.1)).bind fun known =>
          (tracedCell known.2 taken.2.1).bind fun first =>
          (tracedFields typeName described (position + 1) count taken.2.2).map
            ((known.1, first) :: ·) := by
  rw [tracedFields]
  split
  all_goals
    rename_i taken
    rw [taken]
    rfl

theorem traced_array (name : String) (oid : Nat) (element : WireType) (raw : List UInt8) :
    traced (.array name oid element) raw
      = match takeArrayHeader? raw with
        | none => after (dimensionsRoom raw) (answer (.error .malformed))
        | some (header, rest) =>
          after (dimensionsRoom raw ++ header.demands)
            (match header.total? with
            | none => answer (.error .uncountable)
            | some total => (tracedItems element total rest).bind header.tracedShape) := by
  rw [traced]
  split
  all_goals
    rename_i taken
    rw [taken]

theorem traced_fields {t : WireType} {name : String} {described : List (String × WireType)}
    (has : t.HasFields name described) (raw : List UInt8) :
    traced t raw
      = match takeInt? 4 raw with
        | none => answer (.error .malformed)
        | some (count, rest) =>
          after [.room count.toNat]
            ((tracedFields name described 0 count.toNat rest).map (.record name)) := by
  cases has with
  | composite oid =>
    rw [traced]
    split
    all_goals
      rename_i taken
      rw [taken]
  | record oid =>
    rw [traced, if_pos rfl]
    split
    all_goals
      rename_i taken
      rw [taken]

mutual

/-- Reading with a record reads the same. The recursion is that of reading. -/
theorem traced_result (t : WireType) (raw : List UInt8) : (traced t raw).result = decode t raw := by
  match t with
  | .base name oid form =>
    by_cases fields : form = .record
    · subst fields
      rw [traced_fields (.record name oid), decode_fields_eq (.record name oid)]
      rcases taken : takeInt? 4 raw with _ | ⟨count, rest⟩
      · rfl
      · have := length_of_takeInt? taken
        exact congrArg (Except.map _) (tracedFields_result name [] 0 count.toNat rest)
    · rw [traced, if_neg fields, decode, if_neg fields]
      rfl
  | .enumeration name oid =>
    rw [traced, decode]
    rfl
  | .array name oid element =>
    rw [traced_array, decode_array_eq]
    rcases taken : takeArrayHeader? raw with _ | ⟨header, rest⟩
    · rfl
    · rcases counted : header.total? with _ | total
      · simp only [counted]
        rfl
      · have := length_of_takeArrayHeader? taken
        have items := tracedItems_result element total rest
        simp only [counted]
        show ((tracedItems element total rest).bind header.tracedShape).result = _
        rw [bind_result, items]
        cases decodeItems element total rest <;> rfl
  | .domain name oid inner =>
    rw [traced, decode]
    exact traced_result inner raw
  | .composite name oid fields =>
    rw [traced_fields (.composite name oid fields), decode_fields_eq (.composite name oid fields)]
    rcases taken : takeInt? 4 raw with _ | ⟨count, rest⟩
    · rfl
    · have := length_of_takeInt? taken
      exact congrArg (Except.map _) (tracedFields_result name fields 0 count.toNat rest)
termination_by (raw.length, sizeOf t)
decreasing_by
  · simp only [Prod.lex_def]
    omega
  · simp only [Prod.lex_def]
    omega
  · refine Prod.Lex.right _ ?_
    rw [WireType.domain.sizeOf_spec]
    omega
  · simp only [Prod.lex_def]
    omega

theorem tracedItems_result (element : WireType) (count : Nat) (raw : List UInt8) :
    (tracedItems element count raw).result = decodeItems element count raw := by
  match count with
  | 0 =>
    rw [tracedItems, decodeItems]
    rfl
  | count + 1 =>
    rw [tracedItems_succ, decodeItems_succ]
    rcases taken : takeCell raw with e | ⟨cell, rest⟩
    · rfl
    · obtain ⟨shorter, inside⟩ := length_of_takeCell taken
      have first : (tracedCell element cell).result = decodeCell element cell := by
        cases cell with
        | none => rfl
        | some bytes =>
          have := inside bytes rfl
          exact traced_result element bytes
      have others := tracedItems_result element count rest
      show ((tracedCell element cell).bind _).result = (decodeCell element cell).bind _
      simp only [bind_result, first, map_result, others]
termination_by (raw.length, 0)
decreasing_by
  all_goals simp only [Prod.lex_def]; omega

theorem tracedFields_result (typeName : String) (described : List (String × WireType))
    (position count : Nat) (raw : List UInt8) :
    (tracedFields typeName described position count raw).result
      = decodeFields typeName described position count raw := by
  match count with
  | 0 =>
    rw [tracedFields, decodeFields]
    rfl
  | count + 1 =>
    rw [tracedFields_succ, decodeFields_succ]
    rcases taken : takeField raw with e | ⟨oid, cell, rest⟩
    · rfl
    · obtain ⟨shorter, inside⟩ := length_of_takeField taken
      show ((answer (fieldAt typeName described position oid)).bind _).result
        = (fieldAt typeName described position oid).bind _
      rw [bind_result]
      rcases fieldAt typeName described position oid with e | known
      · rfl
      · have first : (tracedCell known.2 cell).result = decodeCell known.2 cell := by
          cases cell with
          | none => rfl
          | some bytes =>
            have := inside bytes rfl
            exact traced_result known.2 bytes
        have others := tracedFields_result typeName described (position + 1) count rest
        show ((tracedCell known.2 cell).bind _).result = (decodeCell known.2 cell).bind _
        simp only [bind_result, first, map_result, others]
termination_by (raw.length, 0)
decreasing_by
  all_goals simp only [Prod.lex_def]; omega

end

theorem tracedCell_result (t : WireType) (cell : Option (List UInt8)) :
    (tracedCell t cell).result = decodeCell t cell := by
  cases cell with
  | none => rfl
  | some raw => exact traced_result t raw

/-! ## 3. Cells that are reached -/

/-- Elements that are begun: all before them have been read. -/
inductive BegunItem (element : WireType) : Nat → List UInt8 → List UInt8 → Prop where
  | first {count : Nat} {raw rest bytes : List UInt8} (taken : takeCell raw = .ok (some bytes, rest)) :
    BegunItem element (count + 1) raw bytes
  | later {count : Nat} {raw rest bytes : List UInt8} {cell : Option (List UInt8)} {v : Value}
      (taken : takeCell raw = .ok (cell, rest)) (read : decodeCell element cell = .ok v)
      (behind : BegunItem element count rest bytes) : BegunItem element (count + 1) raw bytes

/-- Fields that are begun, with their types: all before them have been read. -/
inductive BegunField (typeName : String) (described : List (String × WireType)) :
    Nat → Nat → List UInt8 → WireType → List UInt8 → Prop where
  | first {position count oid : Nat} {raw rest bytes : List UInt8} {label : String} {t : WireType}
      (taken : takeField raw = .ok (oid, some bytes, rest))
      (known : fieldAt typeName described position oid = .ok (label, t)) :
    BegunField typeName described position (count + 1) raw t bytes
  | later {position count oid : Nat} {raw rest bytes : List UInt8} {cell : Option (List UInt8)}
      {label : String} {t other : WireType} {v : Value} (taken : takeField raw = .ok (oid, cell, rest))
      (known : fieldAt typeName described position oid = .ok (label, other))
      (read : decodeCell other cell = .ok v)
      (behind : BegunField typeName described (position + 1) count rest t bytes) :
    BegunField typeName described position (count + 1) raw t bytes

/-- Bytes of a type and those of a part of them that is begun. -/
inductive Begun : WireType → List UInt8 → WireType → List UInt8 → Prop where
  | inner (name : String) (oid : Nat) (t : WireType) (raw : List UInt8) :
    Begun (.domain name oid t) raw t raw
  | element {name : String} {oid total : Nat} {element : WireType} {raw rest bytes : List UInt8}
      {header : ArrayHeader} (taken : takeArrayHeader? raw = some (header, rest))
      (counted : header.total? = some total) (begun : BegunItem element total rest bytes) :
    Begun (.array name oid element) raw element bytes
  | field {outer t : WireType} {name : String} {described : List (String × WireType)}
      {raw rest bytes : List UInt8} {count : Int} (has : outer.HasFields name described)
      (taken : takeInt? 4 raw = some (count, rest))
      (begun : BegunField name described 0 count.toNat rest t bytes) : Begun outer raw t bytes

/-- Bytes of a type and those of a cell in them, at any depth, that reading comes to. -/
inductive Reached (t : WireType) (raw : List UInt8) : WireType → List UInt8 → Prop where
  | self : Reached t raw t raw
  | part {outer inner : WireType} {whole bytes : List UInt8} (reached : Reached t raw outer whole)
      (begun : Begun outer whole inner bytes) : Reached t raw inner bytes

/-- The demands of a cell, for what stands in its own header. Elements are regrouped when all of them have
been read. -/
def owed (t : WireType) (raw : List UInt8) : List Demand :=
  match t with
  | .array _ _ element =>
    dimensionsRoom raw ++
      match takeArrayHeader? raw with
      | none => []
      | some (header, rest) =>
        header.demands ++
          match header.total?.map fun total => decodeItems element total rest with
          | some (.ok _) => header.rowDemands
          | _ => []
  | .composite _ _ _ | .base _ _ .record => ((takeInt? 4 raw).map fun taken => .room taken.1.toNat).toList
  | _ => []

theorem owed_fields {t : WireType} {name : String} {described : List (String × WireType)}
    (has : t.HasFields name described) (raw : List UInt8) :
    owed t raw = ((takeInt? 4 raw).map fun taken => .room taken.1.toNat).toList := by
  cases has <;> rfl

/-- An array whose elements have been read. -/
theorem owed_array {name : String} {oid total : Nat} {element : WireType} {raw rest : List UInt8}
    {header : ArrayHeader} {items : List Value} (taken : takeArrayHeader? raw = some (header, rest))
    (counted : header.total? = some total) (read : decodeItems element total rest = .ok items) :
    owed (.array name oid element) raw = dimensionsRoom raw ++ (header.demands ++ header.rowDemands) := by
  simp only [owed, taken, counted, Option.map_some, read]

variable {d : Demand}

theorem mem_tracedItems {element : WireType} {count : Nat} {raw : List UInt8} :
    d ∈ (tracedItems element count raw).demands
      ↔ ∃ bytes, BegunItem element count raw bytes ∧ d ∈ (traced element bytes).demands := by
  induction count generalizing raw with
  | zero =>
    rw [tracedItems]
    exact ⟨nofun, nofun⟩
  | succ count ih =>
    rw [tracedItems_succ, mem_bind]
    constructor
    · rintro (none | ⟨⟨cell, rest⟩, taken, here⟩)
      · cases none
      · rcases mem_bind.1 here with first | ⟨v, read, behind⟩
        · cases cell with
          | none => cases first
          | some bytes => exact ⟨bytes, .first taken, first⟩
        · rw [tracedCell_result] at read
          obtain ⟨bytes, begun, asked⟩ := ih.1 behind
          exact ⟨bytes, .later taken read begun, asked⟩
    · rintro ⟨bytes, begun, asked⟩
      cases begun with
      | first taken => exact .inr ⟨_, taken, mem_bind.2 (.inl asked)⟩
      | later taken read behind =>
        have again := (tracedCell_result _ _).trans read
        exact .inr ⟨_, taken, mem_bind.2 (.inr ⟨_, again, ih.2 ⟨bytes, behind, asked⟩⟩)⟩

theorem mem_tracedFields {typeName : String} {described : List (String × WireType)}
    {position count : Nat} {raw : List UInt8} :
    d ∈ (tracedFields typeName described position count raw).demands
      ↔ ∃ t bytes, BegunField typeName described position count raw t bytes
        ∧ d ∈ (traced t bytes).demands := by
  induction count generalizing position raw with
  | zero =>
    rw [tracedFields]
    exact ⟨nofun, nofun⟩
  | succ count ih =>
    rw [tracedFields_succ, mem_bind]
    constructor
    · rintro (none | ⟨⟨oid, cell, rest⟩, taken, here⟩)
      · cases none
      · rcases mem_bind.1 here with none | ⟨⟨label, t⟩, known, here⟩
        · cases none
        · rcases mem_bind.1 here with first | ⟨v, read, behind⟩
          · cases cell with
            | none => cases first
            | some bytes => exact ⟨t, bytes, .first taken known, first⟩
          · rw [tracedCell_result] at read
            obtain ⟨t', bytes, begun, asked⟩ := ih.1 behind
            exact ⟨t', bytes, .later taken known read begun, asked⟩
    · rintro ⟨t, bytes, begun, asked⟩
      cases begun with
      | first taken known =>
        exact .inr ⟨_, taken, mem_bind.2 (.inr ⟨_, known, mem_bind.2 (.inl asked)⟩)⟩
      | later taken known read behind =>
        have again := (tracedCell_result _ _).trans read
        refine .inr ⟨_, taken, mem_bind.2 (.inr ⟨_, known, mem_bind.2 (.inr ⟨_, again, ?_⟩)⟩)⟩
        exact ih.2 ⟨t, bytes, behind, asked⟩

theorem BegunItem.length_lt {element : WireType} {count : Nat} {raw bytes : List UInt8}
    (h : BegunItem element count raw bytes) : bytes.length < raw.length := by
  induction h with
  | first taken => exact (length_of_takeCell taken).2 _ rfl
  | later taken _ _ ih => exact Nat.lt_trans ih (length_of_takeCell taken).1

theorem BegunField.length_lt {typeName : String} {described : List (String × WireType)}
    {position count : Nat} {raw bytes : List UInt8} {t : WireType}
    (h : BegunField typeName described position count raw t bytes) : bytes.length < raw.length := by
  induction h with
  | first taken => exact (length_of_takeField taken).2 _ rfl
  | later taken _ _ _ ih => exact Nat.lt_trans ih (length_of_takeField taken).1

/-- A part is shorter, or as long and of the type that a domain is built upon. -/
theorem Begun.smaller {t inner : WireType} {raw bytes : List UInt8} (h : Begun t raw inner bytes) :
    bytes.length < raw.length ∨ bytes.length = raw.length ∧ sizeOf inner < sizeOf t := by
  cases h with
  | inner name oid t raw =>
    refine .inr ⟨rfl, ?_⟩
    rw [WireType.domain.sizeOf_spec]
    omega
  | element taken _ begun =>
    have := length_of_takeArrayHeader? taken
    have := begun.length_lt
    exact .inl (by omega)
  | field _ taken begun =>
    have := length_of_takeInt? taken
    have := begun.length_lt
    exact .inl (by omega)

theorem begun_fields_iff {t inner : WireType} {name : String} {described : List (String × WireType)}
    (has : t.HasFields name described) {raw bytes : List UInt8} :
    Begun t raw inner bytes ↔ ∃ taken, takeInt? 4 raw = some taken
      ∧ BegunField name described 0 taken.1.toNat taken.2 inner bytes := by
  constructor
  · intro begun
    cases begun with
    | inner => cases has
    | element => cases has
    | field has' taken begun =>
      cases has with
      | composite =>
        cases has'
        exact ⟨_, taken, begun⟩
      | record =>
        cases has'
        exact ⟨_, taken, begun⟩
  · rintro ⟨_, taken, begun⟩
    exact .field has taken begun

theorem begun_array_iff {name : String} {oid : Nat} {element inner : WireType}
    {raw bytes : List UInt8} :
    Begun (.array name oid element) raw inner bytes
      ↔ inner = element ∧ ∃ taken total, takeArrayHeader? raw = some taken
        ∧ taken.1.total? = some total ∧ BegunItem element total taken.2 bytes := by
  constructor
  · intro begun
    cases begun with
    | element taken counted begun => exact ⟨rfl, _, _, taken, counted, begun⟩
    | field has => cases has
  · rintro ⟨rfl, _, _, taken, counted, begun⟩
    exact .element taken counted begun

theorem mem_traced_fields {t : WireType} {name : String} {described : List (String × WireType)}
    (has : t.HasFields name described) {raw : List UInt8} :
    d ∈ (traced t raw).demands
      ↔ d ∈ owed t raw ∨ ∃ inner bytes, Begun t raw inner bytes ∧ d ∈ (traced inner bytes).demands := by
  rw [traced_fields has, owed_fields has]
  rcases taken : takeInt? 4 raw with _ | ⟨count, rest⟩
  · simp [answer, begun_fields_iff has, taken]
  · simp [after, Traced.map, mem_tracedFields, begun_fields_iff has, taken]

theorem mem_traced_array {name : String} {oid : Nat} {element : WireType} {raw : List UInt8} :
    d ∈ (traced (.array name oid element) raw).demands
      ↔ d ∈ owed (.array name oid element) raw
        ∨ ∃ inner bytes, Begun (.array name oid element) raw inner bytes
          ∧ d ∈ (traced inner bytes).demands := by
  rw [traced_array, owed]
  rcases taken : takeArrayHeader? raw with _ | ⟨header, rest⟩
  · simp [after, answer, begun_array_iff, taken]
  · rcases counted : header.total? with _ | total
    · simp [after, answer, begun_array_iff, taken, counted]
    · have parts : (∃ inner bytes, Begun (.array name oid element) raw inner bytes
          ∧ d ∈ (traced inner bytes).demands) ↔ d ∈ (tracedItems element total rest).demands := by
        simp [mem_tracedItems, begun_array_iff, taken, counted, and_assoc]
      have items := tracedItems_result element total rest
      rw [parts]
      simp only [after, List.mem_append, mem_bind, items, ArrayHeader.tracedShape, Option.map_some, counted]
      rcases decodeItems element total rest with e | items
      · simp [or_assoc]
      · -- elements are regrouped behind the demands of the parts
        simp [or_assoc, or_comm (a := d ∈ (tracedItems element total rest).demands)]

/-- The demands of a value are its own and those of the parts that are begun. -/
theorem mem_traced_iff {t : WireType} {raw : List UInt8} :
    d ∈ (traced t raw).demands
      ↔ d ∈ owed t raw ∨ ∃ inner bytes, Begun t raw inner bytes ∧ d ∈ (traced inner bytes).demands := by
  match t with
  | .base name oid form =>
    by_cases fields : form = .record
    · subst fields
      exact mem_traced_fields (.record name oid)
    · rw [traced, if_neg fields]
      have own : owed (.base name oid form) raw = [] := by
        cases form with
        | record => exact absurd rfl fields
        | _ => rfl
      rw [own]
      refine ⟨nofun, ?_⟩
      rintro (none | ⟨inner, bytes, begun, -⟩)
      · cases none
      · cases begun with
        | field has => cases has; exact absurd rfl fields
  | .enumeration name oid =>
    rw [traced]
    refine ⟨nofun, ?_⟩
    rintro (none | ⟨inner, bytes, begun, -⟩)
    · cases none
    · cases begun with
      | field has => cases has
  | .array name oid element => exact mem_traced_array
  | .domain name oid inner =>
    rw [traced]
    constructor
    · exact fun asked => .inr ⟨inner, raw, .inner name oid inner raw, asked⟩
    · rintro (none | ⟨inner, bytes, begun, asked⟩)
      · cases none
      · cases begun with
        | inner => exact asked
        | field has => cases has
  | .composite name oid described => exact mem_traced_fields (.composite name oid described)

theorem Reached.of_begun {t middle inner : WireType} {raw bytes part : List UInt8}
    (begun : Begun t raw middle bytes) (h : Reached middle bytes inner part) :
    Reached t raw inner part := by
  induction h with
  | self => exact .part .self begun
  | part _ begun' ih => exact .part ih begun'

/-- Every demand is one of a cell that is reached, about its own header. -/
theorem mem_demands_iff {t : WireType} {raw : List UInt8} :
    d ∈ (traced t raw).demands ↔ ∃ inner part, Reached t raw inner part ∧ d ∈ owed inner part := by
  rw [mem_traced_iff]
  constructor
  · rintro (own | ⟨middle, bytes, begun, asked⟩)
    · exact ⟨t, raw, .self, own⟩
    · have := begun.smaller
      obtain ⟨inner, part, reached, own⟩ := mem_demands_iff.1 asked
      exact ⟨inner, part, .of_begun begun reached, own⟩
  · rintro ⟨inner, part, reached, own⟩
    rw [← mem_traced_iff]
    have here : d ∈ (traced inner part).demands := mem_traced_iff.2 (.inl own)
    clear own
    induction reached with
    | self => exact here
    | part _ begun ih => exact ih (mem_traced_iff.2 (.inr ⟨_, _, begun, here⟩))
termination_by (raw.length, sizeOf t)
decreasing_by
  simp only [Prod.lex_def]
  omega

end TypedStore.Wire
