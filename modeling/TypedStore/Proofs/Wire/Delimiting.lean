/-
Where structured cells end. Reading takes one part after the other off the front of bytes, and every part
tells where it ends: whatever stands behind it is not looked at, and a part that is cut short fails
(`Delimiting`). Steps made of such steps are such steps, so this holds of the parts of an array, a
composite value or a record as a whole, whatever counts and lengths the bytes name. What is read from the
parts afterwards depends on the parts alone.
-/
import TypedStore.Proofs.Wire.Inversion

set_option autoImplicit false

namespace TypedStore.Wire

/-! ## 1. Steps that tell where they end -/

section Steps

variable {α β : Type}

/-- A step reads something off some bytes, whatever stands behind them, and fails on fewer of them. -/
structure Reads (step : List UInt8 → Option (α × List UInt8)) (front : List UInt8) (a : α) : Prop where
  whole : ∀ rest, step (front ++ rest) = some (a, rest)
  cut : ∀ short, short <+: front → short ≠ front → step short = none

/-- A step that reads whatever it takes off the front. -/
def Delimiting (step : List UInt8 → Option (α × List UInt8)) : Prop :=
  ∀ raw a rest, step raw = some (a, rest) → ∃ front, raw = front ++ rest ∧ Reads step front a

/-- Part of the bytes of two steps is part of those of the first, or all of these and part of the
others. -/
theorem proper_prefix_append {short front behind : List UInt8} (part : short <+: front ++ behind)
    (proper : short ≠ front ++ behind) :
    (short <+: front ∧ short ≠ front)
      ∨ ∃ short', short = front ++ short' ∧ short' <+: behind ∧ short' ≠ behind := by
  by_cases first : front <+: short
  · obtain ⟨short', rfl⟩ := first
    refine .inr ⟨short', rfl, (List.prefix_append_right_inj front).1 part, ?_⟩
    rintro rfl
    exact proper rfl
  · rcases List.prefix_or_prefix_of_prefix part (List.prefix_append front behind) with inside | whole
    · refine .inl ⟨inside, ?_⟩
      rintro rfl
      exact first (List.prefix_refl _)
    · exact absurd whole first

theorem Reads.bind {step : List UInt8 → Option (α × List UInt8)}
    {next : α → List UInt8 → Option (β × List UInt8)} {front behind : List UInt8} {a : α} {b : β}
    (first : Reads step front a) (second : Reads (next a) behind b) :
    Reads (fun raw => (step raw).bind fun taken => next taken.1 taken.2) (front ++ behind) b where
  whole rest := by
    rw [List.append_assoc, first.whole, Option.bind_some]
    exact second.whole rest
  cut short part proper := by
    rcases proper_prefix_append part proper with ⟨inside, fewer⟩ | ⟨short', rfl, inside, fewer⟩
    · rw [first.cut short inside fewer, Option.bind_none]
    · rw [first.whole, Option.bind_some]
      exact second.cut short' inside fewer

theorem delimiting_pure (a : α) : Delimiting fun raw => some (a, raw) := by
  rintro raw _ _ ⟨rfl⟩
  refine ⟨[], rfl, fun rest => rfl, fun short part fewer => ?_⟩
  exact absurd (List.prefix_nil.1 part) fewer

theorem delimiting_none : Delimiting fun _ : List UInt8 => (none : Option (α × List UInt8)) := by
  rintro raw a rest ⟨⟩

theorem Delimiting.bind {step : List UInt8 → Option (α × List UInt8)}
    {next : α → List UInt8 → Option (β × List UInt8)} (first : Delimiting step)
    (second : ∀ a, Delimiting (next a)) :
    Delimiting fun raw => (step raw).bind fun taken => next taken.1 taken.2 := by
  intro raw b rest took
  obtain ⟨⟨a, left⟩, here, there⟩ := Option.bind_eq_some_iff.1 took
  obtain ⟨front, rfl, reads⟩ := first raw a left here
  obtain ⟨behind, rfl, reads'⟩ := second a left b rest there
  exact ⟨front ++ behind, (List.append_assoc _ _ _).symm, reads.bind reads'⟩

theorem Delimiting.map {step : List UInt8 → Option (α × List UInt8)} (delimiting : Delimiting step)
    (f : α → β) : Delimiting fun raw => (step raw).map fun taken => (f taken.1, taken.2) := by
  have same : (fun raw => (step raw).map fun taken => (f taken.1, taken.2))
      = fun raw => (step raw).bind fun taken => some (f taken.1, taken.2) := by
    funext raw
    exact Option.map_eq_bind
  rw [same]
  exact delimiting.bind fun a => delimiting_pure (f a)

/-- As many results of a step as are asked for. -/
def repeated? (step : List UInt8 → Option (α × List UInt8)) :
    Nat → List UInt8 → Option (List α × List UInt8)
  | 0, raw => some ([], raw)
  | count + 1, raw =>
    (step raw).bind fun taken =>
      (repeated? step count taken.2).map fun others => (taken.1 :: others.1, others.2)

theorem Delimiting.repeated {step : List UInt8 → Option (α × List UInt8)}
    (delimiting : Delimiting step) (count : Nat) : Delimiting (repeated? step count) := by
  induction count with
  | zero => exact delimiting_pure []
  | succ count ih => exact delimiting.bind fun a => ih.map (a :: ·)

end Steps

/-! ## 2. Parts -/

theorem delimiting_takeBytes (size : Nat) : Delimiting (takeBytes? size) := by
  intro raw bytes rest took
  obtain ⟨rfl, rfl⟩ := append_of_takeBytes? took
  refine ⟨bytes, rfl, takeBytes?_append bytes, fun short part fewer => ?_⟩
  have shorter : short.length < bytes.length :=
    Nat.lt_of_le_of_ne part.length_le fun same => fewer (part.eq_of_length same)
  exact if_neg (Nat.not_le.2 shorter)

theorem delimiting_takeNat (width : Nat) : Delimiting (takeNat? width) :=
  (delimiting_takeBytes width).map natOfBytes

theorem delimiting_takeInt (width : Nat) : Delimiting (takeInt? width) :=
  (delimiting_takeNat width).map (signedOf width)

theorem delimiting_takeDimensions (count : Nat) : Delimiting (takeDimensions? count) := by
  induction count with
  | zero => exact delimiting_pure []
  | succ count ih =>
    exact (delimiting_takeInt 4).bind fun length => (delimiting_takeInt 4).bind fun _ =>
      ih.bind fun others => delimiting_pure (length.toNat :: others)

theorem delimiting_takeArrayHeader : Delimiting takeArrayHeader? :=
  (delimiting_takeInt 4).bind fun dimensions => (delimiting_takeInt 4).bind fun _ =>
    (delimiting_takeNat 4).bind fun _ => (delimiting_takeDimensions dimensions.toNat).bind
      fun lengths => delimiting_pure (ArrayHeader.mk lengths)

/-- The bytes behind a length, none if it is negative. -/
def bytesBehind? (length : Int) (raw : List UInt8) : Option (Option (List UInt8) × List UInt8) :=
  if length < 0 then some (none, raw)
  else (takeBytes? length.toNat raw).map fun taken => (some taken.1, taken.2)

/-- A cell, where there is one. -/
def takeCell? (raw : List UInt8) : Option (Option (List UInt8) × List UInt8) :=
  (takeInt? 4 raw).bind fun taken => bytesBehind? taken.1 taken.2

theorem takeCell_eq_ok {raw rest : List UInt8} {cell : Option (List UInt8)} :
    takeCell raw = .ok (cell, rest) ↔ takeCell? raw = some (cell, rest) := by
  unfold takeCell takeCell? bytesBehind?
  rcases takeInt? 4 raw with _ | ⟨length, left⟩
  · simp
  · by_cases negative : length < 0
    · simp [negative]
    · rcases cut : takeBytes? length.toNat left with _ | ⟨bytes, behind⟩ <;> simp [negative, cut]

theorem delimiting_takeCell : Delimiting takeCell? := by
  refine (delimiting_takeInt 4).bind fun length => ?_
  unfold bytesBehind?
  split
  · exact delimiting_pure none
  · exact (delimiting_takeBytes length.toNat).map some

/-- The number of a type and a cell, where they are there. -/
def takeField? (raw : List UInt8) : Option ((Nat × Option (List UInt8)) × List UInt8) :=
  (takeNat? 4 raw).bind fun taken =>
    (takeCell? taken.2).map fun cell => ((taken.1, cell.1), cell.2)

theorem takeField_eq_ok {raw rest : List UInt8} {oid : Nat} {cell : Option (List UInt8)} :
    takeField raw = .ok (oid, cell, rest) ↔ takeField? raw = some ((oid, cell), rest) := by
  unfold takeField takeField?
  rcases takeNat? 4 raw with _ | ⟨number, left⟩
  · simp
  · rw [Option.bind_some, Option.map_eq_some_iff]
    constructor
    · intro took
      rcases held : takeCell left with e | ⟨cell', rest'⟩
      · simp [held] at took
      · simp only [held, Except.ok.injEq, Prod.mk.injEq] at took
        obtain ⟨rfl, rfl, rfl⟩ := took
        exact ⟨_, takeCell_eq_ok.1 held, rfl⟩
    · rintro ⟨⟨cell', rest'⟩, held, same⟩
      cases same
      simp [takeCell_eq_ok.2 held]

theorem delimiting_takeField : Delimiting takeField? :=
  (delimiting_takeNat 4).bind fun oid => delimiting_takeCell.map fun cell => (oid, cell)

/-- As many cells as a header calls for. -/
def takeCells? (header : ArrayHeader) (raw : List UInt8) :
    Option (List (Option (List UInt8)) × List UInt8) :=
  match header.total? with
  | none => none
  | some total => repeated? takeCell? total raw

/-- The parts of an array: its header and its cells. -/
def takeElements? (raw : List UInt8) :
    Option ((ArrayHeader × List (Option (List UInt8))) × List UInt8) :=
  (takeArrayHeader? raw).bind fun taken =>
    (takeCells? taken.1 taken.2).map fun cells => ((taken.1, cells.1), cells.2)

theorem delimiting_takeElements : Delimiting takeElements? := by
  refine delimiting_takeArrayHeader.bind fun header => Delimiting.map ?_ (header, ·)
  unfold takeCells?
  cases header.total? with
  | none => exact delimiting_none
  | some total => exact delimiting_takeCell.repeated total

/-- The parts of a composite value or a record: as many fields as are counted. -/
def takeFields? (raw : List UInt8) :
    Option (List (Nat × Option (List UInt8)) × List UInt8) :=
  (takeInt? 4 raw).bind fun taken => repeated? takeField? taken.1.toNat taken.2

theorem delimiting_takeFields : Delimiting takeFields? :=
  (delimiting_takeInt 4).bind fun count => delimiting_takeField.repeated count.toNat

/-! ## 3. Values of parts -/

/-- One element more: its cell is taken and read, and then the others. -/
theorem decodeItems_succ (element : WireType) (count : Nat) (raw : List UInt8) :
    decodeItems element (count + 1) raw
      = (takeCell raw).bind fun taken => (decodeCell element taken.1).bind fun first =>
          (decodeItems element count taken.2).map (first :: ·) := by
  rw [decodeItems]
  split
  · rename_i taken
    rw [taken]
    rfl
  · rename_i taken
    rw [taken]
    rfl
  · rename_i taken
    rw [taken]
    rfl

/-- One field more: it is taken, described and read, and then the others. -/
theorem decodeFields_succ (typeName : String) (described : List (String × WireType))
    (position count : Nat) (raw : List UInt8) :
    decodeFields typeName described position (count + 1) raw
      = (takeField raw).bind fun taken =>
          (fieldAt typeName described position taken.1).bind fun known =>
          (decodeCell known.2 taken.2.1).bind fun first =>
          (decodeFields typeName described (position + 1) count taken.2.2).map
            ((known.1, first) :: ·) := by
  rw [decodeFields]
  split
  · rename_i taken
    rw [taken]
    rfl
  · rename_i taken
    rw [taken]
    rfl
  · rename_i taken
    rw [taken]
    rfl

/-- The values of fields from a position on. -/
def readFields (typeName : String) (described : List (String × WireType)) :
    Nat → List (Nat × Option (List UInt8)) → Except CodecError (List (String × Value))
  | _, [] => .ok []
  | position, field :: rest =>
    (fieldAt typeName described position field.1).bind fun known =>
    (decodeCell known.2 field.2).bind fun first =>
    (readFields typeName described (position + 1) rest).map ((known.1, first) :: ·)

/-- Elements are read if all of their cells are there, each from its own. The induction is on the
elements. -/
theorem decodeItems_eq_ok {element : WireType} {count : Nat} {raw : List UInt8} {items : List Value} :
    decodeItems element count raw = .ok items
      ↔ ∃ cells rest, repeated? takeCell? count raw = some (cells, rest)
        ∧ cells.mapM (decodeCell element) = .ok items := by
  induction count generalizing raw items with
  | zero =>
    rw [decodeItems]
    constructor
    · rintro ⟨rfl⟩
      exact ⟨[], raw, rfl, rfl⟩
    · rintro ⟨cells, rest, ⟨rfl⟩, read⟩
      exact read
  | succ count ih =>
    rw [decodeItems_succ]
    constructor
    · intro decoded
      obtain ⟨⟨cell, left⟩, taken, decoded⟩ := bind_eq_ok_iff.1 decoded
      obtain ⟨first, read, decoded⟩ := bind_eq_ok_iff.1 decoded
      obtain ⟨others, behind, rfl⟩ := map_eq_ok decoded
      obtain ⟨cells, rest, there, reads⟩ := ih.1 behind
      refine ⟨cell :: cells, rest, ?_, ?_⟩
      · simp [repeated?, takeCell_eq_ok.1 taken, there]
      · rw [List.mapM_cons, read, reads]
        rfl
    · rintro ⟨cells, rest, there, reads⟩
      obtain ⟨⟨cell, left⟩, taken, there⟩ := Option.bind_eq_some_iff.1 there
      obtain ⟨⟨others, rest'⟩, behind, same⟩ := Option.map_eq_some_iff.1 there
      cases same
      obtain ⟨first, values, read, each, rfl⟩ := mapM_cons_eq_ok reads
      rw [takeCell_eq_ok.2 taken]
      show (decodeCell element cell).bind _ = _
      rw [read]
      show (decodeItems element count left).map _ = _
      rw [ih.2 ⟨others, _, behind, each⟩]
      rfl

/-- Fields are read if all of them are there, each by what is known of its position. The induction is on
the fields. -/
theorem decodeFields_eq_ok {typeName : String} {described : List (String × WireType)}
    {position count : Nat} {raw : List UInt8} {fields : List (String × Value)} :
    decodeFields typeName described position count raw = .ok fields
      ↔ ∃ parts rest, repeated? takeField? count raw = some (parts, rest)
        ∧ readFields typeName described position parts = .ok fields := by
  induction count generalizing position raw fields with
  | zero =>
    rw [decodeFields]
    constructor
    · rintro ⟨rfl⟩
      exact ⟨[], raw, rfl, rfl⟩
    · rintro ⟨parts, rest, ⟨rfl⟩, read⟩
      exact read
  | succ count ih =>
    rw [decodeFields_succ]
    constructor
    · intro decoded
      obtain ⟨⟨oid, cell, left⟩, taken, decoded⟩ := bind_eq_ok_iff.1 decoded
      obtain ⟨known, described_, decoded⟩ := bind_eq_ok_iff.1 decoded
      obtain ⟨first, read, decoded⟩ := bind_eq_ok_iff.1 decoded
      obtain ⟨others, behind, rfl⟩ := map_eq_ok decoded
      obtain ⟨parts, rest, there, reads⟩ := ih.1 behind
      refine ⟨(oid, cell) :: parts, rest, ?_, ?_⟩
      · simp [repeated?, takeField_eq_ok.1 taken, there]
      · simp only [readFields, described_, read, reads, Except.bind, Except.map]
    · rintro ⟨parts, rest, there, reads⟩
      obtain ⟨⟨⟨oid, cell⟩, left⟩, taken, there⟩ := Option.bind_eq_some_iff.1 there
      obtain ⟨⟨others, rest'⟩, behind, same⟩ := Option.map_eq_some_iff.1 there
      cases same
      obtain ⟨known, described_, reads⟩ := bind_eq_ok_iff.1 reads
      obtain ⟨first, read, reads⟩ := bind_eq_ok_iff.1 reads
      obtain ⟨values, values_, rfl⟩ := map_eq_ok reads
      have others_ := ih.2 ⟨others, _, behind, values_⟩
      simp only [takeField_eq_ok.2 taken, described_, read, others_, Except.bind, Except.map]

/-- An array is read from its parts. -/
theorem decode_array_eq_ok {name : String} {oid : Nat} {element : WireType} {raw : List UInt8}
    {v : Value} :
    decode (.array name oid element) raw = .ok v
      ↔ ∃ parts rest, takeElements? raw = some (parts, rest)
        ∧ (parts.2.mapM (decodeCell element)).map parts.1.shape = .ok v := by
  rcases taken : takeArrayHeader? raw with _ | ⟨header, left⟩
  · simp [decode_array_eq, takeElements?, taken]
  · rcases counted : header.total? with _ | total
    · simp [decode_array_eq, takeElements?, takeCells?, taken, counted]
    · rw [decode_array taken counted]
      constructor
      · intro decoded
        obtain ⟨items, inside, rfl⟩ := map_eq_ok decoded
        obtain ⟨cells, rest, there, reads⟩ := decodeItems_eq_ok.1 inside
        refine ⟨(header, cells), rest, ?_, ?_⟩
        · simp [takeElements?, takeCells?, taken, counted, there]
        · rw [reads]
          rfl
      · rintro ⟨⟨header', cells⟩, rest, there, reads⟩
        simp only [takeElements?, takeCells?, taken, counted, Option.bind_some,
          Option.map_eq_some_iff, Prod.exists] at there
        obtain ⟨cells', rest', there, same⟩ := there
        cases same
        obtain ⟨items, each, rfl⟩ := map_eq_ok reads
        rw [decodeItems_eq_ok.2 ⟨cells, _, there, each⟩]
        rfl

/-- A composite value or a record is read from its parts. -/
theorem decode_fields_eq_ok {t : WireType} {name : String} {described : List (String × WireType)}
    (has : t.HasFields name described) {raw : List UInt8} {v : Value} :
    decode t raw = .ok v
      ↔ ∃ parts rest, takeFields? raw = some (parts, rest)
        ∧ (readFields name described 0 parts).map (.record name) = .ok v := by
  rcases taken : takeInt? 4 raw with _ | ⟨count, left⟩
  · simp [decode_fields_eq has, takeFields?, taken]
  · rw [decode_fields has taken]
    simp only [takeFields?, taken, Option.bind_some]
    constructor
    · intro decoded
      obtain ⟨fields, inside, rfl⟩ := map_eq_ok decoded
      obtain ⟨parts, rest, there, reads⟩ := decodeFields_eq_ok.1 inside
      refine ⟨parts, rest, there, ?_⟩
      rw [reads]
      rfl
    · rintro ⟨parts, rest, there, reads⟩
      obtain ⟨fields, each, rfl⟩ := map_eq_ok reads
      rw [decodeFields_eq_ok.2 ⟨parts, rest, there, each⟩]
      rfl

/-! ## 4. Where cells end -/

/-- Bytes of a type hold all of a value within their first ones: with anything else behind these they
give the same value, and with fewer of these none. -/
def Delimited (t : WireType) (raw : List UInt8) (v : Value) : Prop :=
  ∃ n ≤ raw.length, (∀ other : List UInt8, other.take n = raw.take n → decode t other = .ok v)
    ∧ ∀ m < n, ∃ e, decode t (raw.take m) = .error e

/-- Where the value is read from what a delimiting step takes, the bytes that it took hold all of it. -/
theorem delimited_of_step {α : Type} {t : WireType} {step : List UInt8 → Option (α × List UInt8)}
    (delimiting : Delimiting step) {finish : α → Except CodecError Value}
    (reads : ∀ {raw : List UInt8} {v : Value},
      decode t raw = .ok v ↔ ∃ a rest, step raw = some (a, rest) ∧ finish a = .ok v)
    {raw : List UInt8} {v : Value} (decoded : decode t raw = .ok v) : Delimited t raw v := by
  obtain ⟨a, rest, took, finished⟩ := reads.1 decoded
  obtain ⟨front, rfl, taken⟩ := delimiting raw a rest took
  refine ⟨front.length, by simp, ?_, ?_⟩
  · intro other same
    rw [List.take_left] at same
    have whole := List.take_append_drop front.length other
    rw [same] at whole
    exact reads.2 ⟨a, _, whole ▸ taken.whole _, finished⟩
  · intro m fewer
    rw [List.take_append_of_le_length (Nat.le_of_lt fewer)]
    cases short : decode t (front.take m) with
    | error e => exact ⟨e, rfl⟩
    | ok w =>
      obtain ⟨b, rest', took', -⟩ := reads.1 short
      have proper : front.take m ≠ front := by
        intro same
        have := congrArg List.length same
        rw [List.length_take] at this
        omega
      rw [taken.cut _ (List.take_prefix m front) proper] at took'
      cases took'

/-- Types whose values consist of parts: arrays, composite types, anonymous records, and domains over
them. -/
inductive WireType.Structured : WireType → Prop where
  | array (name : String) (oid : Nat) (element : WireType) : Structured (.array name oid element)
  | fields {t : WireType} {name : String} {described : List (String × WireType)}
      (has : t.HasFields name described) : Structured t
  | domain (name : String) (oid : Nat) {inner : WireType} (structured : Structured inner) :
    Structured (.domain name oid inner)

/-- Bytes of a type and those of a cell in them, at any depth, with its type. -/
inductive Holds : WireType → List UInt8 → WireType → List UInt8 → Prop where
  | self (t : WireType) (raw : List UInt8) : Holds t raw t raw
  | domain {name : String} {oid : Nat} {inner t : WireType} {raw part : List UInt8}
      (within : Holds inner raw t part) : Holds (.domain name oid inner) raw t part
  | element {name : String} {oid : Nat} {element t : WireType} {raw rest bytes part : List UInt8}
      {header : ArrayHeader} {cells : List (Option (List UInt8))}
      (taken : takeElements? raw = some ((header, cells), rest)) (member : some bytes ∈ cells)
      (within : Holds element bytes t part) : Holds (.array name oid element) raw t part
  | field {outer inner t : WireType} {name label : String} {described : List (String × WireType)}
      {raw rest bytes part : List UInt8} {parts : List (Nat × Option (List UInt8))} {i oid : Nat}
      (has : outer.HasFields name described) (taken : takeFields? raw = some (parts, rest))
      (here : parts[i]? = some (oid, some bytes))
      (known : fieldAt name described i oid = .ok (label, inner)) (within : Holds inner bytes t part) :
    Holds outer raw t part

theorem delimited_of_decode {t : WireType} (structured : t.Structured) {raw : List UInt8} {v : Value}
    (decoded : decode t raw = .ok v) : Delimited t raw v := by
  induction structured with
  | array name oid element => exact delimited_of_step delimiting_takeElements decode_array_eq_ok decoded
  | fields has => exact delimited_of_step delimiting_takeFields (decode_fields_eq_ok has) decoded
  | domain name oid structured ih =>
    rw [decode] at decoded
    obtain ⟨n, bound, whole, cut⟩ := ih decoded
    refine ⟨n, bound, fun other same => ?_, fun m fewer => ?_⟩
    · rw [decode]
      exact whole other same
    · obtain ⟨e, failed⟩ := cut m fewer
      rw [decode]
      exact ⟨e, failed⟩

theorem exists_of_mapM {α β : Type} {f : α → Except CodecError β} {as : List α} {bs : List β}
    (h : as.mapM f = .ok bs) {a : α} (mem : a ∈ as) : ∃ b, f a = .ok b := by
  induction as generalizing bs with
  | nil => cases mem
  | cons first rest ih =>
    obtain ⟨b, others, here, behind, -⟩ := mapM_cons_eq_ok h
    rcases List.mem_cons.1 mem with rfl | mem
    · exact ⟨b, here⟩
    · exact ih behind mem

theorem exists_of_readFields {typeName : String} {described : List (String × WireType)}
    {position : Nat} {parts : List (Nat × Option (List UInt8))} {fields : List (String × Value)}
    (h : readFields typeName described position parts = .ok fields) {i oid : Nat}
    {cell : Option (List UInt8)} (here : parts[i]? = some (oid, cell)) :
    ∃ known v, fieldAt typeName described (position + i) oid = .ok known
      ∧ decodeCell known.2 cell = .ok v := by
  induction parts generalizing position fields i with
  | nil => cases here
  | cons first rest ih =>
    obtain ⟨known, there, h⟩ := bind_eq_ok_iff.1 h
    obtain ⟨v, read, h⟩ := bind_eq_ok_iff.1 h
    obtain ⟨others, behind, -⟩ := map_eq_ok h
    cases i with
    | zero =>
      cases here
      exact ⟨known, v, there, read⟩
    | succ i =>
      rw [Nat.add_comm i 1, ← Nat.add_assoc]
      exact ih behind here

/-- Bytes that are read have read all cells in them. The induction is on the depth of the cell. -/
theorem Holds.decoded {t inner : WireType} {raw part : List UInt8} (holds : Holds t raw inner part)
    {v : Value} (decoded : decode t raw = .ok v) : ∃ w, decode inner part = .ok w := by
  induction holds generalizing v with
  | self => exact ⟨v, decoded⟩
  | domain within ih =>
    rw [decode] at decoded
    exact ih decoded
  | element taken member within ih =>
    obtain ⟨parts, rest, taken', reads⟩ := decode_array_eq_ok.1 decoded
    rw [taken] at taken'
    cases taken'
    obtain ⟨items, each, -⟩ := map_eq_ok reads
    obtain ⟨w, read⟩ := exists_of_mapM each member
    exact ih read
  | field has taken here known within ih =>
    obtain ⟨parts, rest, taken', reads⟩ := (decode_fields_eq_ok has).1 decoded
    rw [taken] at taken'
    cases taken'
    obtain ⟨fields, each, -⟩ := map_eq_ok reads
    obtain ⟨known', w, there, read⟩ := exists_of_readFields each here
    rw [Nat.zero_add, known] at there
    cases there
    exact ih read

/-- **Truncation is detected.** Whatever bytes are read as an array, a composite value, an anonymous record
or a domain over one, all of the value is in some first ones of them: whatever comes behind, the value is
the same, and any fewer of them fail. So no part of the bytes is read as another value; and the same holds
of every such cell in them, at any depth, so bytes in which a cell is cut short are not read at all. -/
theorem decode_detects_truncation {t : WireType} (structured : t.Structured) {raw : List UInt8}
    {v : Value} (decoded : decode t raw = .ok v) :
    Delimited t raw v
      ∧ (∀ {short : List UInt8} {w : Value}, short <+: raw → decode t short = .ok w → w = v)
      ∧ ∀ {inner : WireType} {part : List UInt8}, Holds t raw inner part → inner.Structured →
        ∃ w, decode inner part = .ok w ∧ Delimited inner part w := by
  have delimited := delimited_of_decode structured decoded
  refine ⟨delimited, ?_, ?_⟩
  · rintro short w ⟨behind, rfl⟩ read
    obtain ⟨n, -, whole, cut⟩ := delimited
    by_cases enough : n ≤ short.length
    · have same := whole short (List.take_append_of_le_length enough).symm
      rw [read] at same
      exact Except.ok.inj same
    · obtain ⟨e, failed⟩ := cut short.length (Nat.lt_of_not_le enough)
      rw [List.take_left, read] at failed
      cases failed
  · intro inner part holds structured'
    obtain ⟨w, read⟩ := holds.decoded decoded
    exact ⟨w, read, delimited_of_decode structured' read⟩

/-- An array of a number and NULL. -/
def pairBytes : List UInt8 :=
  [0, 0, 0, 1, 0, 0, 0, 1, 0, 0, 0, 23, 0, 0, 0, 2, 0, 0, 0, 1, 0, 0, 0, 4, 0, 0, 0, 5, 255, 255, 255, 255]

/-- An anonymous record of that array, with a byte behind it. -/
def pairRecordBytes : List UInt8 := [0, 0, 0, 1, 0, 0, 3, 239, 0, 0, 0, 32] ++ pairBytes ++ [9]

theorem decode_pairBytes :
    decode (.array "_int4" 1007 (.base "int4" 23 .int4)) pairBytes = .ok (.array [.int32 5, .null]) := by
  have taken : takeElements? pairBytes = some ((⟨[2]⟩, [some (bytesOfInt 4 5), none]), []) := by
    decide +kernel
  have five : decodeCell (.base "int4" 23 .int4) (some (bytesOfInt 4 5)) = .ok (.int32 5) := by
    show decode _ _ = _
    rw [decode, if_neg (by decide)]
    exact BaseForm.read_of_writes (.int4 5) "int4"
  refine decode_array_eq_ok.2 ⟨_, _, taken, ?_⟩
  simp only [List.mapM_cons, List.mapM_nil, five]
  rfl

theorem takeFields_pairRecordBytes :
    takeFields? pairRecordBytes = some ([(1007, some pairBytes)], [9]) := by
  decide +kernel

theorem decode_pairRecordBytes :
    decode (.base "record" 2249 .record) pairRecordBytes
      = .ok (.record "record" [("", .array [.int32 5, .null])]) := by
  refine (decode_fields_eq_ok (.record "record" 2249)).2 ⟨_, _, takeFields_pairRecordBytes, ?_⟩
  have known : fieldAt "record" [] 0 1007
      = .ok ("", .array "_int4" 1007 (.base "int4" 23 .int4)) := rfl
  have read : decodeCell (.array "_int4" 1007 (.base "int4" 23 .int4)) (some pairBytes) = _ :=
    decode_pairBytes
  simp only [readFields, known, read, Except.bind, Except.map]

/-- Any part of the record that gives a value gives the same; the array in it ends where its last element
does, and any fewer bytes of it fail. -/
theorem decode_detects_truncation_pair :
    decode (.base "record" 2249 .record) pairRecordBytes
        = .ok (.record "record" [("", .array [.int32 5, .null])])
      ∧ Delimited (.base "record" 2249 .record) pairRecordBytes
        (.record "record" [("", .array [.int32 5, .null])])
      ∧ (∀ {short : List UInt8} {w : Value}, short <+: pairRecordBytes →
        decode (.base "record" 2249 .record) short = .ok w →
        w = .record "record" [("", .array [.int32 5, .null])])
      ∧ ∃ w, decode (.array "_int4" 1007 (.base "int4" 23 .int4)) pairBytes = .ok w
        ∧ Delimited (.array "_int4" 1007 (.base "int4" 23 .int4)) pairBytes w := by
  have found := decode_detects_truncation (.fields (.record "record" 2249)) decode_pairRecordBytes
  refine ⟨decode_pairRecordBytes, found.1, found.2.1, found.2.2 ?_ (.array _ _ _)⟩
  have here : [(1007, some pairBytes)][0]? = some (1007, some pairBytes) := rfl
  exact .field (.record "record" 2249) takeFields_pairRecordBytes here rfl (.self _ _)

end TypedStore.Wire
