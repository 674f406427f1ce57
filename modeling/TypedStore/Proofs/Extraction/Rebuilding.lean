/-
Rebuilding a record from its raw fields. Every attribute is read from one place: that of the first field
of its name, or its own position where no field has the name. A place that is read twice gives its cell
once and NULL from then on. So the fields of a record are conserved exactly where all that is not read is
NULL (`rebuilt_conserves_iff`), and where the names alone see to that: no attribute without a field of its
name stands in the place of another one's field (`Uncontended`).
-/
import TypedStore.Proofs.Extraction.Retraction

set_option autoImplicit false

namespace TypedStore.Extraction

/-! ## 1. Places and cells -/

/-- The place that an attribute is read from: that of the first field of its name, or else its own. -/
def placeOf (names : List String) (attr : String) (position : Nat) : Nat :=
  if attr ∈ names then names.idxOf attr else position

/-- The places of attributes that are read one after the other from a position on. -/
def placesFrom (names : List String) (position : Nat) (listed : List (String × String)) : List Nat :=
  (listed.zipIdx position).map fun a => placeOf names a.1.1 a.2

/-- The cell at a place. -/
def cellAt (fields : List (String × Value)) (place : Nat) : Value :=
  ((fields[place]?).map (·.2)).getD .null

/-- The cells at places that are read one after the other, NULL where a place was read before. -/
def cellsRead (fields : List (String × Value)) (used : List Nat) : List Nat → List Value
  | [] => []
  | place :: rest =>
    (if place ∈ used then .null else cellAt fields place) :: cellsRead fields (place :: used) rest

theorem cellAt_append (before : List (String × Value)) (name : String) (v : Value)
    (after : List (String × Value)) : cellAt (before ++ (name, v) :: after) before.length = v := by
  rw [cellAt, List.getElem?_append_right (Nat.le_refl _), Nat.sub_self]
  rfl

theorem cellAt_append_of_ne {before after : List (String × Value)} {name : String} (v w : Value)
    {place : Nat} (other : place ≠ before.length) :
    cellAt (before ++ (name, v) :: after) place = cellAt (before ++ (name, w) :: after) place := by
  rw [cellAt, cellAt]
  rcases Nat.lt_or_ge place before.length with inFront | behind
  · rw [List.getElem?_append_left inFront, List.getElem?_append_left inFront]
  · obtain ⟨n, later⟩ := Nat.exists_eq_succ_of_ne_zero (Nat.sub_ne_zero_of_lt
      (Nat.lt_of_le_of_ne behind other.symm))
    rw [List.getElem?_append_right behind, List.getElem?_append_right behind, later]
    rfl

/-- The cells of a record, place by place. -/
theorem map_cellAt (fields : List (String × Value)) :
    (List.range fields.length).map (cellAt fields) = fields.map (·.2) := by
  refine List.ext_getElem (by simp) fun place inRange _ => ?_
  have within : place < fields.length := by simpa using inRange
  simp [cellAt, within]

/-- An attribute takes the cell at its place and leaves NULL there. -/
theorem attributeCell_eq (attr : String) {position : Nat} {fields : List (String × Value)}
    (within : position < fields.length) :
    ∃ before name v after, fields = before ++ (name, v) :: after
      ∧ before.length = placeOf (fields.map (·.1)) attr position
      ∧ attributeCell attr position fields = (v, before ++ (name, .null) :: after) := by
  by_cases named : attr ∈ fields.map (·.1)
  · obtain ⟨names, names', parts, first⟩ := List.eq_append_cons_of_mem named
    obtain ⟨before, rest, rfl, rfl, others⟩ := List.map_eq_append_iff.1 parts
    obtain ⟨⟨name, v⟩, after, rfl, rfl, -⟩ := List.map_eq_cons_iff.1 others
    refine ⟨before, name, v, after, rfl, ?_, attributeCell_of_some ?_⟩
    · rw [placeOf, if_pos named, parts, List.idxOf_append_of_notMem first, List.idxOf_cons_self,
        Nat.add_zero, List.length_map]
    · have others : ∀ field ∈ before, field.1 ≠ name := fun field hf same =>
        first (List.mem_map.2 ⟨field, hf, same⟩)
      rw [takeFieldOrAt?, takeField?_append others]
  · have absent : takeField? attr fields = none := by
      rw [takeField?, fieldValue?_eq_none fun field hf same => named (List.mem_map.2 ⟨field, hf, same⟩)]
      rfl
    have parts : fields = fields.take position ++ fields[position] :: fields.drop (position + 1) := by
      rw [← List.drop_eq_getElem_cons within, List.take_append_drop]
    have length : (fields.take position).length = position :=
      List.length_take_of_le (Nat.le_of_lt within)
    refine ⟨fields.take position, fields[position].1, fields[position].2, fields.drop (position + 1),
      parts, ?_, attributeCell_of_some ?_⟩
    · rw [placeOf, if_neg named, length]
    · have blanked := blankAt_append (fields.take position) fields[position].1 fields[position].2
        (fields.drop (position + 1))
      rw [length, ← parts] at blanked
      rw [takeFieldOrAt?, absent]
      dsimp only
      rw [List.getElem?_eq_getElem within, Option.map_some, blanked]

/-! ## 2. Reading a record -/

/-- What is left of fields behind the reading of places. -/
structure LeftOf (fields : List (String × Value)) (used : List Nat) (left : List (String × Value)) :
    Prop where
  named : left.map (·.1) = fields.map (·.1)
  cells : ∀ place, cellAt left place = if place ∈ used then .null else cellAt fields place

theorem leftOf_self (fields : List (String × Value)) : LeftOf fields [] fields :=
  ⟨rfl, fun _ => rfl⟩

/-- One attribute reads its place. -/
theorem LeftOf.step {fields left : List (String × Value)} {used : List Nat}
    (h : LeftOf fields used left) {position : Nat} (within : position < fields.length) (attr : String) :
    ∃ left', attributeCell attr position left
        = (if placeOf (fields.map (·.1)) attr position ∈ used then .null
            else cellAt fields (placeOf (fields.map (·.1)) attr position), left')
      ∧ LeftOf fields (placeOf (fields.map (·.1)) attr position :: used) left' := by
  have length : left.length = fields.length := by simpa using congrArg List.length h.named
  obtain ⟨before, name, v, after, rfl, place, taken⟩ :=
    attributeCell_eq attr (length ▸ within)
  rw [h.named] at place
  rw [← place, taken, ← h.cells, cellAt_append]
  refine ⟨_, rfl, ?_, fun other => ?_⟩
  · rw [← h.named, List.map_append, List.map_append]
    rfl
  · by_cases here : other = before.length
    · rw [here, cellAt_append, if_pos List.mem_cons_self]
    · have same : other ∈ before.length :: used ↔ other ∈ used := by simp [here]
      rw [cellAt_append_of_ne .null v here, h.cells]
      simp only [same]

/-- The attributes of a result are the extractions of cells, one of each. -/
def RebuiltFrom (r : Registry) (listed : List (String × String)) (cells : List Value)
    (result : List (String × Value)) : Prop :=
  List.Forall₂ (fun given field => field.1 = given.1.1 ∧ extract r given.1.2 given.2 = .ok field.2)
    (listed.zip cells) result

/-- **What a record is rebuilt from.** Each attribute is the extraction of the cell at its place, or of
NULL where the place has been read before. The induction is on the attributes. -/
theorem rebuiltFrom_cellsRead {r : Registry} {definition : CompositeDefinition}
    {fields left result : List (String × Value)} {used : List Nat} (h : LeftOf fields used left)
    {listed : List (String × String)} {position : Nat}
    (within : position + listed.length ≤ fields.length)
    (ok : extractFields r definition position listed left = .ok result) :
    RebuiltFrom r listed (cellsRead fields used (placesFrom (fields.map (·.1)) position listed))
      result := by
  induction listed generalizing left result used position with
  | nil =>
    rw [extractFields] at ok
    cases ok
    exact .nil
  | cons a others ih =>
    obtain ⟨attr, attrType⟩ := a
    rw [List.length_cons] at within
    obtain ⟨left', cell, h'⟩ := h.step (show position < fields.length by omega) attr
    obtain ⟨w, rest, first, more, rfl⟩ := (extractFields_cons cell).1 ok
    have behind := ih h' (show position + 1 + others.length ≤ fields.length by omega) more
    rw [placesFrom, List.zipIdx_cons, List.map_cons, cellsRead, RebuiltFrom, List.zip_cons_cons]
    exact .cons ⟨rfl, first⟩ behind

/-! ## 3. Reading every place once -/

/-- The places that are read for the first time. -/
def firstReads (used : List Nat) : List Nat → List Nat
  | [] => []
  | place :: rest =>
    if place ∈ used then firstReads (place :: used) rest
    else place :: firstReads (place :: used) rest

theorem mem_firstReads {used places : List Nat} {place : Nat} :
    place ∈ firstReads used places ↔ place ∈ places ∧ place ∉ used := by
  induction places generalizing used with
  | nil => simp [firstReads]
  | cons first rest ih =>
    rw [firstReads]
    by_cases here : place = first
    · subst here
      split <;> simp_all
    · split <;> simp [ih, here]

theorem nodup_firstReads (used places : List Nat) : (firstReads used places).Nodup := by
  induction places generalizing used with
  | nil => exact List.nodup_nil
  | cons first rest ih =>
    rw [firstReads]
    split
    · exact ih _
    · exact List.nodup_cons.2 ⟨by simp [mem_firstReads], ih _⟩

/-- What is read is the cells of the places that are read for the first time, and NULL for the others. -/
theorem cellsRead_perm (fields : List (String × Value)) (used places : List Nat) :
    ∃ again, (firstReads used places).length + again = places.length
      ∧ (cellsRead fields used places).Perm
          ((firstReads used places).map (cellAt fields) ++ List.replicate again .null) := by
  induction places generalizing used with
  | nil => exact ⟨0, rfl, .refl _⟩
  | cons place rest ih =>
    obtain ⟨again, length, perm⟩ := ih (place :: used)
    rw [cellsRead, firstReads]
    split
    · refine ⟨again + 1, by rw [List.length_cons]; omega, (perm.cons _).trans ?_⟩
      rw [List.replicate_succ]
      exact List.perm_middle.symm
    · exact ⟨again, by rw [List.length_cons, List.length_cons]; omega, perm.cons _⟩

variable {fields : List (String × Value)} {places : List Nat}

/-- The places of a record are those that are read and those that are not. -/
theorem range_perm (within : ∀ place ∈ places, place < fields.length) :
    (List.range fields.length).Perm
      (firstReads [] places ++ (List.range fields.length).filter fun place => place ∉ places) := by
  have read : (firstReads [] places).Perm
      ((List.range fields.length).filter fun place => place ∈ places) := by
    refine (List.perm_ext_iff_of_nodup (nodup_firstReads _ _) (List.nodup_range.filter _)).2
      fun place => ?_
    simpa [mem_firstReads] using within place
  have apart := (List.filter_append_perm (fun place => decide (place ∈ places))
    (List.range fields.length)).symm
  simp only [← decide_not] at apart
  exact apart.trans (read.symm.append_right _)

/-- The cells of places that are not read. -/
def unread (fields : List (String × Value)) (places : List Nat) : List Value :=
  ((List.range fields.length).filter fun place => place ∉ places).map (cellAt fields)

/-- As many cells are read as there are, so what is read again makes up for what is not read. -/
theorem cells_perm (within : ∀ place ∈ places, place < fields.length)
    (asMany : places.length = fields.length) :
    ∃ read : List Value, (fields.map (·.2)).Perm (read ++ unread fields places)
      ∧ (cellsRead fields [] places).Perm
          (read ++ List.replicate (unread fields places).length .null) := by
  obtain ⟨again, length, perm⟩ := cellsRead_perm fields [] places
  have range := range_perm within
  have count := range.length_eq
  rw [List.length_range, List.length_append] at count
  refine ⟨(firstReads [] places).map (cellAt fields), ?_, ?_⟩
  · rw [← map_cellAt fields, unread, ← List.map_append]
    exact range.map _
  · have same : again = (unread fields places).length := by
      rw [unread, List.length_map]
      omega
    exact same ▸ perm

/-! ## 4. Conservation -/

/-- The fields of a record are conserved: each one of the result is the extraction of a raw field of its
own, and no raw field is left over. -/
def Conserved (r : Registry) (listed : List (String × String)) (fields result : List (String × Value)) :
    Prop :=
  ∃ own : List Value, own.Perm (fields.map (·.2)) ∧ RebuiltFrom r listed own result

/-- The number of fields that are NULL. -/
def nulls (fields : List (String × Value)) : Nat := fields.countP (·.2.isNull)

variable {r : Registry} {listed : List (String × String)} {result : List (String × Value)}

/-- NULL comes of NULL, and of nothing else. -/
theorem isNull_of_extract {t : String} {v w : Value} (ok : extract r t v = .ok w) :
    w.isNull = v.isNull := by
  cases extracts_of_extract ok with
  | null | standard => rfl
  | enumeration _ notNull read =>
    obtain ⟨definition, label, -, -, -, rfl⟩ := extractEnum_eq_ok.1 read
    exact notNull.symm
  | dynamic _ notNull read =>
    obtain ⟨tag, content, host, -, rfl, -⟩ := exists_of_extractDynamic read
    exact notNull.symm
  | record | array => rfl

/-- A result has as many NULLs as the cells that it is rebuilt from. -/
theorem RebuiltFrom.nulls_eq {cells : List Value} (h : RebuiltFrom r listed cells result)
    (length : cells.length = listed.length) : nulls result = cells.countP Value.isNull := by
  induction listed generalizing cells result with
  | nil =>
    cases List.length_eq_zero_iff.1 length
    cases h
    rfl
  | cons a others ih =>
    obtain _ | ⟨cell, cells⟩ := cells
    · cases length
    rw [RebuiltFrom, List.zip_cons_cons] at h
    obtain _ | ⟨⟨-, first⟩, rest⟩ := h
    have behind := ih rest (Nat.succ.inj length)
    rw [nulls] at behind ⊢
    rw [List.countP_cons, List.countP_cons, behind, isNull_of_extract first]

/-- Where fields are conserved there is no NULL that was not there before. -/
theorem Conserved.nulls_eq (h : Conserved r listed fields result)
    (length : fields.length = listed.length) : nulls result = nulls fields := by
  obtain ⟨own, perm, rebuilt⟩ := h
  have count : own.length = listed.length := by rw [perm.length_eq, List.length_map, length]
  rw [rebuilt.nulls_eq count, perm.countP_eq, List.countP_map]
  rfl

theorem countP_replicate_null (n : Nat) : (List.replicate n Value.null).countP Value.isNull = n := by
  rw [List.countP_replicate, if_pos (show Value.null.isNull = true from rfl)]

theorem eq_null_of_isNull {v : Value} (h : v.isNull = true) : v = .null := by
  cases v <;> first | rfl | cases h

/-- A result that is rebuilt from places has its fields conserved if and only if what is not read is NULL,
and if and only if there are no more NULLs than before. -/
theorem conserved_iff (within : ∀ place ∈ places, place < fields.length)
    (asMany : places.length = fields.length) (length : fields.length = listed.length)
    (rebuilt : RebuiltFrom r listed (cellsRead fields [] places) result) :
    (Conserved r listed fields result ↔ ∀ v ∈ unread fields places, v = .null)
      ∧ (nulls result = nulls fields ↔ ∀ v ∈ unread fields places, v = .null) := by
  obtain ⟨read, before, after⟩ := cells_perm within asMany
  have counted : nulls result = nulls fields ↔ ∀ v ∈ unread fields places, v = .null := by
    have cells : (cellsRead fields [] places).length = listed.length := by
      rw [after.length_eq, List.length_append, List.length_replicate, ← List.length_append,
        ← before.length_eq, List.length_map, length]
    have own : nulls fields = (fields.map (·.2)).countP Value.isNull := by
      rw [List.countP_map]
      rfl
    rw [rebuilt.nulls_eq cells, own, before.countP_eq, after.countP_eq, List.countP_append,
      List.countP_append, countP_replicate_null, Nat.add_left_cancel_iff, eq_comm,
      List.countP_eq_length]
    exact forall₂_congr fun v _ => ⟨eq_null_of_isNull, fun same => same ▸ rfl⟩
  refine ⟨⟨fun conserved => counted.1 (conserved.nulls_eq length), fun none => ?_⟩, counted⟩
  have same : unread fields places = List.replicate (unread fields places).length .null :=
    List.eq_replicate_iff.2 ⟨rfl, none⟩
  rw [← same] at after
  exact ⟨_, after.trans before.symm, rebuilt⟩

/-! ## 5. Names -/

/-- No attribute that has no field of its name stands in the place of another attribute's field. -/
def Uncontended (attrs names : List String) : Prop :=
  ∀ position attr, attrs[position]? = some attr → attr ∉ names →
    ∀ other ∈ attrs, names.idxOf other ≠ position

variable {names : List String}

theorem length_placesFrom (names : List String) (position : Nat) (listed : List (String × String)) :
    (placesFrom names position listed).length = listed.length := by
  rw [placesFrom, List.length_map, List.length_zipIdx]

theorem getElem?_placesFrom (names : List String) (position : Nat) (listed : List (String × String))
    (i : Nat) : (placesFrom names position listed)[i]?
      = (listed[i]?).map fun a => placeOf names a.1 (position + i) := by
  rw [placesFrom, List.getElem?_map, List.getElem?_zipIdx, Option.map_map]
  rfl

/-- Every attribute has a place in the record. -/
theorem placesFrom_within (length : names.length = listed.length) :
    ∀ place ∈ placesFrom names 0 listed, place < names.length := by
  intro place read
  obtain ⟨i, here⟩ := List.mem_iff_getElem?.1 read
  rw [getElem?_placesFrom] at here
  obtain ⟨a, found, rfl⟩ := Option.map_eq_some_iff.1 here
  obtain ⟨inRange, -⟩ := List.getElem?_eq_some_iff.1 found
  rw [placeOf]
  split
  · exact List.idxOf_lt_length_of_mem ‹_›
  · omega

/-- Two attributes that are read from one place are the same one, or one of them has no field of its name
and stands in the place of the other one's field. -/
theorem contended_of_placeOf_eq {one other : String} {i j : Nat}
    (same : placeOf names one i = placeOf names other j) :
    one = other ∨ i = j ∨ one ∉ names ∧ names.idxOf other = i ∨ other ∉ names ∧ names.idxOf one = j := by
  unfold placeOf at same
  by_cases first : one ∈ names <;> by_cases second : other ∈ names
  · rw [if_pos first, if_pos second, List.idxOf_inj first] at same
    exact .inl same
  · rw [if_pos first, if_neg second] at same
    exact .inr (.inr (.inr ⟨second, same⟩))
  · rw [if_neg first, if_pos second] at same
    exact .inr (.inr (.inl ⟨first, same.symm⟩))
  · rw [if_neg first, if_neg second] at same
    exact .inr (.inl same)

theorem nodup_placesFrom (distinct : (listed.map (·.1)).Nodup)
    (uncontended : Uncontended (listed.map (·.1)) names) : (placesFrom names 0 listed).Nodup := by
  rw [List.nodup_iff_getElem?_ne_getElem?]
  intro i j before inRange same
  rw [length_placesFrom] at inRange
  have here := before.trans inRange
  rw [getElem?_placesFrom, getElem?_placesFrom, List.getElem?_eq_getElem inRange,
    List.getElem?_eq_getElem here, Option.map_some, Option.map_some, Option.some.injEq, Nat.zero_add,
    Nat.zero_add] at same
  have nth : ∀ k (hk : k < listed.length), (listed.map (·.1))[k]? = some (listed[k]).1 :=
    fun k hk => by simp [hk]
  have member : ∀ k (hk : k < listed.length), (listed[k]).1 ∈ listed.map (·.1) :=
    fun k hk => List.mem_of_getElem? (nth k hk)
  rcases contended_of_placeOf_eq same with twice | own | ⟨unnamed, taken⟩ | ⟨unnamed, taken⟩
  · have apart := List.nodup_iff_getElem?_ne_getElem?.1 distinct i j before (by simpa using inRange)
    rw [nth i here, nth j inRange, twice] at apart
    exact apart rfl
  · exact absurd own (Nat.ne_of_lt before)
  · exact uncontended i _ (nth i here) unnamed _ (member j inRange) taken
  · exact uncontended j _ (nth j inRange) unnamed _ (member i here) taken

theorem uncontended_of_nodup (length : names.length = listed.length)
    (own : (placesFrom names 0 listed).Nodup) : Uncontended (listed.map (·.1)) names := by
  intro position attr here unnamed other listedToo taken
  obtain ⟨a, found, rfl⟩ := Option.map_eq_some_iff.1 ((List.getElem?_map ..).symm.trans here)
  obtain ⟨o, inside, rfl⟩ := List.mem_map.1 listedToo
  obtain ⟨i, found'⟩ := List.mem_iff_getElem?.1 inside
  obtain ⟨inRange, -⟩ := List.getElem?_eq_some_iff.1 found
  -- the place is in the record, so the other attribute has a field of its name there
  have named : o.1 ∈ names := List.idxOf_lt_length_iff.1 (by omega)
  have same : (placesFrom names 0 listed)[position]? = (placesFrom names 0 listed)[i]? := by
    rw [getElem?_placesFrom, getElem?_placesFrom, found, found', Option.map_some, Option.map_some,
      placeOf, placeOf, if_neg unnamed, if_pos named, taken, Nat.zero_add]
  rw [List.getElem?_inj (by rwa [length_placesFrom]) own] at same
  rw [← same, found, Option.some.injEq] at found'
  exact unnamed (found' ▸ named)

/-- Attributes of different names have places of their own if and only if none is contended. -/
theorem nodup_placesFrom_iff (length : names.length = listed.length)
    (distinct : (listed.map (·.1)).Nodup) :
    (placesFrom names 0 listed).Nodup ↔ Uncontended (listed.map (·.1)) names :=
  ⟨uncontended_of_nodup length, nodup_placesFrom distinct⟩

/-- As many places as fields are all the places if and only if they differ. -/
theorem unread_eq_nil_iff (within : ∀ place ∈ places, place < fields.length)
    (asMany : places.length = fields.length) : unread fields places = [] ↔ places.Nodup := by
  have all : unread fields places = [] ↔ List.range fields.length ⊆ places := by
    rw [unread, List.map_eq_nil_iff, List.filter_eq_nil_iff]
    exact forall₂_congr fun place _ => by simp
  have inRange : places ⊆ List.range fields.length := fun place read =>
    List.mem_range.2 (within place read)
  rw [all]
  refine ⟨fun covered => ?_, fun own => ?_⟩
  · have perm := (List.subperm_of_subset List.nodup_range covered).perm_of_length_le (by simp [asMany])
    exact perm.nodup_iff.1 List.nodup_range
  · exact ((List.subperm_of_subset own inRange).perm_of_length_le (by simp [asMany])).symm.subset

/-! ## 6. Records -/

/-- **When a record conserves its fields.** Whatever the fields of a raw record are called, the record
that is extracted under a composite type is rebuilt from the cells at the places of its attributes, a
place that is read again giving NULL. Its fields are conserved if and only if every field that is not read
is NULL, and if and only if there are no more NULLs than before. All fields are read, whatever their
values are, if and only if no attribute without a field of its name stands in the place of another
attribute's field. -/
theorem rebuilt_conserves_iff (distinct : r.DistinctAttributes) {t other : String} {w : Value}
    (category : r.category t = .composite) (ok : extract r t (.record other fields) = .ok w) :
    ∃ definition result, r.compositeDefinition t = .ok definition
      ∧ fields.length = definition.attributes.length ∧ w = .record definition.typeName result
      ∧ RebuiltFrom r definition.attributes
          (cellsRead fields [] (placesFrom (fields.map (·.1)) 0 definition.attributes)) result
      ∧ (Conserved r definition.attributes fields result
          ↔ ∀ v ∈ unread fields (placesFrom (fields.map (·.1)) 0 definition.attributes), v = .null)
      ∧ (Conserved r definition.attributes fields result ↔ nulls result = nulls fields)
      ∧ (unread fields (placesFrom (fields.map (·.1)) 0 definition.attributes) = []
          ↔ Uncontended (definition.attributes.map (·.1)) (fields.map (·.1))) := by
  obtain ⟨definition, result, known, complete, each, rfl⟩ := exists_of_extract_record category ok
  have length : (fields.map (·.1)).length = definition.attributes.length := by
    rw [List.length_map, complete]
  have within := placesFrom_within length
  have asMany := length_placesFrom (fields.map (·.1)) 0 definition.attributes
  rw [List.length_map] at within
  rw [← complete] at asMany
  have rebuilt := rebuiltFrom_cellsRead (leftOf_self fields) (by omega) each
  obtain ⟨conserved, counted⟩ := conserved_iff within asMany complete rebuilt
  exact ⟨definition, result, known, complete, rfl, rebuilt, conserved, conserved.trans counted.symm,
    (unread_eq_nil_iff within asMany).trans
      (nodup_placesFrom_iff length (distinct t definition (compositeDefinition_eq_ok known)))⟩

/-- A spot whose label has a field without a name, and whose moods have one of theirs. -/
def halfNamed : List (String × Value) := [("", .text "pier"), ("moods", .array [.text "calm", .null])]

theorem rebuilt_conserves_iff_spots :
    spots.DistinctAttributes ∧ spots.category "spot" = .composite
      ∧ ∃ result, extract spots "spot" (.record "" halfNamed) = .ok (.record "spot" result)
        ∧ Conserved spots [("label", "text"), ("moods", "_mood")] halfNamed result := by
  have category : spots.category "spot" = .composite := by decide +kernel
  have succeeds : (extract spots "spot" (.record "" halfNamed)).toOption.isSome = true := by cbv
  refine ⟨Expansion.distinctAttributes_spots, category, ?_⟩
  cases ok : extract spots "spot" (.record "" halfNamed) with
  | error e =>
    rw [ok] at succeeds
    cases succeeds
  | ok w =>
    obtain ⟨definition, result, known, -, rfl, -, conserved, -, -⟩ :=
      rebuilt_conserves_iff Expansion.distinctAttributes_spots category ok
    have own : spots.compositeDefinition "spot"
        = .ok ⟨"spot", [("label", "text"), ("moods", "_mood")], none⟩ := rfl
    obtain rfl := Except.ok.inj (own.symm.trans known)
    have allRead : unread halfNamed (placesFrom ["", "moods"] 0 [("label", "text"), ("moods", "_mood")])
        = [] := rfl
    exact ⟨result, rfl, conserved.2 fun v left => absurd (allRead ▸ left) List.not_mem_nil⟩

/-- A store with a record type of two numbers. -/
def pairs : Registry :=
  (RegistryBuilder.empty.withCatalog ⟨[], [("pair", [("a", "int4"), ("b", "int4")])], []⟩).start
    |>.withDynamicComposite |>.withArrays

/-- The field of the second attribute, in the place of the first, and one without a name. -/
def misplaced : List (String × Value) := [("b", .int32 1), ("x", .int32 2)]

/-- The field of the second attribute is read for the first one too, the second one has NULL, and the other
field is dropped. -/
theorem rebuilding_loses_field :
    pairs.Built ∧ pairs.DistinctAttributes
      ∧ extract pairs "pair" (.record "pair" misplaced)
          = .ok (.record "pair" [("a", .int32 1), ("b", .null)])
      ∧ ¬ Conserved pairs [("a", "int4"), ("b", "int4")] misplaced [("a", .int32 1), ("b", .null)] := by
  refine ⟨.of_catalog rfl rfl rfl (by decide +kernel), Dict.all_of_entries (by decide +kernel), by cbv,
    fun conserved => absurd (conserved.nulls_eq rfl) (by decide +kernel)⟩

end TypedStore.Extraction
