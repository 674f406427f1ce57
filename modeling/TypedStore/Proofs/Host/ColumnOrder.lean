/-
The order of named columns and fields. A row type takes its columns by their labels, so what it makes of a
row depends on the cells that the labels find and on nothing else (`convertColumns_congr`), and a row of
distinct labels finds the same cells in every order. The attributes of a record are taken by name, where
all of them are named, so its fields may stand in any order as well (`extract_of_perm`).
-/
import Mathlib.Data.List.Perm.Basic
import TypedStore.Host.Conversion
import TypedStore.Proofs.Expansion.Conservation
import TypedStore.Proofs.Extraction.Failing
import TypedStore.Proofs.Extraction.Retraction
import TypedStore.Proofs.Plan.Spreading

set_option autoImplicit false

namespace TypedStore

open TypedStore.Extraction

/-! ## 1. Cells by label -/

namespace Row

/-- A row without the cell that a label finds. -/
def without (row : Row) (label : String) : Row :=
  match row.position? label with
  | some i => { row with values := row.values.set i .null }
  | none => row

theorem take?_eq (row : Row) (label : String) :
    row.take? label = (row.get? label).map fun v => (v, row.without label) := by
  rw [take?, get?, without]
  cases row.position? label with
  | none => rfl
  | some i =>
    cases at_ : row.values[i]? <;> simp [at_]

/-- A cell that was taken is NULL, and all others are as before. -/
theorem get?_without (row : Row) (label other : String) :
    (row.without label).get? other
      = if label = other then (row.get? other).map fun _ => .null else row.get? other := by
  rw [without]
  cases place : row.position? label with
  | none =>
    by_cases same : label = other
    · rw [if_pos same, ← same, get?, place]
      rfl
    · rw [if_neg same]
  | some i =>
    -- the labels are as before, so every label has its old place
    have places : get? { row with values := row.values.set i .null } other
        = (row.position? other).bind fun j => (row.values.set i .null)[j]? := rfl
    rw [places, get?]
    by_cases same : label = other
    · rw [if_pos same, ← same, place, Option.bind_some, Option.bind_some, List.getElem?_set_self']
      rfl
    · rw [if_neg same]
      cases other' : row.position? other with
      | none => rfl
      | some j =>
        have apart : i ≠ j := by
          rintro rfl
          obtain ⟨_, here, _⟩ := List.findIdx?_eq_some_iff_getElem.1 place
          obtain ⟨_, there, _⟩ := List.findIdx?_eq_some_iff_getElem.1 other'
          exact same ((eq_of_beq here).symm.trans (eq_of_beq there))
        rw [Option.bind_some, Option.bind_some, List.getElem?_set_ne apart]

end Row

namespace Declarations

/-- What a row type makes of a row depends only on the cells that its columns find. The induction is on
the fields; taking a cell changes what its own label finds, in both rows alike. -/
theorem convertColumns_congr (ds : Declarations) (target : String) {fields : List FieldDeclaration}
    {row row' : Row} (alike : ∀ f ∈ fields, row.get? f.attr = row'.get? f.attr) :
    ds.convertColumns target fields row = ds.convertColumns target fields row' := by
  induction fields generalizing row row' with
  | nil => rfl
  | cons f others ih =>
    have own := alike f List.mem_cons_self
    have behind : ∀ g ∈ others, row.get? g.attr = row'.get? g.attr := fun g mem =>
      alike g (List.mem_cons_of_mem _ mem)
    have left : ds.convertColumns target others (row.without f.attr)
        = ds.convertColumns target others (row'.without f.attr) := by
      refine ih fun g mem => ?_
      rw [Row.get?_without, Row.get?_without, behind g mem]
    rw [convertColumns, convertColumns, Row.take?_eq, Row.take?_eq, own, ih behind]
    cases row'.get? f.attr with
    | none => rfl
    | some v => simp only [Option.map_some, left]

end Declarations

/-! ## 2. Columns -/

/-- A column of a row: its label, its store type and its cell. -/
structure Column where
  label : String
  type : String
  value : Value

/-- The row of columns. -/
def Row.ofColumns (columns : List Column) : Row :=
  ⟨columns.map (·.label), columns.map (·.type), columns.map (·.value)⟩

/-- Whether a column is another one with its cell extracted. -/
def Column.Extracts (r : Registry) (raw column : Column) : Prop :=
  column.label = raw.label ∧ column.type = raw.type ∧ extract r raw.type raw.value = .ok column.value

variable {r : Registry}

theorem labels_of_extracts {raw columns : List Column}
    (each : List.Forall₂ (Column.Extracts r) raw columns) :
    columns.map (·.label) = raw.map (·.label) ∧ columns.map (·.type) = raw.map (·.type) := by
  induction each with
  | nil => exact ⟨rfl, rfl⟩
  | cons first _ ih =>
    simp only [List.map_cons, first.1, first.2.1, ih.1, ih.2, and_self]

/-- The cells of a row are extracted one by one, each under its own type. -/
theorem extractCells_eq_ok_iff {types : List String} {position : Nat} {raw : List Column}
    (typed : types.drop position = raw.map (·.type)) (values : List Value) :
    extractCells r types position (raw.map (·.value)) = .ok values
      ↔ ∃ columns, List.Forall₂ (Column.Extracts r) raw columns ∧ values = columns.map (·.value) := by
  induction raw generalizing position values with
  | nil =>
    rw [List.map_nil, extractCells]
    constructor
    · intro ok
      cases ok
      exact ⟨[], .nil, rfl⟩
    · rintro ⟨columns, each, rfl⟩
      cases each
      rfl
  | cons c rest ih =>
    have first : types[position]? = some c.type := by
      rw [← List.head?_drop, typed]
      rfl
    have behind : types.drop (position + 1) = rest.map (·.type) := by
      rw [← List.tail_drop, typed]
      rfl
    rw [List.map_cons, extractCells, first]
    dsimp only
    cases extracted : extract r c.type c.value with
    | error e =>
      constructor
      · intro ok
        cases ok
      · rintro ⟨_, each, -⟩
        cases each with
        | cons one _ =>
          rw [one.2.2] at extracted
          cases extracted
    | ok v =>
      constructor
      · intro ok
        obtain ⟨_, one, ok⟩ := bind_eq_ok_iff.1 ok
        cases one
        obtain ⟨others, more, same⟩ := bind_eq_ok_iff.1 ok
        cases same
        obtain ⟨columns, each, rfl⟩ := (ih behind others).1 more
        exact ⟨⟨c.label, c.type, v⟩ :: columns, .cons ⟨rfl, rfl, extracted⟩ each, rfl⟩
      · rintro ⟨_, each, rfl⟩
        cases each with
        | cons one each =>
          obtain rfl := Except.ok.inj (extracted.symm.trans one.2.2)
          rw [(ih behind _).2 ⟨_, each, rfl⟩]
          rfl

/-- Columns whose cells can be extracted are extracted together. -/
theorem exists_extracts {raw : List Column} (clean : ∀ c ∈ raw, ∃ v, extract r c.type c.value = .ok v) :
    ∃ columns, List.Forall₂ (Column.Extracts r) raw columns := by
  induction raw with
  | nil => exact ⟨[], .nil⟩
  | cons c rest ih =>
    obtain ⟨v, own⟩ := clean c List.mem_cons_self
    obtain ⟨columns, each⟩ := ih fun other mem => clean other (List.mem_cons_of_mem _ mem)
    exact ⟨⟨c.label, c.type, v⟩ :: columns, .cons ⟨rfl, rfl, own⟩ each⟩

/-- A row is extracted column by column. -/
theorem extractRow_ofColumns_iff (raw : List Column) (row : Row) :
    extractRow r (.ofColumns raw) = .ok row
      ↔ ∃ columns, List.Forall₂ (Column.Extracts r) raw columns ∧ row = .ofColumns columns := by
  have typed : (raw.map (·.type)).drop 0 = raw.map (·.type) := List.drop_zero
  have cells := extractCells_eq_ok_iff (r := r) typed
  have built : ∀ {columns : List Column}, List.Forall₂ (Column.Extracts r) raw columns →
      Row.ofColumns columns = { Row.ofColumns raw with values := columns.map (·.value) } := fun each => by
    rw [Row.ofColumns, Row.ofColumns, (labels_of_extracts each).1, (labels_of_extracts each).2]
  constructor
  · intro ok
    rw [extractRow] at ok
    split at ok
    · rename_i values extracted
      cases ok
      obtain ⟨columns, each, rfl⟩ := (cells values).1 extracted
      exact ⟨columns, each, (built each).symm⟩
    · cases ok
  · rintro ⟨columns, each, rfl⟩
    have extracted : extractCells r (Row.ofColumns raw).types 0 (Row.ofColumns raw).values
        = .ok (columns.map (·.value)) := (cells _).2 ⟨columns, each, rfl⟩
    rw [extractRow, extracted, built each]

/-- Where keys are distinct, the first entry of a key is its only one. -/
theorem entryValue?_eq_some_iff {α : Type} {entries : List (String × α)}
    (distinct : (entries.map (·.1)).Nodup) (key : String) (v : α) :
    entryValue? key entries = some v ↔ (key, v) ∈ entries := by
  refine ⟨mem_of_entryValue?, fun mem => ?_⟩
  induction entries with
  | nil => cases mem
  | cons entry rest ih =>
    rw [List.map_cons, List.nodup_cons] at distinct
    rcases List.mem_cons.1 mem with rfl | mem
    · exact if_pos rfl
    · have other : entry.1 ≠ key := fun same => distinct.1 (same ▸ List.mem_map_of_mem mem)
      rw [entryValue?, if_neg other]
      exact ih distinct.2 mem

/-- Where labels are distinct, a label finds the cell of the column that has it. -/
theorem Row.get?_ofColumns_eq_some_iff {columns : List Column}
    (distinct : (columns.map (·.label)).Nodup) (label : String) (v : Value) :
    (Row.ofColumns columns).get? label = some v ↔ ∃ c ∈ columns, c.label = label ∧ c.value = v := by
  have pairs : (Row.ofColumns columns).columns = columns.map fun c => (c.label, c.value) :=
    List.zip_map'
  have distinct' : ((Row.ofColumns columns).columns.map (·.1)).Nodup := by
    rwa [pairs, List.map_map]
  rw [← get?_columns, entryValue?_eq_some_iff distinct', pairs, List.mem_map]
  simp only [Prod.mk.injEq]

/-! ## 3. Fields by name -/

theorem fieldValue?_eq (name : String) (fields : List (String × Value)) :
    fieldValue? name fields = entryValue? name fields := by
  induction fields with
  | nil => rfl
  | cons field rest ih => rw [fieldValue?, entryValue?, ih]

/-- Where names are distinct, fields find the same values in every order. -/
theorem fieldValue?_perm {fields fields' : List (String × Value)}
    (distinct : (fields.map (·.1)).Nodup) (same : fields'.Perm fields) (name : String) :
    fieldValue? name fields' = fieldValue? name fields := by
  have distinct' : (fields'.map (·.1)).Nodup := (same.map _).nodup_iff.2 distinct
  rw [fieldValue?_eq, fieldValue?_eq]
  refine Option.ext fun v => ?_
  rw [entryValue?_eq_some_iff distinct', entryValue?_eq_some_iff distinct, same.mem_iff]

namespace Extraction

/-- A field that has the name is taken, wherever it stands. -/
theorem takeFieldOrAt?_of_named {name : String} {fields : List (String × Value)} {v : Value}
    (named : fieldValue? name fields = some v) (position : Nat) :
    takeFieldOrAt? name position fields = some (v, blankField name fields) := by
  rw [takeFieldOrAt?, takeField?, named]
  rfl

/-- Attributes that all have fields are extracted alike from fields that find the same values. -/
theorem extractFields_congr {definition : CompositeDefinition} {listed : List (String × String)}
    {position : Nat} {fields fields' : List (String × Value)} (distinct : (listed.map (·.1)).Nodup)
    (named : ∀ a ∈ listed, ∃ v, fieldValue? a.1 fields = some v ∧ fieldValue? a.1 fields' = some v)
    (result : List (String × Value)) :
    extractFields r definition position listed fields' = .ok result
      ↔ extractFields r definition position listed fields = .ok result := by
  induction listed generalizing position fields fields' result with
  | nil => rw [extractFields, extractFields]
  | cons a others ih =>
    obtain ⟨attr, attrType⟩ := a
    rw [List.map_cons, List.nodup_cons] at distinct
    obtain ⟨v, found, found'⟩ := named _ List.mem_cons_self
    have behind : ∀ a ∈ others, ∃ v, fieldValue? a.1 (blankField attr fields) = some v
        ∧ fieldValue? a.1 (blankField attr fields') = some v := by
      intro a mem
      rw [fieldValue?_behind distinct.1 fields a mem, fieldValue?_behind distinct.1 fields' a mem]
      exact named a (List.mem_cons_of_mem _ mem)
    rw [extractFields_cons (attributeCell_of_some (takeFieldOrAt?_of_named found position)),
      extractFields_cons (attributeCell_of_some (takeFieldOrAt?_of_named found' position))]
    simp only [ih distinct.2 behind]

variable {t : String} {definition : CompositeDefinition} {fields fields' : List (String × Value)}

/-- A record has its attributes for its fields, in some order. -/
structure Attributed (definition : CompositeDefinition) (fields : List (String × Value)) : Prop where
  named : (fields.map (·.1)).Perm (definition.attributes.map (·.1))
  distinct : (definition.attributes.map (·.1)).Nodup

namespace Attributed

theorem nodup (own : Attributed definition fields) : (fields.map (·.1)).Nodup :=
  own.named.nodup_iff.2 own.distinct

theorem reorder (own : Attributed definition fields) (same : fields'.Perm fields) :
    Attributed definition fields' :=
  ⟨(same.map _).trans own.named, own.distinct⟩

theorem exists_value (own : Attributed definition fields) {name : String}
    (mem : name ∈ definition.attributes.map (·.1)) : ∃ v, fieldValue? name fields = some v :=
  exists_fieldValue? (own.named.mem_iff.2 mem)

/-- The attributes of a record are extracted alike in every order of its fields. -/
theorem extractFields_iff (own : Attributed definition fields) (same : fields'.Perm fields)
    (result : List (String × Value)) :
    extractFields r definition 0 definition.attributes fields' = .ok result
      ↔ extractFields r definition 0 definition.attributes fields = .ok result := by
  refine extractFields_congr own.distinct (fun a mem => ?_) result
  obtain ⟨v, found⟩ := own.exists_value (List.mem_map_of_mem mem)
  exact ⟨v, found, (fieldValue?_perm own.nodup same a.1).trans found⟩

end Attributed

/-- Tag and document are found by their names, whatever the order of the fields. -/
theorem tagAndPayload_eq_ok_iff {typeName : String} {cell payload : Value}
    (tagged : fieldValue? dynamicTagAttribute fields = some cell)
    (carried : fieldValue? dynamicPayloadAttribute fields = some payload) (found : String × Value) :
    tagAndPayload typeName fields = .ok found ↔ ∃ tag, cell = .text tag ∧ found = (tag, payload) := by
  have apart : dynamicTagAttribute ≠ dynamicPayloadAttribute := by decide
  have behind : fieldValue? dynamicPayloadAttribute (blankField dynamicTagAttribute fields)
      = some payload := by
    rw [fieldValue?_blankField_of_ne apart, carried]
  simp only [tagAndPayload, takeFieldOrAt?_of_named tagged, takeFieldOrAt?_of_named behind]
  cases cell with
  | text tag =>
    constructor
    · intro ok
      cases ok
      exact ⟨tag, rfl, rfl⟩
    · rintro ⟨_, same, rfl⟩
      cases same
      rfl
  | _ =>
    constructor
    · intro ok
      cases ok
    · rintro ⟨_, same, -⟩
      cases same

/-- A self describing value comes of a record in every order of its fields. -/
theorem extractDynamic_of_perm {typeName typeName' : String} {w : Value}
    (own : Attributed definition fields)
    (carries : [dynamicTagAttribute, dynamicPayloadAttribute] ⊆ definition.attributes.map (·.1))
    (same : fields'.Perm fields) (ok : extractDynamic r (.record typeName fields) = .ok w) :
    extractDynamic r (.record typeName' fields') = .ok w := by
  obtain ⟨cell, tagged⟩ := own.exists_value (carries List.mem_cons_self)
  obtain ⟨payload, carried⟩ := own.exists_value (carries (List.mem_cons_of_mem _ List.mem_cons_self))
  rw [extractDynamic] at ok ⊢
  obtain ⟨pair, parts, ok⟩ := bind_eq_ok_iff.1 ok
  have tagged' := (fieldValue?_perm own.nodup same dynamicTagAttribute).trans tagged
  have carried' := (fieldValue?_perm own.nodup same dynamicPayloadAttribute).trans carried
  have parts' : tagAndPayload typeName' fields' = .ok pair :=
    (tagAndPayload_eq_ok_iff tagged' carried' pair).2 ((tagAndPayload_eq_ok_iff tagged carried pair).1 parts)
  rw [parts']
  exact ok

theorem category_ne_standard (known : r.composites.get? t = some definition) :
    r.category t ≠ .standard := by
  have listed : r.composites.contains t = true := by rw [Dict.contains, known]; rfl
  rw [Registry.category, listed]
  split
  · intro same
    cases same
  · split <;> (intro same; cases same)

/-- What is extracted from a record is extracted from it in every order of its fields. -/
theorem extract_of_perm (known : r.compositeDefinition t = .ok definition)
    (own : Attributed definition fields)
    (carries : t = r.dynamicType →
      [dynamicTagAttribute, dynamicPayloadAttribute] ⊆ definition.attributes.map (·.1))
    (same : fields'.Perm fields) {typeName typeName' : String} {w : Value}
    (ok : extract r t (.record typeName fields) = .ok w) :
    extract r t (.record typeName' fields') = .ok w := by
  have classified := r.classified t
  cases category : r.category t with
  | standard => exact absurd category (category_ne_standard (compositeDefinition_eq_ok known))
  | enumeration =>
    rw [extract_enumeration category rfl] at ok
    obtain ⟨_, _, -, spelled, -⟩ := extractEnum_eq_ok.1 ok
    cases spelled
  | array =>
    have notNull : (Value.record typeName fields).isNull = false := rfl
    rw [extract, if_neg (by rw [notNull]; decide), category] at ok
    dsimp only at ok
    split at ok <;> cases ok
  | dynamic =>
    rw [category] at classified
    obtain ⟨self⟩ := classified
    rw [extract_dynamic category rfl] at ok ⊢
    exact extractDynamic_of_perm own (carries self) same ok
  | composite =>
    obtain ⟨definition', result, known', complete, each, rfl⟩ := exists_of_extract_record category ok
    obtain rfl := Except.ok.inj (known.symm.trans known')
    exact extract_record category known (same.length_eq.trans complete)
      ((own.extractFields_iff same _).2 each)

end Extraction

/-! ## 4. Rows and records in any order -/

/-- Extracts a row and maps it to a row type. -/
def mapRow (r : Registry) (ds : Declarations) (d : RowDeclaration) (row : Row) : Except Error HostValue :=
  (extractRow r row).bind (ds.ofRow d)

variable {ds : Declarations} {d : RowDeclaration}

theorem mapRow_ofColumns_iff (raw : List Column) (x : HostValue) :
    mapRow r ds d (.ofColumns raw) = .ok x
      ↔ ∃ columns, List.Forall₂ (Column.Extracts r) raw columns
        ∧ ds.ofRow d (.ofColumns columns) = .ok x := by
  constructor
  · intro ok
    obtain ⟨row, extracted, mapped⟩ := bind_eq_ok_iff.1 ok
    obtain ⟨columns, each, rfl⟩ := (extractRow_ofColumns_iff raw row).1 extracted
    exact ⟨columns, each, mapped⟩
  · rintro ⟨columns, each, mapped⟩
    rw [mapRow, (extractRow_ofColumns_iff raw _).2 ⟨columns, each, rfl⟩]
    exact mapped

/-- Columns in another order, and columns that no field asks for, are not seen by a row type. -/
theorem ofRow_of_perm {columns extra others : List Column} (distinct : (others.map (·.label)).Nodup)
    (same : others.Perm (columns ++ extra))
    (foreign : (extra.map (·.label)).Disjoint (d.fields.map (·.attr))) :
    ds.ofRow d (.ofColumns others) = ds.ofRow d (.ofColumns columns) := by
  have labels := (same.map (·.label)).nodup_iff.1 distinct
  rw [List.map_append] at labels
  have alike : ∀ f ∈ d.fields, (Row.ofColumns others).get? f.attr = (Row.ofColumns columns).get? f.attr := by
    refine fun f mem => Option.ext fun v => ?_
    rw [Row.get?_ofColumns_eq_some_iff distinct, Row.get?_ofColumns_eq_some_iff labels.of_append_left]
    constructor
    · rintro ⟨c, there, own, cell⟩
      rcases List.mem_append.1 (same.mem_iff.1 there) with here | other
      · exact ⟨c, here, own, cell⟩
      · exact absurd (List.mem_map_of_mem mem) (foreign (own ▸ List.mem_map_of_mem other))
    · rintro ⟨c, here, found⟩
      exact ⟨c, same.mem_iff.2 (List.mem_append_left _ here), found⟩
  rw [Declarations.ofRow, Declarations.ofRow, Declarations.convertColumns_congr ds d.path alike]

theorem exists_append_of_forall₂ {α β : Type} {R : α → β → Prop} {xs ys : List α} {zs : List β}
    (each : List.Forall₂ R (xs ++ ys) zs) :
    ∃ before behind, zs = before ++ behind ∧ List.Forall₂ R xs before ∧ List.Forall₂ R ys behind := by
  induction xs generalizing zs with
  | nil => exact ⟨[], zs, rfl, .nil, each⟩
  | cons x rest ih =>
    cases each with
    | cons first others =>
      obtain ⟨before, behind, rfl, front, back⟩ := ih others
      exact ⟨_ :: before, behind, rfl, .cons first front, back⟩

/-- **Order does not matter where names are given.** A row of distinct labels is mapped alike in every order
of its columns, with or without columns that no field asks for, as long as these can be extracted. And a
record that has its attributes for its fields is extracted alike in every order of them; the type of self
describing values is read by the names of tag and document, so these must be among its attributes. -/
theorem order_irrelevant (r : Registry) (ds : Declarations) (d : RowDeclaration) :
    (∀ columns extra others : List Column, (others.map (·.label)).Nodup → others.Perm (columns ++ extra) →
        (extra.map (·.label)).Disjoint (d.fields.map (·.attr)) →
        (∀ c ∈ extra, ∃ v, extract r c.type c.value = .ok v) →
        ∀ x, mapRow r ds d (.ofColumns others) = .ok x ↔ mapRow r ds d (.ofColumns columns) = .ok x)
      ∧ (r.DistinctAttributes → ∀ t definition fields fields' typeName typeName',
        r.compositeDefinition t = .ok definition →
        (t = r.dynamicType →
          [dynamicTagAttribute, dynamicPayloadAttribute] ⊆ definition.attributes.map (·.1)) →
        (fields.map (·.1)).Perm (definition.attributes.map (·.1)) → fields'.Perm fields →
        ∀ w, extract r t (.record typeName' fields') = .ok w
          ↔ extract r t (.record typeName fields) = .ok w) := by
  constructor
  · intro columns extra others distinct same foreign clean x
    have kept : ∀ {raw cs}, List.Forall₂ (Column.Extracts r) raw cs →
        cs.map (·.label) = raw.map (·.label) := fun each => (labels_of_extracts each).1
    rw [mapRow_ofColumns_iff, mapRow_ofColumns_iff]
    constructor
    · rintro ⟨all, each, mapped⟩
      obtain ⟨parts, each', perm⟩ := List.perm_comp_forall₂ same.symm each
      obtain ⟨before, behind, rfl, front, back⟩ := exists_append_of_forall₂ each'
      exact ⟨before, front, (ofRow_of_perm (kept each ▸ distinct) perm.symm (kept back ▸ foreign)) ▸ mapped⟩
    · rintro ⟨before, front, mapped⟩
      obtain ⟨behind, back⟩ := exists_extracts clean
      obtain ⟨all, each, perm⟩ := List.perm_comp_forall₂ same (List.rel_append front back)
      exact ⟨all, each, (ofRow_of_perm (kept each ▸ distinct) perm (kept back ▸ foreign)).trans mapped⟩
  · intro distinct t definition fields fields' typeName typeName' known carries named same w
    have own : Attributed definition fields :=
      ⟨named, distinct t definition (compositeDefinition_eq_ok known)⟩
    exact ⟨extract_of_perm known (own.reorder same) carries same.symm, extract_of_perm known own carries same⟩

/-- Visits of a spot: a number that is widened, a mood, and nothing of the spot itself. -/
def visit : RowDeclaration :=
  ⟨"Visit", [⟨"id", "id", .scalar .int64, none, none⟩,
    ⟨"mood", "mood", .optional (.scalar .text), none, none⟩]⟩

/-- The spot of a visit, with its fields in another order. -/
def namedSpot : Column := ⟨"spot", "spot", .record "" [("moods", .array []), ("label", .text "pier")]⟩

theorem order_irrelevant_visit :
    spots.DistinctAttributes
      ∧ extract spots "spot" namedSpot.value
        = .ok (.record "spot" [("label", .text "pier"), ("moods", .array [])])
      ∧ mapRow spots [] visit
          (.ofColumns [namedSpot, ⟨"mood", "mood", .text "calm"⟩, ⟨"id", "int4", .int32 7⟩])
        = .ok (.record [("id", .scalar (.int64 7)), ("mood", .present (.scalar (.text "calm")))]) := by
  have distinct := Expansion.distinctAttributes_spots
  obtain ⟨rows, records⟩ := order_irrelevant spots [] visit
  have known : spots.compositeDefinition "spot"
      = .ok ⟨"spot", [("label", "text"), ("moods", "_mood")], none⟩ := rfl
  have extracted : extract spots "spot" namedSpot.value
      = .ok (.record "spot" [("label", .text "pier"), ("moods", .array [])]) :=
    (records distinct "spot" _ [("label", .text "pier"), ("moods", .array [])] _ "" "" known
      (by decide) (.refl _) (.swap _ _ []) _).2 (by cbv)
  refine ⟨distinct, extracted, ?_⟩
  refine (rows [⟨"id", "int4", .int32 7⟩, ⟨"mood", "mood", .text "calm"⟩] [namedSpot] _ (by decide)
    (((List.Perm.swap _ _ []).cons _).trans (@List.perm_append_comm _ [namedSpot] _))
    (List.disjoint_left.2 (by decide)) ?_ _).2 (by cbv)
  intro c mem
  rw [List.mem_singleton.1 mem]
  exact ⟨_, extracted⟩

end TypedStore
