/-
What extraction does, as a relation. There is a raw cell to extract under a type, or the items of an
array, or the attributes of a record; a derivation says which values come of it. Extraction succeeds
with a value exactly when there is a derivation of it (`extracts_iff`), so what holds of all derivations,
by one induction over their rules, holds of every value that extraction gives.
-/
import TypedStore.Extraction

set_option autoImplicit false

namespace TypedStore.Extraction

/-! ## 1. Cells of attributes -/

/-- The cell of an attribute, by its name or at its position, and the fields that are left. An attribute
without a field has NULL. -/
def attributeCell (attr : String) (position : Nat) (fields : List (String × Value)) :
    Value × List (String × Value) :=
  (takeFieldOrAt? attr position fields).getD (.null, fields)

theorem attributeCell_of_some {attr : String} {position : Nat} {fields left : List (String × Value)}
    {v : Value} (taken : takeFieldOrAt? attr position fields = some (v, left)) :
    attributeCell attr position fields = (v, left) := by
  rw [attributeCell, taken, Option.getD_some]

theorem attributeCell_of_none {attr : String} {position : Nat} {fields : List (String × Value)}
    (absent : takeFieldOrAt? attr position fields = none) :
    attributeCell attr position fields = (.null, fields) := by
  rw [attributeCell, absent, Option.getD_none]

/-! ## 2. Derivations -/

/-- What there is to extract. -/
inductive Raw where
  | value (typeName : String) (v : Value)
  | items (arrayType elementType : String) (vs : List Value)
  | attributes (position : Nat) (listed : List (String × String)) (fields : List (String × Value))

/-- The values that come of raw cells: one of a cell, and one for each item or attribute. -/
inductive Extracts (r : Registry) : Raw → List Value → Prop where
  | null {t : String} : Extracts r (.value t .null) [.null]
  | standard {t : String} {v : Value} (category : r.category t = .standard) :
      Extracts r (.value t v) [v]
  | enumeration {t : String} {v w : Value} (category : r.category t = .enumeration)
      (notNull : v.isNull = false) (read : extractEnum r t v = .ok w) : Extracts r (.value t v) [w]
  | dynamic {t : String} {v w : Value} (category : r.category t = .dynamic)
      (notNull : v.isNull = false) (read : extractDynamic r v = .ok w) : Extracts r (.value t v) [w]
  | record {t other : String} {definition : CompositeDefinition} {fields : List (String × Value)}
      {values : List Value} (category : r.category t = .composite)
      (known : r.compositeDefinition t = .ok definition)
      (complete : fields.length = definition.attributes.length)
      (each : Extracts r (.attributes 0 definition.attributes fields) values) :
      Extracts r (.value t (.record other fields))
        [.record definition.typeName ((definition.attributes.map (·.1)).zip values)]
  | array {t element : String} {items values : List Value} (category : r.category t = .array)
      (known : r.arrayElement? t = some element) (each : Extracts r (.items t element items) values) :
      Extracts r (.value t (.array items)) [.array values]
  | noItems {t element : String} : Extracts r (.items t element []) []
  | nextItem {t element : String} {v w : Value} {rest values : List Value}
      (first : Extracts r (.value (itemType r t element v) v) [w])
      (others : Extracts r (.items t element rest) values) :
      Extracts r (.items t element (v :: rest)) (w :: values)
  | noAttributes {position : Nat} {fields : List (String × Value)} :
      Extracts r (.attributes position [] fields) []
  | nextAttribute {position : Nat} {attr attrType : String} {listed : List (String × String)}
      {v w : Value} {fields left : List (String × Value)} {values : List Value}
      (cell : attributeCell attr position fields = (v, left))
      (first : Extracts r (.value attrType v) [w])
      (others : Extracts r (.attributes (position + 1) listed left) values) :
      Extracts r (.attributes position ((attr, attrType) :: listed) fields) (w :: values)

/-! ## 3. Extraction under each category -/

variable {r : Registry} {t : String} {v w : Value}

theorem extract_null (r : Registry) (t : String) : extract r t .null = .ok .null := by
  rw [extract]
  rfl

theorem extract_standard (category : r.category t = .standard) : extract r t v = .ok v := by
  rw [extract, category]
  split <;> rfl

theorem extract_enumeration (category : r.category t = .enumeration) (notNull : v.isNull = false) :
    extract r t v = extractEnum r t v := by
  rw [extract, if_neg (by rw [notNull]; decide), category]

theorem extract_dynamic (category : r.category t = .dynamic) (notNull : v.isNull = false) :
    extract r t v = extractDynamic r v := by
  rw [extract, if_neg (by rw [notNull]; decide), category]

theorem extract_record {other : String} {definition : CompositeDefinition}
    {fields result : List (String × Value)} (category : r.category t = .composite)
    (known : r.compositeDefinition t = .ok definition)
    (complete : fields.length = definition.attributes.length)
    (each : extractFields r definition 0 definition.attributes fields = .ok result) :
    extract r t (.record other fields) = .ok (.record definition.typeName result) := by
  have notNull : (Value.record other fields).isNull = false := rfl
  rw [extract, if_neg (by rw [notNull]; decide), category, known]
  simp only [bind, Except.bind, ne_eq, complete, not_true, if_false, each]
  rfl

/-- A record that is extracted under a composite type has as many fields as the type has attributes. -/
theorem exists_of_extract_record {other : String} {fields : List (String × Value)}
    (category : r.category t = .composite)
    (ok : extract r t (.record other fields) = .ok w) :
    ∃ definition result, r.compositeDefinition t = .ok definition
      ∧ fields.length = definition.attributes.length
      ∧ extractFields r definition 0 definition.attributes fields = .ok result
      ∧ w = .record definition.typeName result := by
  have notNull : (Value.record other fields).isNull = false := rfl
  rw [extract, if_neg (by rw [notNull]; decide), category] at ok
  obtain ⟨definition, known, ok⟩ := bind_eq_ok_iff.1 ok
  dsimp only at ok
  split at ok
  · cases ok
  · rename_i complete
    obtain ⟨result, each, same⟩ := bind_eq_ok_iff.1 ok
    cases same
    exact ⟨definition, result, known, Decidable.not_not.1 complete, each, rfl⟩

theorem extract_array {element : String} {items values : List Value}
    (category : r.category t = .array) (known : r.arrayElement? t = some element)
    (each : extractItems r t element items = .ok values) :
    extract r t (.array items) = .ok (.array values) := by
  have notNull : (Value.array items).isNull = false := rfl
  rw [extract, if_neg (by rw [notNull]; decide), category]
  simp only [known, each]
  rfl

/-- An attribute is extracted from its cell, whether it has a field or not. -/
theorem extractFields_cons {definition : CompositeDefinition} {position : Nat} {attr attrType : String}
    {listed : List (String × String)} {fields left result : List (String × Value)}
    (cell : attributeCell attr position fields = (v, left)) :
    extractFields r definition position ((attr, attrType) :: listed) fields = .ok result
      ↔ ∃ w rest, extract r attrType v = .ok w
        ∧ extractFields r definition (position + 1) listed left = .ok rest
        ∧ result = (attr, w) :: rest := by
  rw [extractFields]
  split
  · rename_i absent
    rw [attributeCell_of_none absent] at cell
    obtain ⟨rfl, rfl⟩ := Prod.mk.inj cell
    constructor
    · intro ok
      obtain ⟨rest, others, same⟩ := bind_eq_ok_iff.1 ok
      cases same
      exact ⟨.null, rest, extract_null r attrType, others, rfl⟩
    · rintro ⟨w, rest, first, others, rfl⟩
      rw [extract_null] at first
      cases first
      rw [others]
      rfl
  · rename_i u left' taken
    rw [attributeCell_of_some taken] at cell
    obtain ⟨rfl, rfl⟩ := Prod.mk.inj cell
    dsimp only
    cases extracted : extract r attrType u with
    | ok w =>
      constructor
      · intro ok
        obtain ⟨_, first, ok⟩ := bind_eq_ok_iff.1 ok
        cases first
        obtain ⟨rest, others, same⟩ := bind_eq_ok_iff.1 ok
        cases same
        exact ⟨w, rest, rfl, others, rfl⟩
      · rintro ⟨w', rest, same, others, rfl⟩
        cases same
        rw [others]
        rfl
    | error e =>
      -- the failure of a cell is one of the record
      constructor
      · intro ok
        cases ok
      · rintro ⟨w', rest, same, -⟩
        cases same

/-! ## 4. Extracting is deriving -/

mutual

theorem extracts_of_extract {r : Registry} {t : String} {v w : Value}
    (h : extract r t v = .ok w) : Extracts r (.value t v) [w] := by
  by_cases isNull : v.isNull = true
  · cases v with
    | null =>
      rw [extract_null] at h
      cases h
      exact .null
    | _ => cases isNull
  have notNull : v.isNull = false := Bool.eq_false_iff.2 isNull
  cases category : r.category t with
  | standard =>
    rw [extract_standard category] at h
    cases h
    exact .standard category
  | enumeration =>
    rw [extract_enumeration category notNull] at h
    exact .enumeration category notNull h
  | dynamic =>
    rw [extract_dynamic category notNull] at h
    exact .dynamic category notNull h
  | composite =>
    cases shape : v with
    | record other fields =>
      rw [shape] at h
      obtain ⟨definition, result, known, complete, each, rfl⟩ := exists_of_extract_record category h
      obtain ⟨values, rfl, derived⟩ := extracts_of_extractFields each
      exact .record category known complete derived
    | _ =>
      rw [extract, if_neg isNull, category] at h
      obtain ⟨definition, known, h⟩ := bind_eq_ok_iff.1 h
      rw [shape] at h
      cases h
  | array =>
    rw [extract, if_neg isNull, category] at h
    dsimp only at h
    split at h
    · cases h
    · rename_i element known
      cases shape : v with
      | array items =>
        rw [shape] at h
        obtain ⟨values, each, rfl⟩ := map_eq_ok h
        exact .array category known (extracts_of_extractItems each)
      | _ =>
        rw [shape] at h
        cases h
termination_by (v.weight, 0)
decreasing_by
  all_goals subst shape; simp only [Prod.lex_def, Value.weight]; omega

theorem extracts_of_extractItems {r : Registry} {t element : String} {items values : List Value}
    (h : extractItems r t element items = .ok values) : Extracts r (.items t element items) values := by
  match items with
  | [] =>
    rw [extractItems] at h
    cases h
    exact .noItems
  | v :: rest =>
    rw [extractItems] at h
    obtain ⟨w, first, h⟩ := bind_eq_ok_iff.1 h
    obtain ⟨others, more, h⟩ := bind_eq_ok_iff.1 h
    cases h
    exact .nextItem (extracts_of_extract first) (extracts_of_extractItems more)
termination_by (Value.itemsWeight items, 0)
decreasing_by
  all_goals simp only [Prod.lex_def, Value.itemsWeight]; omega

theorem extracts_of_extractFields {r : Registry} {definition : CompositeDefinition} {position : Nat}
    {listed : List (String × String)} {fields result : List (String × Value)}
    (h : extractFields r definition position listed fields = .ok result) :
    ∃ values, result = (listed.map (·.1)).zip values
      ∧ Extracts r (.attributes position listed fields) values := by
  match listed with
  | [] =>
    rw [extractFields] at h
    cases h
    exact ⟨[], rfl, .noAttributes⟩
  | (attr, attrType) :: others =>
    cases taken : takeFieldOrAt? attr position fields with
    | none =>
      have cell := attributeCell_of_none taken
      obtain ⟨w, rest, first, more, rfl⟩ := (extractFields_cons cell).1 h
      obtain ⟨values, rfl, derived⟩ := extracts_of_extractFields more
      rw [extract_null] at first
      cases first
      exact ⟨.null :: values, rfl, .nextAttribute cell .null derived⟩
    | some found =>
      obtain ⟨v, left⟩ := found
      have cell := attributeCell_of_some taken
      obtain ⟨w, rest, first, more, rfl⟩ := (extractFields_cons cell).1 h
      obtain ⟨values, rfl, derived⟩ := extracts_of_extractFields more
      exact ⟨w :: values, rfl, .nextAttribute cell (extracts_of_extract first) derived⟩
termination_by (Value.fieldsWeight fields, listed.length)
decreasing_by
  · simp [Prod.lex_def]
  all_goals
    have := weight_takeFieldOrAt? taken
    simp only [Prod.lex_def, List.length_cons]
    omega

end

/-- What extraction of raw cells gives. The attributes of a record give its fields under their names. -/
def Raw.Gives (r : Registry) : Raw → List Value → Prop
  | .value t v, values => ∃ w, values = [w] ∧ extract r t v = .ok w
  | .items t element vs, values => extractItems r t element vs = .ok values
  | .attributes position listed fields, values => ∀ definition,
      extractFields r definition position listed fields = .ok ((listed.map (·.1)).zip values)

/-- What a derivation yields is what extraction gives. -/
theorem Extracts.gives {raw : Raw} {values : List Value} (h : Extracts r raw values) :
    raw.Gives r values := by
  induction h with
  | null => exact ⟨_, rfl, extract_null r _⟩
  | standard category => exact ⟨_, rfl, extract_standard category⟩
  | enumeration category notNull read =>
    exact ⟨_, rfl, (extract_enumeration category notNull).trans read⟩
  | dynamic category notNull read =>
    exact ⟨_, rfl, (extract_dynamic category notNull).trans read⟩
  | record category known complete _ each =>
    exact ⟨_, rfl, extract_record category known complete (each _)⟩
  | array category known _ each => exact ⟨_, rfl, extract_array category known each⟩
  | noItems => exact extractItems.eq_1 r _ _
  | nextItem _ _ first others =>
    obtain ⟨w, same, first⟩ := first
    cases same
    rw [Raw.Gives] at others ⊢
    rw [extractItems, first, others]
    rfl
  | noAttributes =>
    intro definition
    rw [extractFields]
    rfl
  | nextAttribute cell _ _ first others =>
    obtain ⟨w, same, first⟩ := first
    cases same
    intro definition
    exact (extractFields_cons cell).2 ⟨_, _, first, others definition, rfl⟩

/-- Extraction succeeds with what there is a derivation of. -/
theorem extracts_iff : Extracts r (.value t v) [w] ↔ extract r t v = .ok w := by
  refine ⟨fun h => ?_, extracts_of_extract⟩
  obtain ⟨w, same, extracted⟩ := h.gives
  cases same
  exact extracted

end TypedStore.Extraction
