/-
What extraction fails with, as a relation. A cell fails by itself or because a field or an item of it
fails; fields and items fail with the first that does. Every failure has a derivation
(`fails_of_extract`). Types that are looked up by their category are found (`Registry.classified`), so
behind the records around it every failure is one of a single cell (`ofCell_of_extract`).
-/
import TypedStore.Proofs.Extraction.Derivation

set_option autoImplicit false

namespace TypedStore

/-! ## 1. Categories -/

namespace Registry

/-- What there is of a type, by its category. -/
inductive Classified (r : Registry) (name : String) : TypeCategory → Prop where
  | dynamic (own : name = r.dynamicType) : Classified r name .dynamic
  | enumeration {definition : EnumDefinition} (known : r.enums.get? name = some definition) :
      Classified r name .enumeration
  | composite {definition : CompositeDefinition} (known : r.composites.get? name = some definition) :
      Classified r name .composite
  | array {definition : ArrayDefinition} (known : r.array? name = some definition)
      (element : r.arrayElement? name = some definition.elementType) : Classified r name .array
  | standard (unknown : r.array? name = none) : Classified r name .standard

/-- An array type is listed, or its name spells its element. -/
theorem arrayElement?_eq (r : Registry) (name : String) :
    r.arrayElement? name = (r.array? name).map (·.elementType) := by
  unfold arrayElement? array?
  split
  · rfl
  · cases elementByName? name <;> rfl

/-- A category is given to types that have what it says. -/
theorem classified (r : Registry) (name : String) : r.Classified name (r.category name) := by
  unfold category
  split
  · exact .dynamic ‹_›
  · split
    · rename_i known
      obtain ⟨definition, found⟩ := Option.isSome_iff_exists.1 known
      exact .enumeration found
    · split
      · rename_i known
        obtain ⟨definition, found⟩ := Option.isSome_iff_exists.1 known
        exact .composite found
      · have same := r.arrayElement?_eq name
        rcases found : r.array? name with _ | definition
        · rw [found] at same
          rw [if_neg (by rw [same]; decide)]
          exact .standard found
        · rw [found] at same
          rw [if_pos (by rw [same]; rfl)]
          exact .array found same

variable {r : Registry} {name : String}

theorem exists_enumDefinition (category : r.category name = .enumeration) :
    ∃ definition, r.enumDefinition name = .ok definition := by
  have classified := r.classified name
  rw [category] at classified
  obtain _ | known := classified
  exact ⟨_, by rw [enumDefinition, known]⟩

theorem exists_compositeDefinition (category : r.category name = .composite) :
    ∃ definition, r.compositeDefinition name = .ok definition := by
  have classified := r.classified name
  rw [category] at classified
  obtain _ | _ | known := classified
  exact ⟨_, by rw [compositeDefinition, known]⟩

theorem exists_array (category : r.category name = .array) :
    ∃ definition, r.array? name = some definition
      ∧ r.arrayElement? name = some definition.elementType := by
  have classified := r.classified name
  rw [category] at classified
  obtain _ | _ | _ | ⟨known, element⟩ := classified
  exact ⟨_, known, element⟩

end Registry

/-- A failure of a single cell: a value of the wrong kind, a text that is no label, a record with a wrong
number of fields, a tag that is unknown, or a document that cannot be read. -/
inductive Error.OfCell : Error → Prop where
  | wrongKind (target shown : String) : OfCell (.valueConversionFailed target shown)
  | noLabel (typeName label : String) : OfCell (.enumConversionFailed typeName label)
  | fieldCount (typeName : String) (expected found : Nat) :
      OfCell (.wrongFieldNumberInComposite typeName expected found)
  | unknownTag (tag : String) : OfCell (.dynamicTypeNotFound tag)
  | unreadable (detail : Option String) : OfCell (.serialization detail)

/-- The failure behind the records that it is reported for. -/
def Error.innermost : Error → Error
  | .objectMappingFailed _ _ cause => cause.innermost
  | e => e

theorem Error.OfCell.innermost_eq {e : Error} (h : e.OfCell) : e.innermost = e := by
  cases h <;> rfl

/-- No type is missing where a single cell fails. -/
theorem Error.OfCell.kind_ne {e : Error} (h : e.OfCell) : e.kind ≠ .pgTypeNotFound := by
  intro missing
  cases h <;> cases missing

namespace Extraction

/-! ## 2. Single cells -/

/-- Only a definition that is missing makes the reading of a label fail in another way. -/
theorem ofCell_of_extractEnum {r : Registry} {t : String} {v : Value} {e : Error}
    {definition : EnumDefinition} (known : r.enumDefinition t = .ok definition)
    (h : extractEnum r t v = .error e) : e.OfCell := by
  have checked : ∀ label, (if definition.hasLabel label then
      pure (.enumeration definition.typeName label)
      else .error (.enumConversionFailed definition.typeName label) : Except Error Value) = .error e →
        e.OfCell := by
    intro label h
    split at h
    · cases h
    · cases h
      exact .noLabel _ _
  rw [extractEnum, known] at h
  simp only [bind, Except.bind] at h
  split at h
  · exact checked _ h
  · exact checked _ h
  · cases h
    exact .wrongKind _ _

theorem ofCell_of_documentOf {v : Value} {e : Error} (h : documentOf v = .error e) : e.OfCell := by
  unfold documentOf at h
  split at h
  · cases h
  · split at h
    · cases h
    · cases h
      exact .unreadable none
  · cases h
  · cases h
    exact .wrongKind _ _

theorem ofCell_of_tagAndPayload {t : String} {fields : List (String × Value)} {e : Error}
    (h : tagAndPayload t fields = .error e) : e.OfCell := by
  unfold tagAndPayload at h
  dsimp only at h
  split at h
  · cases h
  · cases h
    exact .wrongKind _ _

theorem ofCell_of_hostOfTag {r : Registry} {tag : String} {e : Error}
    (h : r.hostOfTag tag = .error e) : e.OfCell := by
  unfold Registry.hostOfTag at h
  split at h
  · cases h
  · cases h
    exact .unknownTag tag

theorem ofCell_of_extractDynamic {r : Registry} {v : Value} {e : Error}
    (h : extractDynamic r v = .error e) : e.OfCell := by
  have checked : ∀ carried : String × DynamicContent, (do
      let _ ← r.hostOfTag carried.1
      pure (.dynamic carried.1 carried.2) : Except Error Value) = .error e → e.OfCell := by
    intro carried h
    rcases bind_eq_error h with unknown | ⟨host, -, h⟩
    · exact ofCell_of_hostOfTag unknown
    · cases h
  unfold extractDynamic at h
  split at h
  · rename_i tag content
    exact checked (tag, content) h
  · rename_i t fields
    rcases bind_eq_error h with unfit | ⟨found, -, h⟩
    · exact ofCell_of_tagAndPayload unfit
    · rcases bind_eq_error h with unread | ⟨document, -, h⟩
      · exact ofCell_of_documentOf unread
      · exact checked (found.1, .payload document) h
  · cases h
    exact .wrongKind _ _

/-! ## 3. Derivations of a failure -/

/-- What raw cells fail with. The failure of a field is reported as one of the record around it. -/
inductive Fails (r : Registry) : Raw → Error → Prop where
  | enumeration {t : String} {v : Value} {e : Error} (category : r.category t = .enumeration)
      (notNull : v.isNull = false) (refused : extractEnum r t v = .error e) : Fails r (.value t v) e
  | dynamic {t : String} {v : Value} {e : Error} (category : r.category t = .dynamic)
      (notNull : v.isNull = false) (refused : extractDynamic r v = .error e) : Fails r (.value t v) e
  | noRecord {t : String} {v : Value} (category : r.category t = .composite)
      (notNull : v.isNull = false) (other : ∀ name fields, v ≠ .record name fields) :
      Fails r (.value t v) (.valueConversionFailed HostPath.record v.diagnostic)
  | fieldCount {t other : String} {definition : CompositeDefinition} {fields : List (String × Value)}
      (category : r.category t = .composite) (known : r.compositeDefinition t = .ok definition)
      (different : fields.length ≠ definition.attributes.length) :
      Fails r (.value t (.record other fields))
        (.wrongFieldNumberInComposite definition.typeName definition.attributes.length fields.length)
  | field {t other : String} {definition : CompositeDefinition} {fields : List (String × Value)}
      {e : Error} (category : r.category t = .composite)
      (known : r.compositeDefinition t = .ok definition)
      (complete : fields.length = definition.attributes.length)
      (within : Fails r (.attributes 0 definition.attributes fields) e) :
      Fails r (.value t (.record other fields))
        (.objectMappingFailed (targetOf definition) definition.typeName e)
  | noArray {t : String} {v : Value} (category : r.category t = .array) (notNull : v.isNull = false)
      (other : ∀ items, v ≠ .array items) :
      Fails r (.value t v) (.valueConversionFailed (HostPath.list HostPath.value) v.diagnostic)
  | item {t element : String} {items : List Value} {e : Error} (category : r.category t = .array)
      (known : r.arrayElement? t = some element) (within : Fails r (.items t element items) e) :
      Fails r (.value t (.array items)) e
  | firstItem {t element : String} {v : Value} {rest : List Value} {e : Error}
      (first : Fails r (.value (itemType r t element v) v) e) :
      Fails r (.items t element (v :: rest)) e
  | laterItem {t element : String} {v w : Value} {rest : List Value} {e : Error}
      (first : extract r (itemType r t element v) v = .ok w)
      (others : Fails r (.items t element rest) e) : Fails r (.items t element (v :: rest)) e
  | firstAttribute {position : Nat} {attr attrType : String} {listed : List (String × String)}
      {v : Value} {fields left : List (String × Value)} {e : Error}
      (cell : attributeCell attr position fields = (v, left)) (first : Fails r (.value attrType v) e) :
      Fails r (.attributes position ((attr, attrType) :: listed) fields) e
  | laterAttribute {position : Nat} {attr attrType : String} {listed : List (String × String)}
      {v w : Value} {fields left : List (String × Value)} {e : Error}
      (cell : attributeCell attr position fields = (v, left)) (first : extract r attrType v = .ok w)
      (others : Fails r (.attributes (position + 1) listed left) e) :
      Fails r (.attributes position ((attr, attrType) :: listed) fields) e

/-- Attributes fail where the cell of the first fails, as a failure of the record, or behind it. -/
theorem error_of_extractFields_cons {r : Registry} {definition : CompositeDefinition} {position : Nat}
    {attr attrType : String} {listed : List (String × String)} {fields left : List (String × Value)}
    {v : Value} {e : Error} (cell : attributeCell attr position fields = (v, left))
    (h : extractFields r definition position ((attr, attrType) :: listed) fields = .error e) :
    (∃ cause, extract r attrType v = .error cause
        ∧ e = .objectMappingFailed (targetOf definition) definition.typeName cause)
      ∨ ∃ w, extract r attrType v = .ok w
        ∧ extractFields r definition (position + 1) listed left = .error e := by
  rw [extractFields] at h
  split at h
  · rename_i absent
    rw [attributeCell_of_none absent] at cell
    obtain ⟨rfl, rfl⟩ := Prod.mk.inj cell
    rcases bind_eq_error h with later | ⟨rest, -, h⟩
    · exact .inr ⟨.null, extract_null r attrType, later⟩
    · cases h
  · rename_i u left' taken
    rw [attributeCell_of_some taken] at cell
    obtain ⟨rfl, rfl⟩ := Prod.mk.inj cell
    dsimp only at h
    rcases first : extract r attrType u with cause | w
    · rw [first] at h
      cases h
      exact .inl ⟨cause, rfl, rfl⟩
    · rw [first] at h
      obtain pass | ⟨_, pass, h⟩ := bind_eq_error h
      · cases pass
      cases pass
      rcases bind_eq_error h with later | ⟨rest, -, h⟩
      · exact .inr ⟨w, rfl, later⟩
      · cases h

mutual

/-- A cell that fails has a derivation. The recursion is that of extraction. -/
theorem fails_of_extract {r : Registry} {t : String} {v : Value} {e : Error}
    (h : extract r t v = .error e) : Fails r (.value t v) e := by
  by_cases isNull : v.isNull = true
  · rw [extract, if_pos isNull] at h
    cases h
  have notNull : v.isNull = false := Bool.eq_false_iff.2 isNull
  cases category : r.category t with
  | standard =>
    rw [extract_standard category] at h
    cases h
  | enumeration =>
    rw [extract_enumeration category notNull] at h
    exact .enumeration category notNull h
  | dynamic =>
    rw [extract_dynamic category notNull] at h
    exact .dynamic category notNull h
  | composite =>
    obtain ⟨definition, known⟩ := Registry.exists_compositeDefinition category
    rw [extract, if_neg isNull, category, known] at h
    cases shape : v with
    | record other fields =>
      rw [shape] at h
      simp only [bind, Except.bind] at h
      split at h
      · rename_i different
        cases h
        exact .fieldCount category known different
      · rename_i complete
        rcases bind_eq_error h with failed | ⟨result, -, h⟩
        · obtain ⟨cause, rfl, within⟩ := fails_of_extractFields failed
          exact .field category known (Decidable.not_not.1 complete) within
        · cases h
    | _ =>
      rw [shape] at h
      cases h
      exact .noRecord category (shape ▸ notNull) (by intro _ _ same; cases same)
  | array =>
    obtain ⟨definition, -, known⟩ := Registry.exists_array category
    rw [extract, if_neg isNull, category] at h
    dsimp only at h
    rw [known] at h
    cases shape : v with
    | array items =>
      rw [shape] at h
      dsimp only at h
      rcases failed : extractItems r t definition.elementType items with e' | values
      · rw [failed] at h
        cases h
        exact .item category known (fails_of_extractItems failed)
      · rw [failed] at h
        cases h
    | _ =>
      rw [shape] at h
      cases h
      exact .noArray category (shape ▸ notNull) (by intro _ same; cases same)
termination_by (v.weight, 0)
decreasing_by
  all_goals subst shape; simp only [Prod.lex_def, Value.weight]; omega

theorem fails_of_extractItems {r : Registry} {t element : String} {items : List Value} {e : Error}
    (h : extractItems r t element items = .error e) : Fails r (.items t element items) e := by
  match items with
  | [] =>
    rw [extractItems] at h
    cases h
  | v :: rest =>
    rw [extractItems] at h
    rcases bind_eq_error h with first | ⟨w, first, h⟩
    · exact .firstItem (fails_of_extract first)
    · rcases bind_eq_error h with others | ⟨values, -, h⟩
      · exact .laterItem first (fails_of_extractItems others)
      · cases h
termination_by (Value.itemsWeight items, 0)
decreasing_by
  all_goals simp only [Prod.lex_def, Value.itemsWeight]; omega

theorem fails_of_extractFields {r : Registry} {definition : CompositeDefinition} {position : Nat}
    {listed : List (String × String)} {fields : List (String × Value)} {e : Error}
    (h : extractFields r definition position listed fields = .error e) :
    ∃ cause, e = .objectMappingFailed (targetOf definition) definition.typeName cause
      ∧ Fails r (.attributes position listed fields) cause := by
  match listed with
  | [] =>
    rw [extractFields] at h
    cases h
  | (attr, attrType) :: others =>
    cases taken : takeFieldOrAt? attr position fields with
    | none =>
      have cell := attributeCell_of_none taken
      rcases error_of_extractFields_cons cell h with ⟨cause, first, -⟩ | ⟨w, first, later⟩
      · rw [extract_null] at first
        cases first
      · obtain ⟨cause, same, within⟩ := fails_of_extractFields later
        exact ⟨cause, same, .laterAttribute cell first within⟩
    | some found =>
      obtain ⟨v, left⟩ := found
      have cell := attributeCell_of_some taken
      rcases error_of_extractFields_cons cell h with ⟨cause, first, same⟩ | ⟨w, first, later⟩
      · exact ⟨cause, same, .firstAttribute cell (fails_of_extract first)⟩
      · obtain ⟨cause, same, within⟩ := fails_of_extractFields later
        exact ⟨cause, same, .laterAttribute cell first within⟩
termination_by (Value.fieldsWeight fields, listed.length)
decreasing_by
  · simp [Prod.lex_def]
  all_goals
    have := weight_takeFieldOrAt? taken
    simp only [Prod.lex_def, List.length_cons]
    omega

end

/-- Behind the records around it, a failure is one of a single cell. -/
theorem Fails.ofCell {r : Registry} {raw : Raw} {e : Error} (h : Fails r raw e) :
    e.innermost.OfCell := by
  induction h with
  | enumeration category _ refused =>
    obtain ⟨definition, known⟩ := Registry.exists_enumDefinition category
    have own := ofCell_of_extractEnum known refused
    rwa [own.innermost_eq]
  | dynamic _ _ refused =>
    have own := ofCell_of_extractDynamic refused
    rwa [own.innermost_eq]
  | noRecord => exact .wrongKind _ _
  | fieldCount => exact .fieldCount _ _ _
  | noArray => exact .wrongKind _ _
  | field _ _ _ _ ih => exact ih
  | item _ _ _ ih => exact ih
  | firstItem _ ih => exact ih
  | laterItem _ _ ih => exact ih
  | firstAttribute _ _ ih => exact ih
  | laterAttribute _ _ _ ih => exact ih

/-- Whatever is extracted under whatever type, what fails is a cell. -/
theorem ofCell_of_extract {r : Registry} {t : String} {v : Value} {e : Error}
    (h : extract r t v = .error e) : e.innermost.OfCell :=
  (fails_of_extract h).ofCell

end Extraction

end TypedStore
