/-
Extraction is a retraction. What it gives under a store type is normal for the type: a label of the
enumeration, a record with exactly the attributes of its type, a self describing value with a registered
tag, an array of normal items, or NULL. Normal values are given back as they are, so a second extraction
changes nothing. The first half goes over the derivations of extraction, the second over normality.
-/
import TypedStore.Proofs.Expansion.Conservation
import TypedStore.Proofs.Extraction.Derivation

set_option autoImplicit false

namespace TypedStore.Extraction

/-! ## 1. Normal values -/

/-- A value is normal for a store type. Under a standard type all values are; NULL is under every type.
Arrays inside an array have the element type where that is an array type itself, and else the type of
the whole again. -/
inductive Normal (r : Registry) : String → Value → Prop where
  | null {t : String} : Normal r t .null
  | standard {t : String} {v : Value} (category : r.category t = .standard) : Normal r t v
  | enumeration {t label : String} {definition : EnumDefinition}
      (category : r.category t = .enumeration) (known : r.enumDefinition t = .ok definition)
      (listed : definition.hasLabel label = true) : Normal r t (.enumeration t label)
  | record {t : String} {definition : CompositeDefinition} {fields : List (String × Value)}
      (category : r.category t = .composite) (known : r.compositeDefinition t = .ok definition)
      (named : fields.map (·.1) = definition.attributes.map (·.1))
      (each : ∀ pair ∈ definition.attributes.zip fields, Normal r pair.1.2 pair.2.2) :
      Normal r t (.record t fields)
  | dynamic {t tag host : String} {content : DynamicContent} (category : r.category t = .dynamic)
      (known : r.hostOfTag tag = .ok host) : Normal r t (.dynamic tag content)
  | array {t element : String} {items : List Value} (category : r.category t = .array)
      (known : r.arrayElement? t = some element)
      (each : ∀ v ∈ items, Normal r (itemType r t element v) v) : Normal r t (.array items)

variable {r : Registry} {t : String} {v w : Value}

/-! ## 2. Labels and self describing values -/

/-- Whether a value is an array. -/
def isArray : Value → Bool
  | .array _ => true
  | _ => false

/-- Items are told apart by being arrays or not. -/
theorem sameDepth_of_isArray (same : isArray v = isArray w) : SameDepth v w := by
  intro r t element
  cases v <;> cases w <;> first | rfl | cases same

theorem extractEnum_eq_ok :
    extractEnum r t v = .ok w ↔ ∃ definition label, r.enumDefinition t = .ok definition
      ∧ v.asText? = some label ∧ definition.hasLabel label = true
      ∧ w = .enumeration definition.typeName label := by
  rw [extractEnum]
  cases r.enumDefinition t with
  | error e =>
    constructor
    · intro ok
      cases ok
    · rintro ⟨definition, label, known, -⟩
      cases known
  | ok definition =>
    -- what is done with a label, whether it comes as itself or as text
    have checked : ∀ label, (if definition.hasLabel label then
        pure (.enumeration definition.typeName label)
        else .error (.enumConversionFailed definition.typeName label) : Except Error Value) = .ok w
        ↔ definition.hasLabel label = true ∧ w = .enumeration definition.typeName label := by
      intro label
      split
      · rename_i listed
        constructor
        · intro ok
          cases ok
          exact ⟨listed, rfl⟩
        · rintro ⟨-, rfl⟩
          rfl
      · rename_i unlisted
        constructor
        · intro ok
          cases ok
        · rintro ⟨listed, -⟩
          exact absurd listed unlisted
    cases v with
    | enumeration typeName label =>
      refine (checked label).trans ⟨fun h => ⟨definition, label, rfl, rfl, h⟩, ?_⟩
      rintro ⟨_, _, known, spelled, h⟩
      cases known
      cases spelled
      exact h
    | text s =>
      refine (checked s).trans ⟨fun h => ⟨definition, s, rfl, rfl, h⟩, ?_⟩
      rintro ⟨_, _, known, spelled, h⟩
      cases known
      cases spelled
      exact h
    | _ =>
      constructor
      · intro ok
        cases ok
      · rintro ⟨_, _, -, spelled, -⟩
        cases spelled

theorem extractDynamic_self {tag host : String} (known : r.hostOfTag tag = .ok host)
    (content : DynamicContent) :
    extractDynamic r (.dynamic tag content) = .ok (.dynamic tag content) := by
  rw [extractDynamic]
  simp only [bind, Except.bind, pure, Except.pure, known]

/-- A self describing value has a registered tag, and comes of no array. -/
theorem exists_of_extractDynamic (h : extractDynamic r v = .ok w) :
    ∃ tag content host, r.hostOfTag tag = .ok host ∧ w = .dynamic tag content
      ∧ isArray v = false := by
  -- tag and content, wherever they come from
  have tagged : ∀ carried : String × DynamicContent, (do
      let _ ← r.hostOfTag carried.1
      pure (.dynamic carried.1 carried.2) : Except Error Value) = .ok w →
      ∃ tag content host, r.hostOfTag tag = .ok host ∧ w = .dynamic tag content := by
    intro carried ok
    obtain ⟨host, known, same⟩ := bind_eq_ok_iff.1 ok
    cases same
    exact ⟨carried.1, carried.2, host, known, rfl⟩
  unfold extractDynamic at h
  cases v with
  | dynamic tag content =>
    obtain ⟨tag, content, host, known, same⟩ := tagged (tag, content) h
    exact ⟨tag, content, host, known, same, rfl⟩
  | record typeName fields =>
    obtain ⟨found, -, h⟩ := bind_eq_ok_iff.1 h
    obtain ⟨document, -, h⟩ := bind_eq_ok_iff.1 h
    obtain ⟨tag, content, host, known, same⟩ := tagged (found.1, .payload document) h
    exact ⟨tag, content, host, known, same, rfl⟩
  | _ => cases h

/-! ## 3. What is extracted is normal -/

/-- Fields are exactly the attributes of a list, in order, with normal values. -/
def NormalFields (r : Registry) (listed : List (String × String)) (fields : List (String × Value)) :
    Prop :=
  fields.map (·.1) = listed.map (·.1)
    ∧ ∀ pair ∈ listed.zip fields, Normal r pair.1.2 pair.2.2

/-- The values that come of raw cells are normal. -/
def Raw.Normalizes (r : Registry) : Raw → List Value → Prop
  | .value t v, values => ∀ w, values = [w] → Normal r t w ∧ SameDepth v w
  | .items t element _, values => ∀ w ∈ values, Normal r (itemType r t element w) w
  | .attributes _ listed _, values => NormalFields r listed ((listed.map (·.1)).zip values)

/-- **What is extracted is normal.** The induction is on the derivation. Items keep their depth, so an
item is normal under the very type that it was extracted under. -/
theorem Extracts.normalizes (coherent : r.Coherent) {raw : Raw} {values : List Value}
    (h : Extracts r raw values) : raw.Normalizes r values := by
  induction h with
  | null =>
    rintro w same
    cases same
    exact ⟨.null, sameDepth_of_isArray rfl⟩
  | standard category =>
    rintro w same
    cases same
    exact ⟨.standard category, sameDepth_of_isArray rfl⟩
  | @enumeration t v w category _ read =>
    rintro w' same
    cases same
    obtain ⟨definition, label, known, spelled, listed, rfl⟩ := extractEnum_eq_ok.1 read
    have own : definition.typeName = t := coherent.enums t definition (enumDefinition_eq_ok known)
    refine ⟨?_, sameDepth_of_isArray ?_⟩
    · rw [own]
      exact .enumeration category known listed
    · cases v with
      | enumeration | text => rfl
      | _ => cases spelled
  | dynamic category _ read =>
    rintro w' same
    cases same
    obtain ⟨tag, content, host, known, rfl, flat⟩ := exists_of_extractDynamic read
    exact ⟨.dynamic category known, sameDepth_of_isArray flat⟩
  | @record t other definition fields values category known _ _ each =>
    rintro w same
    cases same
    have own : definition.typeName = t :=
      coherent.composites t definition (compositeDefinition_eq_ok known)
    refine ⟨?_, sameDepth_of_isArray rfl⟩
    rw [own]
    exact .record category known each.1 each.2
  | array category known _ each =>
    rintro w same
    cases same
    exact ⟨.array category known each, sameDepth_of_isArray rfl⟩
  | noItems =>
    intro w hw
    exact absurd hw List.not_mem_nil
  | @nextItem t element v w rest values _ _ first others =>
    intro u hu
    rcases List.mem_cons.1 hu with rfl | hu
    · obtain ⟨normal, depth⟩ := first _ rfl
      rw [← depth]
      exact normal
    · exact others u hu
  | noAttributes => exact ⟨rfl, fun pair hp => absurd hp List.not_mem_nil⟩
  | nextAttribute _ _ _ first others =>
    obtain ⟨named, normal⟩ := others
    refine ⟨congrArg (_ :: ·) named, fun pair hp => ?_⟩
    rcases List.mem_cons.1 hp with rfl | hp
    · exact (first _ rfl).1
    · exact normal pair hp

/-! ## 4. Normal values stay -/

/-- Fields under the names of their attributes are taken one by one. `done` are those that have been
taken, which are NULL by now. -/
theorem extracts_attributes {listed : List (String × String)} {fields : List (String × Value)}
    (done : List (String × Value)) (named : fields.map (·.1) = listed.map (·.1))
    (distinct : (done.map (·.1) ++ listed.map (·.1)).Nodup)
    (each : ∀ pair ∈ listed.zip fields, Extracts r (.value pair.1.2 pair.2.2) [pair.2.2])
    (position : Nat) :
    Extracts r (.attributes position listed (done ++ fields)) (fields.map (·.2)) := by
  induction listed generalizing fields done position with
  | nil =>
    obtain rfl := List.map_eq_nil_iff.1 named
    exact .noAttributes
  | cons a others ih =>
    obtain ⟨attr, attrType⟩ := a
    obtain _ | ⟨⟨k, u⟩, rest⟩ := fields
    · cases named
    obtain rfl : k = attr := (List.cons.inj named).1
    have first : ∀ field ∈ done, field.1 ≠ k := by
      intro field hf same
      obtain ⟨-, -, apart⟩ := List.nodup_append.1 distinct
      exact apart field.1 (List.mem_map_of_mem hf) k List.mem_cons_self same
    have cell : attributeCell k position (done ++ (k, u) :: rest) = (u, done ++ (k, .null) :: rest) := by
      refine attributeCell_of_some ?_
      rw [takeFieldOrAt?, takeField?_append first]
    -- the name of the field is now among those that are done
    have shifted : ((done ++ [(k, Value.null)]).map (·.1) ++ others.map (·.1)).Nodup := by
      rw [List.map_append, List.append_assoc]
      exact distinct
    have more := ih (done ++ [(k, .null)]) (List.cons.inj named).2 shifted
      (fun pair hp => each pair (List.mem_cons_of_mem _ hp)) (position + 1)
    rw [List.append_assoc, List.singleton_append] at more
    exact .nextAttribute cell (each ((k, attrType), (k, u)) List.mem_cons_self) more

theorem extracts_items {element : String} {items : List Value}
    (each : ∀ v ∈ items, Extracts r (.value (itemType r t element v) v) [v]) :
    Extracts r (.items t element items) items := by
  induction items with
  | nil => exact .noItems
  | cons v rest ih =>
    exact .nextItem (each v List.mem_cons_self) (ih fun u hu => each u (List.mem_cons_of_mem _ hu))

/-- **Normal values stay as they are.** The induction is on normality. -/
theorem Normal.extracts (coherent : r.Coherent) (distinct : r.DistinctAttributes)
    (h : Normal r t v) : Extracts r (.value t v) [v] := by
  induction h with
  | null => exact .null
  | standard category => exact .standard category
  | @enumeration t label definition category known listed =>
    have own : definition.typeName = t := coherent.enums t definition (enumDefinition_eq_ok known)
    refine .enumeration category rfl (extractEnum_eq_ok.2 ⟨definition, label, known, rfl, listed, ?_⟩)
    rw [own]
  | dynamic category known => exact .dynamic category rfl (extractDynamic_self known _)
  | @record t definition fields category known named _ each =>
    have found := compositeDefinition_eq_ok known
    have own : definition.typeName = t := coherent.composites t definition found
    have complete : fields.length = definition.attributes.length := by
      rw [← List.length_map (f := (·.1)), named, List.length_map]
    have attributes := extracts_attributes [] named (distinct t definition found) each 0
    have extracted : Extracts r (.value t (.record t fields)) _ :=
      .record category known complete attributes
    -- the values of the fields stand under their names again
    have whole : (definition.attributes.map (·.1)).zip (fields.map (·.2)) = fields := by
      rw [← named, List.zip_map', List.map_id']
    rw [whole, own] at extracted
    exact extracted
  | array category known _ each => exact .array category known (extracts_items each)

/-- **Extraction is a retraction onto the normal values.** Under every store type of a registry in which
no type has two attributes of one name, what is extracted is normal and extracted as itself, and so is
every normal value. -/
theorem extract_retraction (built : r.Built) (distinct : r.DistinctAttributes) (t : String) (v : Value) :
    (∀ w, extract r t v = .ok w → Normal r t w ∧ extract r t w = .ok w)
      ∧ (Normal r t v → extract r t v = .ok v) := by
  have stays : ∀ {w : Value}, Normal r t w → extract r t w = .ok w := fun normal =>
    extracts_iff.1 (normal.extracts built.coherent distinct)
  refine ⟨fun w ok => ?_, stays⟩
  have normal := ((extracts_iff.2 ok).normalizes built.coherent w rfl).1
  exact ⟨normal, stays normal⟩

/-- Two spots as the store sends them: labels as texts, and fields without names or in another order. -/
def rawSpots : Value :=
  .array [.record "" [("", .text "pier"), ("", .array [.text "calm", .null])],
    .record "spot" [("moods", .array []), ("label", .null)]]

/-- The spots of the store, which are normal once they are extracted. -/
theorem extract_retraction_spots :
    spots.Built ∧ spots.DistinctAttributes
      ∧ ∃ w, extract spots "_spot" rawSpots = .ok w ∧ Normal spots "_spot" w
        ∧ extract spots "_spot" w = .ok w := by
  have succeeds : (extract spots "_spot" rawSpots).toOption.isSome = true := by cbv
  refine ⟨built_spots, Expansion.distinctAttributes_spots, ?_⟩
  cases ok : extract spots "_spot" rawSpots with
  | error e =>
    rw [ok] at succeeds
    cases succeeds
  | ok w =>
    exact ⟨w, rfl, (extract_retraction built_spots Expansion.distinctAttributes_spots "_spot"
      rawSpots).1 w ok⟩

end TypedStore.Extraction
