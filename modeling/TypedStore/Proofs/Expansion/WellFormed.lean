/-
When expansion succeeds. A value is well formed if its labels, records and self describing values are what
the registry knows, at any depth; nothing else can go wrong, whatever names are minted. Where a value is
not well formed, expansion fails with the first thing that is wrong with it: its places are listed depth
first, a record before its fields and these in the order of the attributes (`places`), and the fault of the
first place that has one is the failure of the whole (`expand_succeeds_iff`).
-/
import TypedStore.Proofs.Expansion.Conservation

set_option autoImplicit false

namespace TypedStore

open TypedStore.Text TypedStore.Statement

namespace Expansion

/-! ## 1. Well-formed values -/

/-- Values that the registry knows all of: labels of enumerations, records with as many fields as their
type has attributes and a field for each of these, self describing values with a known tag and a document.
Other values are well formed, and arrays if their items are. -/
inductive WellFormed (r : Registry) : Value → Prop where
  | scalar {v : Value} (plain : isSubstituted v = false) : WellFormed r v
  | enumeration {typeName label : String} {definition : EnumDefinition}
      (known : r.enumDefinition typeName = .ok definition)
      (listed : definition.hasLabel label = true) : WellFormed r (.enumeration typeName label)
  | record {typeName : String} {fields : List (String × Value)} {definition : CompositeDefinition}
      (known : r.compositeDefinition typeName = .ok definition)
      (complete : fields.length = definition.attributes.length)
      (named : ∀ a ∈ definition.attributes, a.1 ∈ fields.map (·.1))
      (each : ∀ f ∈ fields, WellFormed r f.2) : WellFormed r (.record typeName fields)
  | dynamic {tag host : String} {content : DynamicContent} {document : Document}
      (known : r.hostOfTag tag = .ok host) (carried : content.document = .ok document) :
      WellFormed r (.dynamic tag content)
  | array {items : List Value} (each : ∀ v ∈ items, WellFormed r v) : WellFormed r (.array items)

/-! ## 2. Places and their faults -/

/-- A place of a value: a value in it, or an attribute that has no field. -/
inductive Place where
  | value (v : Value)
  | absent (typeName attr : String)

/-- What is wrong with a place by itself, whatever its items or fields are. -/
def Place.fault? (r : Registry) : Place → Option Error
  | .value (.enumeration typeName label) =>
    match r.enumDefinition typeName with
    | .error e => some e
    | .ok definition =>
      if definition.hasLabel label then none
      else some (.enumConversionFailed definition.typeName label)
  | .value (.record typeName fields) =>
    match r.compositeDefinition typeName with
    | .error e => some e
    | .ok definition =>
      if fields.length = definition.attributes.length then none
      else
        some (.wrongFieldNumberInComposite definition.typeName definition.attributes.length
          fields.length)
  | .value (.dynamic tag content) =>
    match r.hostOfTag tag, content.document with
    | .error e, _ => some e
    | .ok _, .error e => some e
    | .ok _, .ok _ => none
  | .value _ => none
  | .absent typeName attr => some (.attributeNotFound typeName attr)

mutual

/-- The places of a value, depth first: a value comes before its items, which are in order, and before its
fields, which are in the order of the attributes. -/
def places (r : Registry) (v : Value) : List Place :=
  match v with
  | .array items => .value (.array items) :: itemPlaces r items
  | .record typeName fields =>
    .value (.record typeName fields) ::
      match r.compositeDefinition typeName with
      | .error _ => []
      | .ok definition => attributePlaces r definition.typeName definition.attributes fields
  | v => [.value v]
termination_by (v.weight, 0)
decreasing_by
  all_goals simp only [Prod.lex_def, Value.weight]; omega

/-- The places of the items of an array. -/
def itemPlaces (r : Registry) (items : List Value) : List Place :=
  match items with
  | [] => []
  | v :: rest => places r v ++ itemPlaces r rest
termination_by (Value.itemsWeight items, 0)
decreasing_by
  all_goals simp only [Prod.lex_def, Value.itemsWeight]; omega

/-- The places of the fields of a record, each found by the name of its attribute. -/
def attributePlaces (r : Registry) (typeName : String) (attributes : List (String × String))
    (fields : List (String × Value)) : List Place :=
  match attributes with
  | [] => []
  | (attr, _) :: others =>
    match _found : fieldValue? attr fields with
    | none => .absent typeName attr :: attributePlaces r typeName others fields
    | some v => places r v ++ attributePlaces r typeName others fields
termination_by (Value.fieldsWeight fields, attributes.length)
decreasing_by
  · simp [Prod.lex_def]
  · have := weight_lt_of_fieldValue? _found
    simp only [Prod.lex_def]
    omega
  · simp [Prod.lex_def]

end

/-- The fault of the first place that has one. -/
def firstFault (r : Registry) (found : List Place) : Option Error := found.findSome? (Place.fault? r)

variable {r : Registry}

theorem fault?_enumeration_eq_none_iff {typeName label : String} :
    Place.fault? r (.value (.enumeration typeName label)) = none
      ↔ ∃ definition, r.enumDefinition typeName = .ok definition
        ∧ definition.hasLabel label = true := by
  cases known : r.enumDefinition typeName <;> simp [Place.fault?, known]

theorem fault?_record_eq_none_iff {typeName : String} {fields : List (String × Value)} :
    Place.fault? r (.value (.record typeName fields)) = none
      ↔ ∃ definition, r.compositeDefinition typeName = .ok definition
        ∧ fields.length = definition.attributes.length := by
  cases known : r.compositeDefinition typeName <;> simp [Place.fault?, known]

theorem fault?_dynamic_eq_none_iff {tag : String} {content : DynamicContent} :
    Place.fault? r (.value (.dynamic tag content)) = none
      ↔ (∃ host, r.hostOfTag tag = .ok host) ∧ ∃ document, content.document = .ok document := by
  cases known : r.hostOfTag tag <;> cases carried : content.document <;>
    simp [Place.fault?, known, carried]

theorem firstFault_cons_of_none {p : Place} {found : List Place} (sound : p.fault? r = none) :
    firstFault r (p :: found) = firstFault r found := by
  rw [firstFault, List.findSome?_cons, sound, firstFault]

theorem firstFault_cons_of_some {p : Place} {found : List Place} {e : Error}
    (fault : p.fault? r = some e) : firstFault r (p :: found) = some e := by
  rw [firstFault, List.findSome?_cons, fault]

theorem firstFault_append (xs ys : List Place) :
    firstFault r (xs ++ ys) = (firstFault r xs).or (firstFault r ys) := List.findSome?_append

theorem places_scalar {v : Value} (plain : isSubstituted v = false) : places r v = [.value v] := by
  cases v with
  | enumeration | array | record | dynamic => cases plain
  | _ => rw [places] <;> nofun

theorem firstFault_scalar {v : Value} (plain : isSubstituted v = false) :
    firstFault r (places r v) = none := by
  rw [places_scalar plain, firstFault_cons_of_none]
  · rfl
  · cases v with
    | enumeration | array | record | dynamic => cases plain
    | _ => rfl

theorem places_enumeration (typeName label : String) :
    places r (.enumeration typeName label) = [.value (.enumeration typeName label)] := by
  rw [places] <;> nofun

theorem places_dynamic (tag : String) (content : DynamicContent) :
    places r (.dynamic tag content) = [.value (.dynamic tag content)] := by
  rw [places] <;> nofun

theorem places_record {typeName : String} {fields : List (String × Value)}
    {definition : CompositeDefinition} (known : r.compositeDefinition typeName = .ok definition) :
    places r (.record typeName fields)
      = .value (.record typeName fields)
        :: attributePlaces r definition.typeName definition.attributes fields := by
  rw [places, known]

theorem attributePlaces_of_none {typeName attr attrType : String} {others : List (String × String)}
    {fields : List (String × Value)} (absent : fieldValue? attr fields = none) :
    attributePlaces r typeName ((attr, attrType) :: others) fields
      = .absent typeName attr :: attributePlaces r typeName others fields := by
  conv => lhs; rw [attributePlaces]
  split
  · rfl
  · rename_i found
    rw [absent] at found
    cases found

theorem attributePlaces_of_some {typeName attr attrType : String} {others : List (String × String)}
    {fields : List (String × Value)} {v : Value} (found : fieldValue? attr fields = some v) :
    attributePlaces r typeName ((attr, attrType) :: others) fields
      = places r v ++ attributePlaces r typeName others fields := by
  conv => lhs; rw [attributePlaces]
  split
  · rename_i absent
    rw [found] at absent
    cases absent
  · rename_i found'
    rw [found] at found'
    cases found'
    rfl

/-- Attributes have the places of the fields that their names find. -/
theorem attributePlaces_congr {typeName : String} {attributes : List (String × String)}
    {fields fields' : List (String × Value)}
    (same : ∀ a ∈ attributes, fieldValue? a.1 fields' = fieldValue? a.1 fields) :
    attributePlaces r typeName attributes fields' = attributePlaces r typeName attributes fields := by
  induction attributes with
  | nil => rw [attributePlaces, attributePlaces]
  | cons a others ih =>
    obtain ⟨attr, attrType⟩ := a
    have first : fieldValue? attr fields' = fieldValue? attr fields := same _ List.mem_cons_self
    have rest := ih fun b hb => same b (List.mem_cons_of_mem _ hb)
    cases found : fieldValue? attr fields with
    | none => rw [attributePlaces_of_none found, attributePlaces_of_none (first.trans found), rest]
    | some v => rw [attributePlaces_of_some found, attributePlaces_of_some (first.trans found), rest]

/-! ## 3. Writing fails with the first fault -/

/-- The places of what there is to write. -/
def Task.places (r : Registry) : Task → List Place
  | .value _ _ v => Expansion.places r v
  | .items _ _ vs => itemPlaces r vs
  | .attributes typeName listed fields => attributePlaces r typeName listed fields

/-- The places of the fields behind an attribute are the same when its own field has been taken out. -/
theorem attributePlaces_taken {typeName attr : String} {others : List (String × String)}
    {fields left : List (String × Value)} {v : Value} (taken : takeField? attr fields = some (v, left))
    (apart : attr ∉ others.map (·.1)) :
    attributePlaces r typeName others left = attributePlaces r typeName others fields := by
  obtain ⟨_, _, same⟩ := Option.map_eq_some_iff.1 taken
  obtain ⟨-, rfl⟩ := Prod.mk.inj same
  exact attributePlaces_congr (fieldValue?_behind apart fields)

theorem fieldValue?_of_taken {attr : String} {fields left : List (String × Value)} {v : Value}
    (taken : takeField? attr fields = some (v, left)) : fieldValue? attr fields = some v := by
  obtain ⟨_, found, same⟩ := Option.map_eq_some_iff.1 taken
  obtain ⟨rfl, -⟩ := Prod.mk.inj same
  exact found

/-- What is written has no fault. The induction is on the derivation. -/
theorem Writes.firstFault_eq (distinct : r.DistinctAttributes) {task : Task} {name : String}
    {leaves leaves' : Leaves} {fragments : List Fragment}
    (h : Writes r task name leaves fragments leaves') (once : task.Distinct) :
    firstFault r (task.places r) = none := by
  induction h with
  | scalar plain => exact firstFault_scalar plain
  | enumeration known listed =>
    rw [Task.places, places_enumeration,
      firstFault_cons_of_none (fault?_enumeration_eq_none_iff.2 ⟨_, known, listed⟩)]
    rfl
  | emptyArray =>
    rw [Task.places, places, itemPlaces, firstFault_cons_of_none rfl]
    rfl
  | array _ ih =>
    rw [Task.places, places, firstFault_cons_of_none rfl]
    exact ih trivial
  | @record _ _ typeName _ _ _ _ _ definition known complete _ ih =>
    rw [Task.places, places_record known,
      firstFault_cons_of_none (fault?_record_eq_none_iff.2 ⟨_, known, complete⟩)]
    exact ih (distinct typeName definition (compositeDefinition_eq_ok known))
  | dynamic known carried =>
    rw [Task.places, places_dynamic,
      firstFault_cons_of_none (fault?_dynamic_eq_none_iff.2 ⟨⟨_, known⟩, _, carried⟩)]
    rfl
  | noItems =>
    rw [Task.places, itemPlaces]
    rfl
  | @nextItem _ _ v vs _ _ _ _ _ _ _ _ first rest =>
    have one : firstFault r (places r v) = none := first trivial
    have others : firstFault r (itemPlaces r vs) = none := rest trivial
    rw [Task.places, itemPlaces, firstFault_append, one, others, Option.none_or]
  | noAttributes =>
    rw [Task.places, attributePlaces]
    rfl
  | @nextAttribute typeName _ _ _ listed v _ left _ _ _ _ _ taken _ _ first rest =>
    obtain ⟨apart, once⟩ := List.nodup_cons.1 once
    have one : firstFault r (places r v) = none := first trivial
    have others : firstFault r (attributePlaces r typeName listed left) = none := rest once
    rw [attributePlaces_taken taken apart] at others
    rw [Task.places, attributePlaces_of_some (fieldValue?_of_taken taken), firstFault_append, one, others,
      Option.none_or]

mutual

/-- A value that cannot be written has a fault, and it is the first one that is reported. The recursion is
that of writing. -/
theorem firstFault_of_write (distinct : r.DistinctAttributes) {name : String} {slot? : Option String}
    {nested : Bool} {leaves : Leaves} {v : Value} {e : Error}
    (h : write r name slot? nested leaves v = .error e) : firstFault r (places r v) = some e := by
  by_cases plain : isSubstituted v = false
  · rw [write_scalar r _ _ _ _ plain] at h
    cases h
  · match v with
    | .enumeration typeName label =>
      rw [places_enumeration]
      rw [write, writeEnum] at h
      refine firstFault_cons_of_some ?_
      rcases bind_eq_error h with unknown | ⟨definition, known, h⟩
      · simp [Place.fault?, unknown]
      · split at h
        · cases h
        · rename_i unlisted
          cases h
          simp [Place.fault?, known, unlisted]
    | .array [] =>
      rw [write] at h
      cases h
    | .array (v :: vs) =>
      rw [places, firstFault_cons_of_none rfl]
      rw [write] at h
      · rcases bind_eq_error h with items | ⟨_, -, h⟩
        · exact firstFault_of_writeItems distinct items
        · cases h
      · intro empty
        cases empty
    | .record typeName fields =>
      rw [write] at h
      rcases bind_eq_error h with unknown | ⟨definition, known, h⟩
      · rw [places]
        refine firstFault_cons_of_some ?_
        simp [Place.fault?, unknown]
      · rw [places_record known]
        split at h
        · rename_i different
          cases h
          refine firstFault_cons_of_some ?_
          simp [Place.fault?, known, different]
        · rename_i complete
          rw [firstFault_cons_of_none
            (fault?_record_eq_none_iff.2 ⟨definition, known, Classical.not_not.1 complete⟩)]
          rcases bind_eq_error h with attributes | ⟨_, -, h⟩
          · have apart := distinct typeName definition (compositeDefinition_eq_ok known)
            exact firstFault_of_writeAttributes distinct apart attributes
          · cases h
    | .dynamic tag content =>
      rw [places_dynamic]
      rw [write, writeDynamic] at h
      refine firstFault_cons_of_some ?_
      rcases bind_eq_error h with unknown | ⟨host, known, h⟩
      · simp [Place.fault?, unknown]
      · rcases bind_eq_error h with failed | ⟨document, -, h⟩
        · simp [Place.fault?, known, failed]
        · cases h
    | .null | .boolean _ | .int16 _ | .int32 _ | .int64 _ | .float32 _ | .float64 _ | .decimal _
    | .text _ | .blob _ | .date _ | .time _ | .timestamp _ | .zoned _ | .uuid _ | .document _ =>
      exact absurd rfl plain
termination_by (v.weight, 0)
decreasing_by
  all_goals simp only [Prod.lex_def, Value.weight]; omega

theorem firstFault_of_writeItems (distinct : r.DistinctAttributes) {name : String}
    {element? : Option String} {index : Nat} {leaves : Leaves} {vs : List Value} {e : Error}
    (h : writeItems r name element? index leaves vs = .error e) :
    firstFault r (itemPlaces r vs) = some e := by
  match vs with
  | [] =>
    rw [writeItems] at h
    cases h
  | v :: vs =>
    rw [writeItems] at h
    rw [itemPlaces, firstFault_append]
    rcases bind_eq_error h with first | ⟨⟨fragment, leaves₁⟩, first, h⟩
    · rw [firstFault_of_write distinct first, Option.some_or]
    · have sound : firstFault r (places r v) = none := (writes_of_write first).firstFault_eq distinct trivial
      rcases bind_eq_error h with rest | ⟨_, -, h⟩
      · rw [sound, Option.none_or]
        exact firstFault_of_writeItems distinct rest
      · cases h
termination_by (Value.itemsWeight vs, 0)
decreasing_by
  all_goals simp only [Prod.lex_def, Value.itemsWeight]; omega

theorem firstFault_of_writeAttributes (distinct : r.DistinctAttributes) {name typeName : String}
    {leaves : Leaves} {listed : List (String × String)} {fields : List (String × Value)} {e : Error}
    (once : (listed.map (·.1)).Nodup)
    (h : writeAttributes r name typeName leaves listed fields = .error e) :
    firstFault r (attributePlaces r typeName listed fields) = some e := by
  match listed with
  | [] =>
    rw [writeAttributes] at h
    cases h
  | (attr, attrType) :: others =>
    obtain ⟨apart, once⟩ := List.nodup_cons.1 once
    rw [writeAttributes] at h
    split at h
    · rename_i absent
      cases h
      rw [attributePlaces_of_none (Option.map_eq_none_iff.1 absent)]
      exact firstFault_cons_of_some rfl
    · rename_i v left taken
      rw [attributePlaces_of_some (fieldValue?_of_taken taken), firstFault_append]
      rcases bind_eq_error h with first | ⟨⟨fragment, leaves₁⟩, first, h⟩
      · rw [firstFault_of_write distinct first, Option.some_or]
      · have sound : firstFault r (places r v) = none :=
          (writes_of_write first).firstFault_eq distinct trivial
        rcases bind_eq_error h with rest | ⟨_, -, h⟩
        · rw [sound, Option.none_or, ← attributePlaces_taken taken apart]
          exact firstFault_of_writeAttributes distinct once rest
        · cases h
termination_by (Value.fieldsWeight fields, listed.length)
decreasing_by
  all_goals
    have := weight_takeField? ‹takeField? _ _ = some _›
    simp only [Prod.lex_def, List.length_cons]
    omega

end

/-- Writing fails with the first fault, whatever the name, the slot and the names in use are. -/
theorem write_error_iff (distinct : r.DistinctAttributes) {name : String} {slot? : Option String}
    {nested : Bool} {leaves : Leaves} {v : Value} {e : Error} :
    write r name slot? nested leaves v = .error e ↔ firstFault r (places r v) = some e := by
  refine ⟨firstFault_of_write distinct, fun fault => ?_⟩
  cases written : write r name slot? nested leaves v with
  | ok w =>
    have sound : firstFault r (places r v) = none :=
      (writes_of_write written).firstFault_eq distinct trivial
    rw [fault] at sound
    cases sound
  | error e' =>
    have fault' := firstFault_of_write distinct written
    rw [fault] at fault'
    exact congrArg _ (Option.some.inj fault').symm

/-! ## 4. Values without a fault -/

theorem firstFault_eq_none_iff {found : List Place} :
    firstFault r found = none ↔ ∀ p ∈ found, p.fault? r = none := List.findSome?_eq_none_iff

theorem firstFault_eq_some_iff {found : List Place} {e : Error} :
    firstFault r found = some e ↔ ∃ before place after, found = before ++ place :: after
      ∧ (∀ p ∈ before, p.fault? r = none) ∧ place.fault? r = some e := by
  rw [firstFault, List.findSome?_eq_some_iff]
  constructor
  · rintro ⟨before, place, after, cut, fault, sound⟩
    exact ⟨before, place, after, cut, sound, fault⟩
  · rintro ⟨before, place, after, cut, sound, fault⟩
    exact ⟨before, place, after, cut, fault, sound⟩

theorem itemPlaces_eq_flatMap (items : List Value) : itemPlaces r items = items.flatMap (places r) := by
  induction items with
  | nil => rw [itemPlaces, List.flatMap_nil]
  | cons v rest ih => rw [itemPlaces, List.flatMap_cons, ih]

theorem firstFault_itemPlaces_eq_none_iff {items : List Value} :
    firstFault r (itemPlaces r items) = none ↔ ∀ v ∈ items, firstFault r (places r v) = none := by
  simp only [itemPlaces_eq_flatMap, firstFault_eq_none_iff, List.mem_flatMap]
  exact ⟨fun sound v hv p hp => sound p ⟨v, hv, hp⟩, fun sound p ⟨v, hv, hp⟩ => sound v hv p hp⟩

/-- Attributes have no fault if each has a field and the field has none. -/
theorem firstFault_attributePlaces_eq_none_iff {typeName : String} {attributes : List (String × String)}
    {fields : List (String × Value)} :
    firstFault r (attributePlaces r typeName attributes fields) = none
      ↔ ∀ a ∈ attributes, ∃ v, fieldValue? a.1 fields = some v ∧ firstFault r (places r v) = none := by
  induction attributes with
  | nil =>
    rw [attributePlaces]
    exact ⟨fun _ a ha => absurd ha List.not_mem_nil, fun _ => rfl⟩
  | cons a others ih =>
    obtain ⟨attr, attrType⟩ := a
    rw [List.forall_mem_cons, ← ih]
    cases found : fieldValue? attr fields with
    | none =>
      have fault : firstFault r (attributePlaces r typeName ((attr, attrType) :: others) fields)
          = some (.attributeNotFound typeName attr) := by
        rw [attributePlaces_of_none found]
        exact firstFault_cons_of_some rfl
      simp [fault]
    | some v =>
      rw [attributePlaces_of_some found, firstFault_append, Option.or_eq_none_iff]
      simp

/-- Fields are those that the attributes find where there are as many of them, all of other names. -/
theorem exists_attribute_of_mem {attributes : List (String × String)} {fields : List (String × Value)}
    (apart : (attributes.map (·.1)).Nodup) (complete : fields.length = attributes.length)
    (named : ∀ a ∈ attributes, a.1 ∈ fields.map (·.1)) {field : String × Value} (hf : field ∈ fields) :
    ∃ a ∈ attributes, fieldValue? a.1 fields = some field.2 := by
  have subset : attributes.map (·.1) ⊆ fields.map (·.1) := by
    intro name hn
    obtain ⟨a, ha, rfl⟩ := List.mem_map.1 hn
    exact named a ha
  have perm : (attributes.map (·.1)).Perm (fields.map (·.1)) :=
    (List.subperm_of_subset apart subset).perm_of_length_le (by simp [complete])
  obtain ⟨a, ha, same⟩ := List.mem_map.1 (perm.mem_iff.2 (List.mem_map_of_mem hf))
  have found := List.map_inj_left.1 (map_fieldValue? (perm.nodup_iff.1 apart)) field hf
  exact ⟨a, ha, same ▸ found⟩

theorem firstFault_of_wellFormed {v : Value} (h : WellFormed r v) : firstFault r (places r v) = none := by
  induction h with
  | scalar plain => exact firstFault_scalar plain
  | enumeration known listed =>
    rw [places_enumeration, firstFault_cons_of_none (fault?_enumeration_eq_none_iff.2 ⟨_, known, listed⟩)]
    rfl
  | record known complete named _ each =>
    rw [places_record known, firstFault_cons_of_none (fault?_record_eq_none_iff.2 ⟨_, known, complete⟩),
      firstFault_attributePlaces_eq_none_iff]
    intro a ha
    obtain ⟨v, found⟩ := exists_fieldValue? (named a ha)
    exact ⟨v, found, each _ (mem_of_fieldValue? found)⟩
  | dynamic known carried =>
    rw [places_dynamic, firstFault_cons_of_none (fault?_dynamic_eq_none_iff.2 ⟨⟨_, known⟩, _, carried⟩)]
    rfl
  | array _ each =>
    rw [places, firstFault_cons_of_none rfl]
    exact firstFault_itemPlaces_eq_none_iff.2 each

/-- A value without a fault is well formed. The recursion is on its weight, since the fields of a record
are not met in their own order. -/
theorem wellFormed_of_firstFault (distinct : r.DistinctAttributes) {v : Value}
    (sound : firstFault r (places r v) = none) : WellFormed r v := by
  by_cases plain : isSubstituted v = false
  · exact .scalar plain
  · match v with
    | .enumeration typeName label =>
      rw [places_enumeration, firstFault_eq_none_iff, List.forall_mem_singleton,
        fault?_enumeration_eq_none_iff] at sound
      obtain ⟨definition, known, listed⟩ := sound
      exact .enumeration known listed
    | .array items =>
      rw [places, firstFault_cons_of_none rfl, firstFault_itemPlaces_eq_none_iff] at sound
      refine .array fun v hv => ?_
      have := weight_lt_of_mem hv
      exact wellFormed_of_firstFault distinct (sound v hv)
    | .record typeName fields =>
      have own : Place.fault? r (.value (.record typeName fields)) = none := by
        rw [places, firstFault_eq_none_iff] at sound
        exact sound _ List.mem_cons_self
      obtain ⟨definition, known, complete⟩ := fault?_record_eq_none_iff.1 own
      rw [places_record known, firstFault_cons_of_none own,
        firstFault_attributePlaces_eq_none_iff] at sound
      have named : ∀ a ∈ definition.attributes, a.1 ∈ fields.map (·.1) := by
        intro a ha
        obtain ⟨v, found, -⟩ := sound a ha
        exact mem_keys_of_fieldValue? found
      refine .record known complete named fun field hf => ?_
      have apart := distinct typeName definition (compositeDefinition_eq_ok known)
      obtain ⟨a, ha, mine⟩ := exists_attribute_of_mem apart complete named hf
      obtain ⟨v, found, sound⟩ := sound a ha
      obtain rfl := Option.some.inj (mine.symm.trans found)
      have := weight_lt_of_fieldValue? found
      exact wellFormed_of_firstFault distinct sound
    | .dynamic tag content =>
      rw [places_dynamic, firstFault_eq_none_iff, List.forall_mem_singleton,
        fault?_dynamic_eq_none_iff] at sound
      obtain ⟨⟨host, known⟩, document, carried⟩ := sound
      exact .dynamic known carried
    | .null | .boolean _ | .int16 _ | .int32 _ | .int64 _ | .float32 _ | .float64 _ | .decimal _
    | .text _ | .blob _ | .date _ | .time _ | .timestamp _ | .zoned _ | .uuid _ | .document _ =>
      exact absurd rfl plain
termination_by v.weight
decreasing_by
  all_goals simp only [Value.weight]; omega

/-- A value is well formed if and only if no place of it has a fault. -/
theorem wellFormed_iff (distinct : r.DistinctAttributes) {v : Value} :
    WellFormed r v ↔ firstFault r (places r v) = none :=
  ⟨firstFault_of_wellFormed, wellFormed_of_firstFault distinct⟩

/-! ## 5. Statements -/

/-- The values that a statement refers to, each name once and in order of appearance. -/
def referenced (sql : String) (params : Params) : List Value :=
  (Query.distinct (names (tokens sql))).filterMap params.get?

theorem mem_referenced {sql : String} {params : Params} {v : Value} :
    v ∈ referenced sql params ↔ ∃ n ∈ names (tokens sql), params.get? n = some v := by
  simp only [referenced, List.mem_filterMap, Query.mem_distinct]

/-- A name whose value has no fault is passed, and nothing is changed about the other names. Otherwise the
fault is reported. -/
theorem substituteName_cases (distinct : r.DistinctAttributes) (w : Substitution) (name : String) :
    (∃ e, substituteName r w name = .error e
      ∧ firstFault r (((w.params.get? name).toList).flatMap (places r)) = some e)
    ∨ ∃ w', substituteName r w name = .ok w'
      ∧ firstFault r (((w.params.get? name).toList).flatMap (places r)) = none
      ∧ ∀ n, n ≠ name → w'.params.get? n = w.params.get? n := by
  cases found : w.params.get? name with
  | none => exact .inr ⟨w, by rw [substituteName, found], rfl, fun _ _ => rfl⟩
  | some v =>
    rw [Option.toList_some, List.flatMap_singleton]
    cases asks : isSubstituted v with
    | false =>
      exact .inr ⟨w, by simp only [substituteName, found, asks, Bool.false_eq_true, if_false],
        firstFault_scalar asks, fun _ _ => rfl⟩
    | true =>
      cases written : write r name none false w.leaves v with
      | error e =>
        refine .inl ⟨e, ?_, (write_error_iff distinct).1 written⟩
        simp only [substituteName, found, asks, if_true, written]
        rfl
      | ok written' =>
        refine .inr ⟨⟨w.fragments ++ [(name, written'.1)], w.params.erase name, written'.2⟩, ?_,
          (writes_of_write written).firstFault_eq distinct trivial, fun n other => ?_⟩
        · simp only [substituteName, found, asks, if_true, written]
          rfl
        · rw [Dict.get?_erase, if_neg (Ne.symm other)]

/-- Going over names fails with the first fault of their values. The induction is on the names, of which
those that are left still have the values they had. -/
theorem foldlM_substituteName_error_iff (distinct : r.DistinctAttributes) {found : List String}
    (once : found.Nodup) {w : Substitution} {e : Error} :
    found.foldlM (substituteName r) w = .error e
      ↔ firstFault r ((found.filterMap w.params.get?).flatMap (places r)) = some e := by
  induction found generalizing w with
  | nil => exact ⟨nofun, nofun⟩
  | cons name rest ih =>
    obtain ⟨new, once⟩ := List.nodup_cons.1 once
    have parts : ((name :: rest).filterMap w.params.get?).flatMap (places r)
        = (w.params.get? name).toList.flatMap (places r)
          ++ (rest.filterMap w.params.get?).flatMap (places r) := by
      cases found : w.params.get? name <;> simp [found]
    rw [List.foldlM_cons, parts, firstFault_append]
    rcases substituteName_cases distinct w name with ⟨e', failed, fault⟩ | ⟨w', ok, sound, same⟩
    · rw [failed, fault, Option.some_or]
      exact ⟨fun h => congrArg some (Except.error.inj h), fun h => congrArg _ (Option.some.inj h)⟩
    · have unchanged : rest.filterMap w'.params.get? = rest.filterMap w.params.get? :=
        List.filterMap_congr fun n hn => same n fun met => new (met ▸ hn)
      rw [ok, sound, Option.none_or, ← unchanged]
      exact ih once

theorem expand_error_iff (distinct : r.DistinctAttributes) {sql : String} {params : Params} {e : Error} :
    expand r sql params = .error e
      ↔ firstFault r ((referenced sql params).flatMap (places r)) = some e := by
  have fold := foldlM_substituteName_error_iff (e := e) distinct
    (Query.nodup_distinct (names (tokens sql)))
    (w := ⟨[], params, ⟨params.keys ++ names (tokens sql), .empty⟩⟩)
  rw [referenced, ← fold]
  constructor
  · intro h
    rcases bind_eq_error h with failed | ⟨w, -, h⟩
    · exact failed
    · split at h <;> cases h
  · intro failed
    rw [expand, substitution, failed]
    rfl

/-- **Expansion succeeds exactly on well-formed values.** Where no type has two attributes of one name, a
statement is expanded if the values that it refers to are well formed, and otherwise fails with the fault
of the first place that has one: in the order of the names' first appearances, then depth first. Names
have no part in this, neither those of the statement nor those of other parameters nor the minted ones: two
statements that refer to the same values fail alike. -/
theorem expand_succeeds_iff (distinct : r.DistinctAttributes) (sql : String) (params : Params) :
    ((∃ e, expand r sql params = .ok e)
        ↔ ∀ n ∈ names (tokens sql), ∀ v, params.get? n = some v → WellFormed r v)
      ∧ (∀ error, expand r sql params = .error error
        ↔ ∃ before place after, (referenced sql params).flatMap (places r) = before ++ place :: after
          ∧ (∀ p ∈ before, p.fault? r = none) ∧ place.fault? r = some error)
      ∧ ∀ sql' params', referenced sql' params' = referenced sql params →
        ∀ error, expand r sql' params' = .error error ↔ expand r sql params = .error error := by
  refine ⟨?_, fun error => ?_, fun sql' params' same error => ?_⟩
  · have succeeds : (∃ e, expand r sql params = .ok e)
        ↔ firstFault r ((referenced sql params).flatMap (places r)) = none := by
      cases ok : expand r sql params with
      | ok e =>
        refine ⟨fun _ => ?_, fun _ => ⟨e, rfl⟩⟩
        cases fault : firstFault r ((referenced sql params).flatMap (places r)) with
        | none => rfl
        | some error =>
          rw [(expand_error_iff distinct).2 fault] at ok
          cases ok
      | error error =>
        rw [(expand_error_iff distinct).1 ok]
        exact ⟨nofun, nofun⟩
    rw [succeeds, ← itemPlaces_eq_flatMap, firstFault_itemPlaces_eq_none_iff]
    constructor
    · intro sound n hn v value
      exact (wellFormed_iff distinct).2 (sound v (mem_referenced.2 ⟨n, hn, value⟩))
    · intro sound v hv
      obtain ⟨n, hn, value⟩ := mem_referenced.1 hv
      exact (wellFormed_iff distinct).1 (sound n hn v value)
  · rw [expand_error_iff distinct, firstFault_eq_some_iff]
  · rw [expand_error_iff distinct, expand_error_iff distinct, same]

theorem wellFormed_twoSpots : WellFormed spots twoSpots := by
  have moods : WellFormed spots (.array [.enumeration "mood" "calm", .null]) := by
    have known : spots.enumDefinition "mood" = .ok ⟨"mood", ["calm", "wild"], default, none, []⟩ := rfl
    refine .array fun v hv => ?_
    rcases List.mem_cons.1 hv with rfl | hv
    · exact .enumeration known (by decide +kernel)
    · rw [List.mem_singleton.1 hv]
      exact .scalar rfl
  have spot : WellFormed spots (.record "spot"
      [("label", .text "pier"), ("moods", .array [.enumeration "mood" "calm", .null])]) := by
    have known : spots.compositeDefinition "spot"
        = .ok ⟨"spot", [("label", "text"), ("moods", "_mood")], none⟩ := rfl
    refine .record known rfl (by decide) fun f hf => ?_
    rcases List.mem_cons.1 hf with rfl | hf
    · exact .scalar rfl
    · rw [List.mem_singleton.1 hf]
      exact moods
  refine .array fun v hv => ?_
  rcases List.mem_cons.1 hv with rfl | hv
  · exact spot
  · rw [List.mem_singleton.1 hv]
    exact .scalar rfl

/-- A spot with a mood that is no label. -/
def dullSpot : Value :=
  .record "spot" [("label", .text "pier"), ("moods", .array [.enumeration "mood" "dull", .null])]

/-- A dull spot in an array, and a spot without fields. -/
def faulty : Params := Dict.ofList [("x", .array [dullSpot]), ("y", .record "spot" [])]

/-- Two spots are expanded. Of two faults the one inside the value that is named first is reported. -/
theorem expand_succeeds_iff_spots :
    spots.DistinctAttributes ∧ (∃ e, expand spots amongOthers clashing = .ok e)
      ∧ expand spots "SELECT :x, :y" faulty = .error (.enumConversionFailed "mood" "dull") := by
  obtain ⟨succeeds, -, -⟩ := expand_succeeds_iff distinctAttributes_spots amongOthers clashing
  obtain ⟨-, fails, -⟩ := expand_succeeds_iff distinctAttributes_spots "SELECT :x, :y" faulty
  refine ⟨distinctAttributes_spots, succeeds.2 ?_, (fails _).2 ?_⟩
  · have met : names (tokens amongOthers) = ["x_p1", "x", "x_p1_label"] := by decide +kernel
    rw [met, List.forall_mem_cons, List.forall_mem_cons, List.forall_mem_singleton]
    refine ⟨fun v value => ?_, fun v value => ?_, fun v value => ?_⟩
    · cases value
      exact .scalar rfl
    · cases value
      exact wellFormed_twoSpots
    · cases value
      exact .scalar rfl
  · refine ⟨[.value (.array [dullSpot]), .value dullSpot, .value (.text "pier"),
        .value (.array [.enumeration "mood" "dull", .null])], .value (.enumeration "mood" "dull"),
      [.value .null, .value (.record "spot" []), .absent "spot" "label", .absent "spot" "moods"],
      by cbv, ?_, by cbv⟩
    rw [List.forall_mem_cons, List.forall_mem_cons, List.forall_mem_cons, List.forall_mem_singleton]
    exact ⟨rfl, rfl, rfl, rfl⟩

end Expansion

end TypedStore
