/-
What start-up promises at run time. A merge keeps what its checks saw: a definition that is there keeps
its labels and its attributes, whatever is merged behind it (`Registry.Keeps`). Attributes are checked
for their number and for being known, which makes those of the store an order of those of the host where
the host has none twice (`perm_of_checkAttributes`). So records of a host type are written attribute by
attribute, and variants of a host enumeration are labels (`RegistryBuilder.promises_kept`).
-/
import TypedStore.Proofs.Extraction.Retraction
import TypedStore.Proofs.Plan.Recording
import TypedStore.Registry.Loading

set_option autoImplicit false

namespace TypedStore

/-! ## 1. What a merge keeps -/

/-- Every entry of a dictionary is in the other one, and the same as far as `part` shows. -/
def Dict.Keeps {α β : Type} (part : α → β) (d d' : Dict α) : Prop :=
  ∀ key value, d.get? key = some value → ∃ value', d'.get? key = some value' ∧ part value' = part value

namespace Dict.Keeps

variable {α β : Type} {part : α → β} {d d₁ d₂ : Dict α}

theorem refl : d.Keeps part d := fun _ value found => ⟨value, found, rfl⟩

theorem trans (h : d.Keeps part d₁) (h' : d₁.Keeps part d₂) : d.Keeps part d₂ := by
  intro key value found
  obtain ⟨value₁, found₁, same⟩ := h key value found
  obtain ⟨value₂, found₂, same'⟩ := h' key value₁ found₁
  exact ⟨value₂, found₂, same'.trans same⟩

/-- An entry may be set where it shows the same part as the one that was there. -/
theorem insert {key : String} {value : α}
    (same : ∀ old, d.get? key = some old → part value = part old) :
    d.Keeps part (d.insert key value) := by
  intro other old found
  rw [get?_insert]
  by_cases here : key = other
  · subst here
    exact ⟨value, if_pos rfl, same old found⟩
  · exact ⟨old, (if_neg here).trans found, rfl⟩

end Dict.Keeps

namespace Registry

/-- Definitions stay, enumerations with their labels and composite types with their attributes. -/
structure Keeps (r r' : Registry) : Prop where
  enums : r.enums.Keeps EnumDefinition.labels r'.enums
  composites : r.composites.Keeps CompositeDefinition.attributes r'.composites

variable {strict : Bool} {r r' : Registry} {e : EnumRegistration} {c : CompositeRegistration}

theorem Keeps.refl (r : Registry) : r.Keeps r := ⟨.refl, .refl⟩

theorem Keeps.trans {r₁ r₂ : Registry} (h : r.Keeps r₁) (h' : r₁.Keeps r₂) : r.Keeps r₂ :=
  ⟨h.enums.trans h'.enums, h.composites.trans h'.composites⟩

theorem keeps_addEnum (ok : r.addEnum strict e = .ok r') : r.Keeps r' := by
  rcases addEnum_eq_ok.1 ok with ⟨store, found, -, rfl⟩ | ⟨absent, -, rfl⟩
  · refine ⟨.insert fun old here => ?_, .refl⟩
    rw [found] at here
    cases here
    rfl
  · refine ⟨.insert fun old here => ?_, .refl⟩
    rw [absent] at here
    cases here

theorem keeps_addComposite (ok : r.addComposite strict c = .ok r') : r.Keeps r' := by
  rcases addComposite_eq_ok.1 ok with ⟨store, found, -, rfl⟩ | ⟨absent, -, rfl⟩
  · refine ⟨.refl, .insert fun old here => ?_⟩
    rw [found] at here
    cases here
    rfl
  · refine ⟨.refl, .insert fun old here => ?_⟩
    rw [absent] at here
    cases here

theorem keeps_addDynamicComposite {needed : Bool} (ok : r.addDynamicComposite strict needed = .ok r') :
    r.Keeps r' := by
  rcases eq_of_addDynamicComposite ok with ⟨-, rfl⟩ | ⟨absent, rfl⟩
  · exact .refl r'
  · refine ⟨.refl, .insert fun old here => ?_⟩
    rw [Dict.contains, here] at absent
    cases absent

/-- Every step of a merge keeps definitions. -/
theorem keptBy_keeps (strict : Bool) (b : RegistryBuilder) : KeptBy Keeps strict b where
  refl := .refl
  trans := .trans
  enum _ _ _ _ := keeps_addEnum
  composite _ _ _ _ := keeps_addComposite
  dynamicComposite := keeps_addDynamicComposite
  dynamic _ _ _ := ⟨.refl, .refl⟩

/-! ## 2. What the checks see -/

theorem attribute_of_checkAttribute {store : CompositeDefinition} {dynamicType attr hostType : String}
    (ok : checkAttribute store dynamicType attr hostType = .ok ()) :
    attr ∈ store.attributes.map (·.1) := by
  unfold checkAttribute at ok
  cases found : store.attributeType? attr with
  | none =>
    rw [found] at ok
    cases ok
  | some storeType =>
    obtain ⟨listed, first, -⟩ := Option.map_eq_some_iff.1 found
    have same : listed.1 = attr := by simpa using List.find?_some first
    exact same ▸ List.mem_map_of_mem (List.mem_of_find?_eq_some first)

/-- What the check of all attributes sees of each. -/
theorem checkAttribute_of_checkAttributes {store : CompositeDefinition}
    {attributes : List (String × String)} {dynamicType : String}
    (ok : checkAttributes store attributes dynamicType = .ok ()) :
    ∀ a ∈ attributes, checkAttribute store dynamicType a.1 a.2 = .ok () := by
  unfold checkAttributes at ok
  split at ok
  · cases ok
  · rename_i asMany
    clear asMany
    rw [List.forM_eq_forM] at ok
    induction attributes with
    | nil => exact fun _ ha => absurd ha List.not_mem_nil
    | cons first rest ih =>
      rw [List.forM_cons] at ok
      obtain ⟨_, one, others⟩ := bind_eq_ok_iff.1 ok
      intro a ha
      rcases List.mem_cons.1 ha with rfl | ha
      · exact one
      · exact ih others a ha

/-- As many attributes, each of them known and none twice: the store has the same ones in some order. -/
theorem perm_of_checkAttributes {store : CompositeDefinition} {attributes : List (String × String)}
    {dynamicType : String} (ok : checkAttributes store attributes dynamicType = .ok ())
    (distinct : (attributes.map (·.1)).Nodup) :
    (store.attributes.map (·.1)).Perm (attributes.map (·.1)) := by
  have known : attributes.map (·.1) ⊆ store.attributes.map (·.1) := by
    intro attr listed
    obtain ⟨a, ha, rfl⟩ := List.mem_map.1 listed
    exact attribute_of_checkAttribute (checkAttribute_of_checkAttributes ok a ha)
  have within := List.subperm_of_subset distinct known
  unfold checkAttributes at ok
  split at ok
  · cases ok
  · rename_i asMany
    have length : (store.attributes.map (·.1)).length = (attributes.map (·.1)).length := by
      rw [List.length_map, List.length_map, Decidable.not_not.1 asMany]
    exact (within.perm_of_length_le (Nat.le_of_eq length)).symm

theorem map_fst_retarget (c : CompositeRegistration) (dynamicType : String) :
    (c.retarget dynamicType).attributes.map (·.1) = c.attributes.map (·.1) := by
  rw [CompositeRegistration.retarget, List.map_map]
  rfl

/-- A record type that was added has its attributes in the registry, each once. -/
theorem perm_of_addComposite (ok : r.addComposite strict c = .ok r')
    (distinct : (c.attributes.map (·.1)).Nodup) :
    ∃ definition, r'.composites.get? c.typeName = some definition
      ∧ (definition.attributes.map (·.1)).Perm (c.attributes.map (·.1)) := by
  rcases addComposite_eq_ok.1 ok with ⟨store, -, checked, rfl⟩ | ⟨-, -, rfl⟩
  · refine ⟨_, Dict.get?_insert_self _ _ _, ?_⟩
    rw [← map_fst_retarget c r.dynamicType] at distinct ⊢
    exact perm_of_checkAttributes checked distinct
  · refine ⟨_, Dict.get?_insert_self _ _ _, ?_⟩
    rw [CompositeRegistration.definition, map_fst_retarget]

/-- The variants of an enumeration that was added are labels. -/
theorem hasLabel_of_addEnum (ok : r.addEnum strict e = .ok r') {label variant : String}
    (listed : (label, variant) ∈ e.constants) :
    ∃ definition, r'.enums.get? e.typeName = some definition ∧ definition.hasLabel label = true := by
  rcases addEnum_eq_ok.1 ok with ⟨store, -, all, rfl⟩ | ⟨-, -, rfl⟩
  · exact ⟨_, Dict.get?_insert_self _ _ _, all _ listed⟩
  · refine ⟨_, Dict.get?_insert_self _ _ _, ?_⟩
    rw [EnumDefinition.hasLabel, List.contains_iff_mem]
    exact List.mem_map_of_mem listed

/-! ## 3. What is there when a merge is done -/

/-- Host types are in a registry as they were when they were added. -/
structure Admits (r : Registry) (b : RegistryBuilder) : Prop where
  enums : ∀ e ∈ b.enums, ∀ label variant, (label, variant) ∈ e.constants →
    ∃ definition, r.enums.get? e.typeName = some definition ∧ definition.hasLabel label = true
  composites : ∀ c ∈ b.composites, (c.attributes.map (·.1)).Nodup →
    ∃ definition, r.composites.get? c.typeName = some definition
      ∧ (definition.attributes.map (·.1)).Perm (c.attributes.map (·.1))

theorem admits_of_merge {b : RegistryBuilder} (ok : b.merge strict = .ok r) : r.Admits b := by
  obtain ⟨r₀, passed, rfl⟩ := passed_of_merge (keptBy_keeps strict b) ok
  constructor
  · intro e he label variant listed
    obtain ⟨before, after, step, kept⟩ := passed.enum e he
    obtain ⟨definition, found, has⟩ := hasLabel_of_addEnum step listed
    obtain ⟨definition', found', same⟩ := kept.enums _ _ found
    exact ⟨definition', found', by rw [EnumDefinition.hasLabel, same]; exact has⟩
  · intro c hc distinct
    obtain ⟨before, after, step, kept⟩ := passed.composite c hc
    obtain ⟨definition, found, perm⟩ := perm_of_addComposite step distinct
    obtain ⟨definition', found', same⟩ := kept.composites _ _ found
    exact ⟨definition', found', by rw [same]; exact perm⟩

end Registry

/-! ## 4. Records attribute by attribute -/

namespace Expansion

variable {r : Registry} {name typeName : String}

/-- Writes values under the paths of attributes, one after the other. -/
def writeParts (r : Registry) (name : String) (leaves : Leaves) :
    List ((String × String) × Value) → Except Error (List Fragment × Leaves)
  | [] => .ok ([], leaves)
  | ((attr, attrType), v) :: rest => do
    let (fragment, leaves) ← write r (leaves.fresh (attributePath name attr)) (some attrType) true leaves v
    let (fragments, leaves) ← writeParts r name leaves rest
    pure (fragment :: fragments, leaves)

/-- Where every attribute has its field, the fields are written in the order of the attributes, and
nothing fails but what fails in a field. -/
theorem writeAttributes_eq {attributes : List (String × String)} {fields : List (String × Value)}
    {values : List Value} (distinct : (attributes.map (·.1)).Nodup)
    (found : attributes.map (fun a => fieldValue? a.1 fields) = values.map some) (leaves : Leaves) :
    writeAttributes r name typeName leaves attributes fields
      = writeParts r name leaves (attributes.zip values) := by
  induction attributes generalizing fields values leaves with
  | nil => rw [writeAttributes.eq_1, List.zip_nil_left, writeParts]
  | cons listed others ih =>
    obtain ⟨attr, attrType⟩ := listed
    obtain ⟨v, rest, rfl, first, later⟩ := List.map_eq_cons_iff.1 found.symm
    rw [List.map_cons, List.nodup_cons] at distinct
    have taken : takeField? attr fields = some (v, blankField attr fields) := by
      have here : fieldValue? attr fields = some v := first.symm
      rw [takeField?, here]
      rfl
    -- a field that was taken out is that of no attribute behind
    have left : others.map (fun a => fieldValue? a.1 (blankField attr fields)) = rest.map some := by
      rw [later]
      exact List.map_congr_left (fieldValue?_behind distinct.1 fields)
    rw [writeAttributes.eq_2, List.zip_cons_cons, writeParts]
    split
    · rename_i absent
      rw [taken] at absent
      cases absent
    · rename_i same
      rw [taken] at same
      cases same
      exact bind_congr fun written => congrArg (· >>= _) (ih distinct.2 left _)

/-- A record whose fields are the attributes of its type in any order is written as a row with the field
of each attribute in its place, unless one of the fields cannot be written. -/
theorem write_record {definition : CompositeDefinition} {fields : List (String × Value)}
    (known : r.composites.get? typeName = some definition)
    (distinct : (definition.attributes.map (·.1)).Nodup)
    (named : (fields.map (·.1)).Perm (definition.attributes.map (·.1))) :
    ∃ values, definition.attributes.map (fun a => fieldValue? a.1 fields) = values.map some
      ∧ ∀ name slot? nested leaves,
        write r name slot? nested leaves (.record typeName fields)
          = (writeParts r name leaves (definition.attributes.zip values)).map
              fun written => (.row written.1 definition.typeName, written.2) := by
  -- every attribute is the name of a field
  have found : ∀ a ∈ definition.attributes,
      fieldValue? a.1 fields = some ((fieldValue? a.1 fields).getD .null) := by
    intro a ha
    obtain ⟨v, here⟩ := exists_fieldValue? (named.mem_iff.2 (List.mem_map_of_mem ha))
    rw [here, Option.getD_some]
  have all : definition.attributes.map (fun a => fieldValue? a.1 fields)
      = (definition.attributes.map fun a => (fieldValue? a.1 fields).getD .null).map some := by
    rw [List.map_map]
    exact List.map_congr_left found
  refine ⟨_, all, fun name slot? nested leaves => ?_⟩
  have complete : fields.length = definition.attributes.length := by
    simpa using named.length_eq
  have definitionOf : r.compositeDefinition typeName = .ok definition := by
    rw [Registry.compositeDefinition, known]
  rw [write, definitionOf]
  simp only [bind, Except.bind, ne_eq, complete, not_true, if_false]
  rw [writeAttributes_eq distinct all]
  cases writeParts r name leaves (definition.attributes.zip _) <;> rfl

end Expansion

/-! ## 5. At run time -/

namespace RegistryBuilder

variable {b : RegistryBuilder} {r : Registry}

/-- A builder was made into a registry, in memory or with what a store answered. -/
inductive Starts (b : RegistryBuilder) (r : Registry) : Prop where
  | built (ok : b.build = .ok r)
  | loaded {σ : Type} {source : List String → Action σ Catalog} {j j' : Journal σ}
      (ok : (b.loadBy source).perform j = (.ok r, j'))

/-- Loading asks the source, and merges what it answers strictly. -/
theorem perform_loadBy {σ : Type} (b : RegistryBuilder) (source : List String → Action σ Catalog)
    (j : Journal σ) :
    (b.loadBy source).perform j
      = match (source b.effectiveSchemas).perform j with
        | (.ok catalog, j') =>
          (b.loadFrom catalog, ⟨j'.state, j'.log ++ (b.withCatalog catalog).notes true⟩)
        | (.error e, j') => (.error e, j') := by
  rw [loadBy, Action.perform_bind]
  rcases (source b.effectiveSchemas).perform j with ⟨e | catalog, j'⟩
  · rfl
  · show (Action.notes ((b.withCatalog catalog).notes true) >>= fun _ =>
      Action.ofExcept (b.loadFrom catalog)).perform j' = (b.loadFrom catalog, _)
    rw [Action.perform_bind]
    show (Action.ofExcept (b.loadFrom catalog)).perform
      ⟨j'.state, j'.log ++ (b.withCatalog catalog).notes true⟩ = _
    cases b.loadFrom catalog <;> rfl

/-- Either way it is merged with a catalog, which has no host types. -/
theorem Starts.merged (h : b.Starts r) :
    ∃ (strict : Bool) (b' : RegistryBuilder), b'.enums = b.enums ∧ b'.composites = b.composites
      ∧ b'.merge strict = .ok r := by
  cases h with
  | built ok => exact ⟨false, b, rfl, rfl, ok⟩
  | @loaded _ source j _ ok =>
    rw [perform_loadBy] at ok
    rcases answered : (source b.effectiveSchemas).perform j with ⟨e | catalog, j'⟩
    · rw [answered] at ok
      cases ok
    · rw [answered] at ok
      exact ⟨true, b.withCatalog catalog, rfl, rfl, congrArg Prod.fst ok⟩

open Expansion Extraction in
/-- **What start-up has checked does not fail at run time.** Record types whose attributes are distinct
are in the registry with the same attributes in some order, and a record of the type is written
attribute by attribute: nothing can fail but one of its fields. Variants of enumerations are labels,
for expansion as for extraction. -/
theorem promises_kept (starts : b.Starts r) :
    (∀ c ∈ b.composites, (c.attributes.map (·.1)).Nodup →
      ∃ definition, r.composites.get? c.typeName = some definition
        ∧ (definition.attributes.map (·.1)).Perm (c.attributes.map (·.1))
        ∧ ∀ fields, (fields.map (·.1)).Perm (c.attributes.map (·.1)) →
          ∃ values, definition.attributes.map (fun a => fieldValue? a.1 fields) = values.map some
            ∧ ∀ name slot? nested leaves,
              write r name slot? nested leaves (.record c.typeName fields)
                = (writeParts r name leaves (definition.attributes.zip values)).map
                    fun written => (.row written.1 definition.typeName, written.2))
      ∧ ∀ e ∈ b.enums, ∀ label variant, (label, variant) ∈ e.constants →
        (∃ definition, r.enums.get? e.typeName = some definition ∧ definition.hasLabel label = true)
          ∧ (∀ name slot? nested leaves,
            write r name slot? nested leaves (.enumeration e.typeName label)
              = .ok (.parameter name (if nested then some e.typeName else none),
                  leaves.bind name (.enumeration e.typeName label)))
          ∧ ∀ v, v = .enumeration e.typeName label ∨ v = .text label →
            extractEnum r e.typeName v = .ok (.enumeration e.typeName label) := by
  obtain ⟨strict, b', sameEnums, sameComposites, ok⟩ := starts.merged
  have admits := Registry.admits_of_merge ok
  have coherent := (Registry.Built.merged ok).coherent
  rw [← sameEnums, ← sameComposites]
  constructor
  · intro c hc distinct
    obtain ⟨definition, known, perm⟩ := admits.composites c hc distinct
    exact ⟨definition, known, perm, fun fields named =>
      write_record known (perm.nodup_iff.2 distinct) (named.trans perm.symm)⟩
  · intro e he label variant listed
    obtain ⟨definition, known, has⟩ := admits.enums e he label variant listed
    have own : definition.typeName = e.typeName := coherent.enums _ _ known
    have definitionOf : r.enumDefinition e.typeName = .ok definition := by
      rw [Registry.enumDefinition, known]
    refine ⟨⟨definition, known, has⟩, fun name slot? nested leaves => ?_, fun v hv => ?_⟩
    · rw [write, writeEnum, definitionOf]
      simp only [bind, Except.bind, has, if_true]
      rfl
    · rw [← own]
      rcases hv with rfl | rfl
      · exact extractEnum_eq_ok.2 ⟨definition, label, own ▸ definitionOf, rfl, has, rfl⟩
      · exact extractEnum_eq_ok.2 ⟨definition, label, own ▸ definitionOf, rfl, has, rfl⟩

/-- Two host types of one name, which list its attributes in different orders, and a mood. -/
def twoHosts : RegistryBuilder :=
  { empty with
    enums := [⟨"mood", default, "Mood", [("calm", "Calm"), ("wild", "Wild")]⟩]
    composites := [⟨"spot", [("x", "int4"), ("label", "text")], "Spot"⟩,
      ⟨"spot", [("label", "text"), ("x", "int4")], "Place"⟩] }

theorem promises_kept_twoHosts :
    ∃ r, twoHosts.Starts r
      ∧ (∃ definition, r.composites.get? "spot" = some definition
        ∧ (definition.attributes.map (·.1)).Perm ["label", "x"])
      ∧ Extraction.extractEnum r "mood" (.text "wild") = .ok (.enumeration "mood" "wild") := by
  have succeeds : twoHosts.build.isOk = true := by decide +kernel
  cases built : twoHosts.build with
  | error e =>
    rw [built] at succeeds
    cases succeeds
  | ok r =>
    obtain ⟨records, enums⟩ := promises_kept (.built built)
    obtain ⟨definition, known, perm, -⟩ :=
      records ⟨"spot", [("label", "text"), ("x", "int4")], "Place"⟩ (by simp [twoHosts]) (by decide)
    obtain ⟨-, -, read⟩ :=
      enums ⟨"mood", default, "Mood", [("calm", "Calm"), ("wild", "Wild")]⟩ (by simp [twoHosts])
        "wild" "Wild" (by simp)
    exact ⟨r, .built built, ⟨definition, known, perm⟩, read _ (.inr rfl)⟩

end RegistryBuilder

end TypedStore
