/-
The maps of a registry agree with each other. Host types are added one after the other, and a later one
takes the place of an earlier one of the same name, in one map or in several. What the maps say is
accounted for by the host types that were added so far (`Registry.Accounts`): each step of a merge keeps
the account, so whatever is mapped comes from a host type and whatever a host type declares is mapped.
Where a host type is declared once, looking it up forth and back leads to where it started
(`RegistryBuilder.consistent_of_startsWith`).
-/
import TypedStore.Proofs.Extraction.Failing
import TypedStore.Proofs.Registry.Startup

set_option autoImplicit false

namespace TypedStore

/-! ## 1. Arrays -/

namespace Dict

variable {α : Type}

/-- Behind an insertion, what was there is there still. -/
theorem contains_insert_of {d : Dict α} {key other : String} {value : α}
    (there : d.contains other = true) : (d.insert key value).contains other = true := by
  rw [contains_insert, there, Bool.or_true]

theorem contains_insert_self (d : Dict α) (key : String) (value : α) :
    (d.insert key value).contains key = true := by
  rw [contains_insert, decide_eq_true rfl, Bool.true_or]

end Dict

theorem arrayOf_inj {a b : String} (same : arrayOf a = arrayOf b) : a = b := by
  have chars := congrArg String.toList same
  rw [arrayOf, arrayOf, String.toList_append, String.toList_append] at chars
  exact String.toList_inj.1 (List.append_cancel_left chars)

/-- Naming arrays keeps those that are there, and names one for each element that has none. -/
theorem get?_nameArrays (names : List String) (arrays : Dict ArrayDefinition) (key : String) :
    (names.foldl (fun arrays element => arrays.insertNew (arrayOf element) ⟨arrayOf element, element⟩)
        arrays).get? key
      = (arrays.get? key).or
        ((names.find? fun element => arrayOf element == key).map fun element => ⟨key, element⟩) := by
  induction names generalizing arrays with
  | nil => simp
  | cons element rest ih =>
    rw [List.foldl_cons, ih, Dict.get?_insertNew, List.find?_cons]
    by_cases own : arrayOf element = key
    · subst own
      rw [if_pos rfl, beq_self_eq_true]
      cases arrays.get? (arrayOf element) <;> rfl
    · rw [if_neg own, beq_false_of_ne own]

/-! ## 2. What host types declare -/

namespace RegistryBuilder

/-- A host type is declared for a store type. Every self describing type is declared for the composite
type that carries such values. -/
inductive Declares (b : RegistryBuilder) (dynamicType : String) : String → String → Prop where
  | enumeration {e : EnumRegistration} (added : e ∈ b.enums) :
      Declares b dynamicType e.host e.typeName
  | composite {c : CompositeRegistration} (added : c ∈ b.composites) :
      Declares b dynamicType c.host c.typeName
  | dynamic {d : DynamicRegistration} (added : d ∈ b.dynamics) : Declares b dynamicType d.host dynamicType

/-- Every host type is declared in one way only: as an enumeration of one name, as a record of one name,
or as self describing with one list of tags. -/
structure DeclaresOnce (b : RegistryBuilder) : Prop where
  enums : ∀ e ∈ b.enums, ∀ e' ∈ b.enums, e.host = e'.host → e.typeName = e'.typeName
  composites : ∀ c ∈ b.composites, ∀ c' ∈ b.composites, c.host = c'.host → c.typeName = c'.typeName
  dynamics : ∀ d ∈ b.dynamics, ∀ d' ∈ b.dynamics, d.host = d'.host → d.tags = d'.tags
  enumOrComposite : ∀ e ∈ b.enums, ∀ c ∈ b.composites, e.host ≠ c.host
  enumOrDynamic : ∀ e ∈ b.enums, ∀ d ∈ b.dynamics, e.host ≠ d.host
  compositeOrDynamic : ∀ c ∈ b.composites, ∀ d ∈ b.dynamics, c.host ≠ d.host

/-- A host type that is declared once has one store type. -/
theorem DeclaresOnce.unique {b : RegistryBuilder} (once : b.DeclaresOnce)
    {dynamicType host name name' : String} (one : b.Declares dynamicType host name)
    (other : b.Declares dynamicType host name') : name = name' := by
  -- the host is kept apart from its equation, so that both declarations can be taken apart
  generalize same : host = host' at other
  cases one with
  | enumeration he =>
    cases other with
    | enumeration he' => exact once.enums _ he _ he' same
    | composite hc => exact absurd same (once.enumOrComposite _ he _ hc)
    | dynamic hd => exact absurd same (once.enumOrDynamic _ he _ hd)
  | composite hc =>
    cases other with
    | enumeration he => exact absurd same.symm (once.enumOrComposite _ he _ hc)
    | composite hc' => exact once.composites _ hc _ hc' same
    | dynamic hd => exact absurd same (once.compositeOrDynamic _ hc _ hd)
  | dynamic hd =>
    cases other with
    | enumeration he => exact absurd same.symm (once.enumOrDynamic _ he _ hd)
    | composite hc => exact absurd same.symm (once.compositeOrDynamic _ hc _ hd)
    | dynamic _ => rfl

end RegistryBuilder

namespace Registry

variable {strict : Bool} {b : RegistryBuilder} {r r' : Registry}

/-! ## 3. Whatever is mapped is declared -/

/-- What the maps of a registry say is declared by a host type. -/
structure Accounts (b : RegistryBuilder) (r : Registry) : Prop where
  enums : r.enums.All fun name d => ∀ host, d.host? = some host →
    ∃ e ∈ b.enums, e.host = host ∧ e.typeName = name
  composites : r.composites.All fun name d => ∀ host, d.host? = some host →
    ∃ c ∈ b.composites, c.host = host ∧ c.typeName = name
  storeTypes : r.storeTypes.All (b.Declares r.dynamicType)
  tagHosts : r.tagHosts.All fun tag host => ∃ d ∈ b.dynamics, d.host = host ∧ tag ∈ d.tags
  hostTags : r.hostTags.All fun host tags => ∃ d ∈ b.dynamics, d.host = host ∧ d.tags = tags

/-- Types that the store lists have no host type. -/
theorem accounts_start (b : RegistryBuilder) : b.start.Accounts b where
  enums := by
    refine Dict.all_empty.insertAll fun entry listed host own => ?_
    obtain ⟨_, -, rfl⟩ := List.mem_map.1 listed
    cases own
  composites := by
    refine Dict.all_empty.insertAll fun entry listed host own => ?_
    obtain ⟨_, -, rfl⟩ := List.mem_map.1 listed
    cases own
  storeTypes := Dict.all_empty
  tagHosts := Dict.all_empty
  hostTags := Dict.all_empty

theorem Accounts.addEnum {e : EnumRegistration} (added : e ∈ b.enums) (h : r.Accounts b)
    (ok : r.addEnum strict e = .ok r') : r'.Accounts b := by
  have own : ∀ host, some e.host = some host → ∃ e' ∈ b.enums, e'.host = host ∧ e'.typeName = e.typeName :=
    fun host same => ⟨e, added, Option.some.inj same, rfl⟩
  rcases addEnum_eq_ok.1 ok with ⟨store, -, -, rfl⟩ | ⟨-, -, rfl⟩
  · exact ⟨h.enums.insert own, h.composites, h.storeTypes.insert (.enumeration added), h.tagHosts,
      h.hostTags⟩
  · exact ⟨h.enums.insert own, h.composites, h.storeTypes.insert (.enumeration added), h.tagHosts,
      h.hostTags⟩

theorem Accounts.addComposite {c : CompositeRegistration} (added : c ∈ b.composites)
    (h : r.Accounts b) (ok : r.addComposite strict c = .ok r') : r'.Accounts b := by
  have own : ∀ host, some c.host = some host →
      ∃ c' ∈ b.composites, c'.host = host ∧ c'.typeName = c.typeName :=
    fun host same => ⟨c, added, Option.some.inj same, rfl⟩
  rcases addComposite_eq_ok.1 ok with ⟨store, -, -, rfl⟩ | ⟨-, -, rfl⟩
  · exact ⟨h.enums, h.composites.insert own, h.storeTypes.insert (.composite added), h.tagHosts,
      h.hostTags⟩
  · exact ⟨h.enums, h.composites.insert own, h.storeTypes.insert (.composite added), h.tagHosts,
      h.hostTags⟩

theorem Accounts.addDynamicComposite {needed : Bool} (h : r.Accounts b)
    (ok : r.addDynamicComposite strict needed = .ok r') : r'.Accounts b := by
  rcases eq_of_addDynamicComposite ok with ⟨-, rfl⟩ | ⟨-, rfl⟩
  · exact h
  · exact ⟨h.enums, h.composites.insert nofun, h.storeTypes, h.tagHosts, h.hostTags⟩

theorem Accounts.addDynamic {d : DynamicRegistration} (added : d ∈ b.dynamics) (h : r.Accounts b) :
    (r.addDynamic d).Accounts b where
  enums := h.enums
  composites := h.composites
  storeTypes := h.storeTypes.insert (.dynamic added)
  tagHosts := by
    refine h.tagHosts.insertAll fun entry listed => ?_
    obtain ⟨tag, own, rfl⟩ := List.mem_map.1 listed
    exact ⟨d, added, rfl, own⟩
  hostTags := h.hostTags.insert ⟨d, added, rfl, rfl⟩

/-- Every step of a merge keeps the account. -/
theorem keptBy_accounts (strict : Bool) (b : RegistryBuilder) :
    KeptBy (fun r r' => r.Accounts b → r'.Accounts b) strict b where
  refl _ := id
  trans first second h := second (first h)
  enum _ added _ _ ok h := h.addEnum added ok
  composite _ added _ _ ok h := h.addComposite added ok
  dynamicComposite ok h := h.addDynamicComposite ok
  dynamic _ added _ h := h.addDynamic added

/-! ## 4. Whatever is declared is mapped -/

/-- What has a definition or a mapping keeps having one. -/
structure Grows (r r' : Registry) : Prop where
  dynamicType : r'.dynamicType = r.dynamicType
  arrays : r'.arrays = r.arrays
  enums : ∀ {name : String}, r.enums.contains name = true → r'.enums.contains name = true
  composites : ∀ {name : String}, r.composites.contains name = true → r'.composites.contains name = true
  storeTypes : ∀ {host : String}, r.storeTypes.contains host = true → r'.storeTypes.contains host = true
  hostTags : ∀ {host : String}, r.hostTags.contains host = true → r'.hostTags.contains host = true

theorem Grows.trans {r₁ r₂ : Registry} (h : r.Grows r₁) (h' : r₁.Grows r₂) : r.Grows r₂ where
  dynamicType := h'.dynamicType.trans h.dynamicType
  arrays := h'.arrays.trans h.arrays
  enums known := h'.enums (h.enums known)
  composites known := h'.composites (h.composites known)
  storeTypes known := h'.storeTypes (h.storeTypes known)
  hostTags known := h'.hostTags (h.hostTags known)

theorem grows_addEnum {e : EnumRegistration} (ok : r.addEnum strict e = .ok r') :
    r.Grows r' ∧ r'.enums.contains e.typeName = true ∧ r'.storeTypes.contains e.host = true := by
  rcases addEnum_eq_ok.1 ok with ⟨store, -, -, rfl⟩ | ⟨-, -, rfl⟩
  · exact ⟨⟨rfl, rfl, Dict.contains_insert_of, id, Dict.contains_insert_of, id⟩,
      Dict.contains_insert_self _ _ _, Dict.contains_insert_self _ _ _⟩
  · exact ⟨⟨rfl, rfl, Dict.contains_insert_of, id, Dict.contains_insert_of, id⟩,
      Dict.contains_insert_self _ _ _, Dict.contains_insert_self _ _ _⟩

theorem grows_addComposite {c : CompositeRegistration} (ok : r.addComposite strict c = .ok r') :
    r.Grows r' ∧ r'.composites.contains c.typeName = true ∧ r'.storeTypes.contains c.host = true := by
  rcases addComposite_eq_ok.1 ok with ⟨store, -, -, rfl⟩ | ⟨-, -, rfl⟩
  · exact ⟨⟨rfl, rfl, id, Dict.contains_insert_of, Dict.contains_insert_of, id⟩,
      Dict.contains_insert_self _ _ _, Dict.contains_insert_self _ _ _⟩
  · exact ⟨⟨rfl, rfl, id, Dict.contains_insert_of, Dict.contains_insert_of, id⟩,
      Dict.contains_insert_self _ _ _, Dict.contains_insert_self _ _ _⟩

theorem grows_addDynamicComposite {needed : Bool} (ok : r.addDynamicComposite strict needed = .ok r') :
    r.Grows r' ∧ r'.composites.contains r'.dynamicType = true := by
  rcases eq_of_addDynamicComposite ok with ⟨known, rfl⟩ | ⟨-, rfl⟩
  · exact ⟨⟨rfl, rfl, id, id, id, id⟩, known⟩
  · exact ⟨⟨rfl, rfl, id, Dict.contains_insert_of, id, id⟩, Dict.contains_insert_self _ _ _⟩

theorem grows_addDynamic (r : Registry) (d : DynamicRegistration) :
    r.Grows (r.addDynamic d) ∧ (r.addDynamic d).storeTypes.contains d.host = true
      ∧ (r.addDynamic d).hostTags.contains d.host = true :=
  ⟨⟨rfl, rfl, id, id, Dict.contains_insert_of, Dict.contains_insert_of⟩,
    Dict.contains_insert_self _ _ _, Dict.contains_insert_self _ _ _⟩

/-- Every step of a merge adds to what is there. -/
theorem keptBy_grows (strict : Bool) (b : RegistryBuilder) : KeptBy Grows strict b where
  refl _ := ⟨rfl, rfl, id, id, id, id⟩
  trans := .trans
  enum _ _ _ _ ok := (grows_addEnum ok).1
  composite _ _ _ _ ok := (grows_addComposite ok).1
  dynamicComposite ok := (grows_addDynamicComposite ok).1
  dynamic d _ r := (grows_addDynamic r d).1

/-- Whether a name is that of an enumeration or a composite type. -/
def Defines (r : Registry) (name : String) : Prop :=
  r.enums.contains name = true ∨ r.composites.contains name = true

/-- A declared host type is mapped, and the type that it is declared for is defined. -/
theorem Passed.declares {r₀ : Registry} (passed : Passed Grows strict b r₀) {host name : String}
    (declares : b.Declares r₀.dynamicType host name) :
    r₀.storeTypes.contains host = true ∧ r₀.Defines name := by
  cases declares with
  | enumeration added =>
    obtain ⟨before, after, step, grows⟩ := passed.enum _ added
    obtain ⟨-, defined, mapped⟩ := grows_addEnum step
    exact ⟨grows.storeTypes mapped, .inl (grows.enums defined)⟩
  | composite added =>
    obtain ⟨before, after, step, grows⟩ := passed.composite _ added
    obtain ⟨-, defined, mapped⟩ := grows_addComposite step
    exact ⟨grows.storeTypes mapped, .inr (grows.composites defined)⟩
  | dynamic added =>
    obtain ⟨before, grows⟩ := passed.dynamic _ added
    obtain ⟨_, after, step, grows'⟩ := passed.dynamicComposite
    obtain ⟨-, defined⟩ := grows_addDynamicComposite step
    refine ⟨grows.storeTypes (grows_addDynamic before _).2.1, .inr ?_⟩
    rw [grows'.dynamicType]
    exact grows'.composites defined

/-- A self describing host type has its tags listed. -/
theorem Passed.tagged {r₀ : Registry} (passed : Passed Grows strict b r₀) {d : DynamicRegistration}
    (added : d ∈ b.dynamics) : r₀.hostTags.contains d.host = true := by
  obtain ⟨before, grows⟩ := passed.dynamic _ added
  exact grows.hostTags (grows_addDynamic before d).2.2

/-- A merge keeps the account from its start to its end. -/
theorem accounts_of_merge (ok : b.merge strict = .ok r) : r.Accounts b := by
  obtain ⟨r₀, passed, rfl⟩ := passed_of_merge (keptBy_accounts strict b) ok
  have h := passed.whole (accounts_start b)
  exact ⟨h.enums, h.composites, h.storeTypes, h.tagHosts, h.hostTags⟩

/-! ## 5. Arrays of a registry -/

/-- Arrays at the start are those that the store lists, under their own names. -/
theorem arrays_start (b : RegistryBuilder) :
    b.start.arrays.All fun name d => d.typeName = name ∧ (name, d.elementType) ∈ b.catalog.arrays := by
  refine Dict.all_empty.insertAll fun entry listed => ?_
  obtain ⟨array, own, rfl⟩ := List.mem_map.1 listed
  exact ⟨rfl, own⟩

/-- An enumeration or composite type has its array, unless the store lists one of that name. -/
theorem Passed.array {r₀ : Registry} (passed : Passed Grows strict b r₀) {name : String}
    (defined : r₀.Defines name) (unlisted : ∀ element, (arrayOf name, element) ∉ b.catalog.arrays) :
    r₀.withArrays.arrays.get? (arrayOf name) = some ⟨arrayOf name, name⟩ := by
  have absent : r₀.arrays.get? (arrayOf name) = none := by
    rw [passed.whole.arrays]
    rcases found : b.start.arrays.get? (arrayOf name) with _ | d
    · rfl
    · exact absurd (arrays_start b _ d found).2 (unlisted _)
  have known : name ∈ r₀.enums.keys ++ r₀.composites.keys := by
    rcases defined with known | known
    · obtain ⟨d, found⟩ := Option.isSome_iff_exists.1 known
      exact List.mem_append_left _ (Dict.mem_keys_of_get? found)
    · obtain ⟨d, found⟩ := Option.isSome_iff_exists.1 known
      exact List.mem_append_right _ (Dict.mem_keys_of_get? found)
  rw [withArrays]
  dsimp only
  rw [get?_nameArrays, absent, Option.none_or]
  -- the name is found first, because no other one has the same array
  rcases found : (r₀.enums.keys ++ r₀.composites.keys).find? fun element =>
      arrayOf element == arrayOf name with _ | element
  · exact absurd (List.find?_eq_none.1 found name known) (by simp)
  · have same : arrayOf element = arrayOf name := by simpa using List.find?_some found
    rw [arrayOf_inj same]
    rfl

/-- Every array of a merged registry stands under its own name. -/
theorem Passed.arrays_named {r₀ : Registry} (passed : Passed Grows strict b r₀) :
    r₀.withArrays.arrays.All fun name d => d.typeName = name := by
  intro name d found
  rw [withArrays] at found
  dsimp only at found
  rw [get?_nameArrays, passed.whole.arrays] at found
  rcases listed : b.start.arrays.get? name with _ | d'
  · rw [listed, Option.none_or, Option.map_eq_some_iff] at found
    obtain ⟨element, -, rfl⟩ := found
    rfl
  · rw [listed, Option.some_or] at found
    cases found
    exact (arrays_start b name _ listed).1

/-! ## 6. Looking up -/

/-- What the category of a type promises: a definition that is found by its name. -/
def Serves (r : Registry) (name : String) : TypeCategory → Prop
  | .enumeration => ∃ d, r.enumDefinition name = .ok d
  | .composite | .dynamic => ∃ d, r.compositeDefinition name = .ok d
  | .array => ∃ d, r.array? name = some d
  | .standard => True

/-- The maps of a registry agree, given the host types and the types of the store it was made of. -/
structure Consistent (r : Registry) (b : RegistryBuilder) (catalog : Catalog) : Prop where
  dynamicDefined : ∃ d, r.compositeDefinition r.dynamicType = .ok d
  named : r.Coherent
  arraysNamed : r.arrays.All fun name d => d.typeName = name
  arraysOf : ∀ name, r.Defines name → (∀ element, (arrayOf name, element) ∉ catalog.arrays) →
    r.array? (arrayOf name) = some ⟨arrayOf name, name⟩
  hosts : ∀ host name, b.Declares r.dynamicType host name →
    r.storeTypeOf host = .ok name ∧ r.Defines name
  back : ∀ name host, r.hostOf name = .ok host → r.storeTypeOf host = .ok name
  tags : ∀ tag host, r.hostOfTag tag = .ok host → ∃ tags, r.tagsOf host = .ok tags ∧ tag ∈ tags
  categories : ∀ name, r.Serves name (r.category name)
  /-- No type is missing when cells are extracted, be it in the cell itself or within it. -/
  extraction : ∀ name v e, Extraction.extract r name v = .error e →
    e.kind ≠ .pgTypeNotFound ∧ e.innermost.kind ≠ .pgTypeNotFound

/-- A definition that is in a map is found by its name. -/
theorem exists_compositeDefinition_of_contains {name : String}
    (known : r.composites.contains name = true) : ∃ d, r.compositeDefinition name = .ok d := by
  obtain ⟨d, found⟩ := Option.isSome_iff_exists.1 known
  exact ⟨d, by rw [compositeDefinition, found]⟩

/-- The host type of a store type is one that is declared for it. -/
theorem Accounts.declares_of_hostOf (h : r.Accounts b) {name host : String}
    (found : r.hostOf name = .ok host) : b.Declares r.dynamicType host name := by
  unfold hostOf at found
  rcases enum : r.enums.get? name with _ | d
  · rcases composite : r.composites.get? name with _ | d
    · rw [enum, composite] at found
      cases found
    · rw [enum, composite] at found
      rcases own : d.host? with _ | host'
      · simp [own] at found
      · simp only [own, Except.ok.injEq] at found
        obtain ⟨c, added, same, rfl⟩ := h.composites name d composite host' own
        rw [← found, ← same]
        exact .composite added
  · rw [enum] at found
    rcases own : d.host? with _ | host'
    · simp [own] at found
    · simp only [own, Except.ok.injEq] at found
      obtain ⟨e, added, same, rfl⟩ := h.enums name d enum host' own
      rw [← found, ← same]
      exact .enumeration added

/-- Where host types are declared once, a merge leaves maps that agree. -/
theorem consistent_of_merge (once : b.DeclaresOnce) (ok : b.merge strict = .ok r) :
    r.Consistent b b.catalog := by
  have accounts := accounts_of_merge ok
  have coherent := (Built.merged ok).coherent
  obtain ⟨r₀, passed, rfl⟩ := passed_of_merge (keptBy_grows strict b) ok
  have dynamicDefined : ∃ d, r₀.withArrays.compositeDefinition r₀.withArrays.dynamicType = .ok d := by
    obtain ⟨_, after, step, grows⟩ := passed.dynamicComposite
    have known := grows.composites (grows_addDynamicComposite step).2
    rw [← grows.dynamicType] at known
    exact exists_compositeDefinition_of_contains known
  have hosts : ∀ host name, b.Declares r₀.withArrays.dynamicType host name →
      r₀.withArrays.storeTypeOf host = .ok name ∧ r₀.withArrays.Defines name := by
    intro host name declares
    obtain ⟨mapped, defined⟩ := passed.declares declares
    obtain ⟨name', found⟩ := Option.isSome_iff_exists.1 mapped
    have same := once.unique (accounts.storeTypes host name' found) declares
    have here : r₀.withArrays.storeTypes.get? host = some name := same ▸ found
    exact ⟨by rw [storeTypeOf, here], defined⟩
  refine ⟨dynamicDefined, coherent, passed.arrays_named, ?_, hosts, ?_, ?_, ?_, ?_⟩
  · intro name defined unlisted
    rw [array?, passed.array defined unlisted]
  · intro name host found
    exact (hosts host name (accounts.declares_of_hostOf found)).1
  · intro tag host found
    unfold hostOfTag at found
    split at found
    · rename_i host' here
      cases found
      obtain ⟨d, added, rfl, own⟩ := accounts.tagHosts tag _ here
      obtain ⟨tags, listed⟩ := Option.isSome_iff_exists.1 (passed.tagged added)
      obtain ⟨d', added', same, rfl⟩ := accounts.hostTags d.host tags listed
      have all : r₀.withArrays.tagsOf d.host = .ok d'.tags := by
        have listed' : r₀.withArrays.hostTags.get? d.host = some d'.tags := listed
        rw [tagsOf, listed']
      exact ⟨d'.tags, all, once.dynamics d added d' added' same.symm ▸ own⟩
    · cases found
  · intro name
    cases category : r₀.withArrays.category name with
    | standard => trivial
    | enumeration => exact exists_enumDefinition category
    | composite => exact exists_compositeDefinition category
    | array =>
      obtain ⟨d, found, -⟩ := exists_array category
      exact ⟨d, found⟩
    | dynamic =>
      have classified := r₀.withArrays.classified name
      rw [category] at classified
      cases classified with
      | dynamic own =>
        rw [own]
        exact dynamicDefined
  · intro name v e failed
    have cell := Extraction.ofCell_of_extract failed
    refine ⟨fun missing => ?_, cell.kind_ne⟩
    -- a failure of that kind is reported for no record around it
    have alone : e.innermost = e := by cases e <;> first | rfl | cases missing
    rw [alone] at cell
    exact cell.kind_ne missing

end Registry

/-! ## 7. Registries of a builder -/

namespace RegistryBuilder

/-- A builder was made into a registry, with the types that the store lists: those that it had, and
those that the source of a load answered. -/
inductive StartsWith (b : RegistryBuilder) : Catalog → Registry → Prop where
  | built {r : Registry} (ok : b.build = .ok r) : StartsWith b b.catalog r
  | loaded {σ : Type} {source : List String → Action σ Catalog} {j j₁ j' : Journal σ}
      {catalog : Catalog} {r : Registry}
      (answered : (source b.effectiveSchemas).perform j = (.ok catalog, j₁))
      (ok : (b.loadBy source).perform j = (.ok r, j')) : StartsWith b (b.catalog.append catalog) r

/-- Every registry of a builder is a merge with the types that the store lists. -/
theorem StartsWith.merged {b : RegistryBuilder} {catalog : Catalog} {r : Registry}
    (h : b.StartsWith catalog r) :
    ∃ strict, ({ b with catalog } : RegistryBuilder).merge strict = .ok r := by
  cases h with
  | built ok => exact ⟨false, ok⟩
  | loaded answered ok =>
    rw [perform_loadBy, answered] at ok
    exact ⟨true, congrArg Prod.fst ok⟩

/-- **The maps of a registry agree.** Let every host type be declared once. However a builder is made
into a registry, from whatever catalogs and in whatever order of its host types, each type it names has
its definition and its array, each host type leads to the type it is declared for and back, each tag to
a host type that has it, and the category of a type is one under which the type is found. -/
theorem consistent_of_startsWith {b : RegistryBuilder} (once : b.DeclaresOnce) {catalog : Catalog}
    {r : Registry} (starts : b.StartsWith catalog r) : r.Consistent b catalog := by
  obtain ⟨strict, ok⟩ := starts.merged
  have once' : ({ b with catalog } : RegistryBuilder).DeclaresOnce :=
    ⟨once.enums, once.composites, once.dynamics, once.enumOrComposite, once.enumOrDynamic,
      once.compositeOrDynamic⟩
  have all := Registry.consistent_of_merge once' ok
  refine ⟨all.dynamicDefined, all.named, all.arraysNamed, all.arraysOf, ?_, all.back, all.tags,
    all.categories, all.extraction⟩
  rintro host name (added | added | added)
  · exact all.hosts _ _ (.enumeration added)
  · exact all.hosts _ _ (.composite added)
  · exact all.hosts _ _ (.dynamic added)

/-- Two host types of one name, a mood, and notes that describe themselves. -/
def notedHosts : RegistryBuilder := { twoHosts with dynamics := [⟨"Note", ["note", "memo"]⟩] }

theorem consistent_of_startsWith_notedHosts :
    notedHosts.DeclaresOnce ∧ ∃ r, notedHosts.StartsWith .empty r ∧ r.Consistent notedHosts .empty
      ∧ r.storeTypeOf "Spot" = .ok "spot" ∧ r.storeTypeOf "Place" = .ok "spot"
      ∧ r.storeTypeOf "Note" = .ok r.dynamicType
      ∧ r.array? "_mood" = some ⟨"_mood", "mood"⟩ := by
  have once : notedHosts.DeclaresOnce := by
    constructor <;> simp [notedHosts, twoHosts]
  have succeeds : notedHosts.build.isOk = true := by decide +kernel
  cases built : notedHosts.build with
  | error e =>
    rw [built] at succeeds
    cases succeeds
  | ok r =>
    have all := consistent_of_startsWith once (.built built)
    have spot : notedHosts.Declares r.dynamicType "Spot" "spot" :=
      .composite (c := ⟨"spot", [("x", "int4"), ("label", "text")], "Spot"⟩) (by simp [notedHosts, twoHosts])
    have place : notedHosts.Declares r.dynamicType "Place" "spot" :=
      .composite (c := ⟨"spot", [("label", "text"), ("x", "int4")], "Place"⟩)
        (by simp [notedHosts, twoHosts])
    have note : notedHosts.Declares r.dynamicType "Note" r.dynamicType :=
      .dynamic (d := ⟨"Note", ["note", "memo"]⟩) (by simp [notedHosts])
    have mood : notedHosts.Declares r.dynamicType "Mood" "mood" :=
      .enumeration (e := ⟨"mood", default, "Mood", [("calm", "Calm"), ("wild", "Wild")]⟩)
        (by simp [notedHosts, twoHosts])
    have unlisted : ∀ element, (arrayOf "mood", element) ∉ notedHosts.catalog.arrays :=
      fun _ mem => absurd mem List.not_mem_nil
    exact ⟨once, r, .built built, all, (all.hosts _ _ spot).1, (all.hosts _ _ place).1,
      (all.hosts _ _ note).1, all.arraysOf "mood" (all.hosts _ _ mood).2 unlisted⟩

end RegistryBuilder

end TypedStore
