/-
Slots of self describing values. An attribute of a host type may name the type of self describing values
by its default name, which is then read as the configured one, and the type that is registered for the
attribute has to hold self describing values where the one of the host does. Both are seen to for a value
and for a list of them. Nothing is compared that lies deeper: lists of lists are neither renamed nor
checked, so there the host and the store agree only by themselves (`dynamicSlots_agree_iff`).
-/
import TypedStore.Proofs.Registry.Origin

set_option autoImplicit false

namespace TypedStore

/-! ## 1. Layers of arrays -/

/-- A type, or an array of it with any number of layers, however they are spelled. -/
inductive Nests (base : String) : String → Prop where
  | own : Nests base base
  | underscore {t : String} (inner : Nests base t) : Nests base (arrayOf t)
  | brackets {t : String} (inner : Nests base t) : Nests base (t ++ "[]")

/-- The name of an array contains that of what is in it. -/
theorem Nests.contained {base t : String} (h : Nests base t) : base.toList <:+: t.toList := by
  induction h with
  | own => exact List.infix_rfl
  | underscore _ ih =>
    rw [arrayOf, String.toList_append]
    exact ih.trans (List.suffix_append _ _).isInfix
  | brackets _ ih =>
    rw [String.toList_append]
    exact ih.trans (List.prefix_append _ _).isInfix

/-- A slot of the host holds self describing values, under the configured name or under the default one. -/
def HostDynamic (dynamicType t : String) : Prop := Nests dynamicType t ∨ Nests defaultDynamicType t

variable {dynamicType t s : String}

theorem isDynamicSlot_iff : isDynamicSlot dynamicType t = true ↔ t = dynamicType ∨ t = arrayOf dynamicType := by
  rw [isDynamicSlot, Bool.or_eq_true, beq_iff_eq, beq_iff_eq]

theorem nests_of_isDynamicSlot (h : isDynamicSlot dynamicType t = true) : Nests dynamicType t := by
  rcases isDynamicSlot_iff.1 h with rfl | rfl
  · exact .own
  · exact .underscore .own

/-- What is a dynamic slot for the check was one for the host, under either name. -/
theorem hostDynamic_of_retarget (h : isDynamicSlot dynamicType (retargetType dynamicType t) = true) :
    HostDynamic dynamicType t := by
  unfold retargetType at h
  split at h
  · exact .inl (nests_of_isDynamicSlot h)
  · split at h
    · rename_i default
      exact .inr (default ▸ .own)
    · split at h
      · rename_i default
        exact .inr (default ▸ .underscore .own)
      · exact .inl (nests_of_isDynamicSlot h)

/-! ## 2. What is compared -/

/-- A type of the host fits the one that is registered: where one of them is a dynamic slot they are the
same, the default name being read as the configured one. -/
def Fits (dynamicType t s : String) : Prop :=
  isDynamicSlot dynamicType (retargetType dynamicType t) = true ∨ isDynamicSlot dynamicType s = true →
    s = retargetType dynamicType t

/-- A slot of the host that holds lists of lists of self describing values, or deeper ones. -/
def DeepHost (dynamicType t : String) : Prop :=
  HostDynamic dynamicType t ∧ isDynamicSlot dynamicType (retargetType dynamicType t) = false

/-- A slot of the store that holds lists of lists of self describing values, or deeper ones. -/
def DeepStore (dynamicType s : String) : Prop :=
  Nests dynamicType s ∧ isDynamicSlot dynamicType s = false

/-- Types that fit agree on being dynamic if and only if they do so for lists of lists. -/
theorem Fits.agree_iff (h : Fits dynamicType t s) :
    (HostDynamic dynamicType t ↔ Nests dynamicType s)
      ↔ (DeepHost dynamicType t ↔ DeepStore dynamicType s) := by
  rw [DeepHost, DeepStore]
  by_cases shallow : isDynamicSlot dynamicType (retargetType dynamicType t) = true
      ∨ isDynamicSlot dynamicType s = true
  · -- a dynamic slot on one side is the same slot on the other
    have same := h shallow
    have both : isDynamicSlot dynamicType s = true := shallow.elim (fun host => same ▸ host) id
    have host : isDynamicSlot dynamicType (retargetType dynamicType t) = true := same ▸ both
    have agree : HostDynamic dynamicType t ↔ Nests dynamicType s :=
      ⟨fun _ => nests_of_isDynamicSlot both, fun _ => hostDynamic_of_retarget host⟩
    simp [host, both, agree]
  · rw [not_or, Bool.not_eq_true, Bool.not_eq_true] at shallow
    rw [and_iff_left shallow.1, and_iff_left shallow.2]

/-- An attribute passes the check if the store has it, with a type that is the same where one of the two is
a dynamic slot. Nothing else about the types matters. -/
theorem checkAttribute_eq_ok {store : CompositeDefinition} {attr : String} :
    checkAttribute store dynamicType attr t = .ok () ↔ ∃ s, store.attributeType? attr = some s
      ∧ (isDynamicSlot dynamicType t = true ∨ isDynamicSlot dynamicType s = true → s = t) := by
  unfold checkAttribute
  cases store.attributeType? attr with
  | none => exact ⟨nofun, nofun⟩
  | some s =>
    dsimp only
    split
    · rename_i differ
      rw [Bool.and_eq_true, Bool.or_eq_true, bne_iff_ne] at differ
      refine ⟨nofun, ?_⟩
      rintro ⟨_, same, fits⟩
      cases same
      exact absurd (fits differ.1) differ.2
    · rename_i fits
      rw [Bool.and_eq_true, Bool.or_eq_true, bne_iff_ne, not_and, not_not] at fits
      exact ⟨fun _ => ⟨s, rfl, fits⟩, fun _ => rfl⟩

/-- An attribute is found by its name where no other one has it. -/
theorem attributeType?_of_mem {d : CompositeDefinition} {attr : String}
    (distinct : (d.attributes.map (·.1)).Nodup) (listed : (attr, t) ∈ d.attributes) :
    d.attributeType? attr = some t := by
  have found : (d.attributes.find? (·.1 == attr)).isSome = true :=
    List.find?_isSome.2 ⟨_, listed, beq_self_eq_true attr⟩
  obtain ⟨a, first⟩ := Option.isSome_iff_exists.1 found
  have named : a.1 = attr := by simpa using List.find?_some first
  have same : a = (attr, t) := List.inj_on_of_nodup_map distinct (List.mem_of_find?_eq_some first) listed named
  rw [CompositeDefinition.attributeType?, first, same]
  rfl

namespace Registry

variable {strict : Bool} {r r' : Registry} {b : RegistryBuilder} {c : CompositeRegistration}
  {attr : String}

theorem mem_retarget (listed : (attr, t) ∈ c.attributes) (dynamicType : String) :
    (attr, retargetType dynamicType t) ∈ (c.retarget dynamicType).attributes :=
  List.mem_map.2 ⟨(attr, t), listed, rfl⟩

/-- Every attribute of a host type that was added fits the one that is registered. -/
theorem fits_of_addComposite (ok : r.addComposite strict c = .ok r')
    (distinct : (c.attributes.map (·.1)).Nodup) (listed : (attr, t) ∈ c.attributes) :
    ∃ definition s, r'.composites.get? c.typeName = some definition
      ∧ definition.attributeType? attr = some s ∧ Fits r.dynamicType t s := by
  have listed' := mem_retarget listed r.dynamicType
  rcases addComposite_eq_ok.1 ok with ⟨store, -, checked, rfl⟩ | ⟨-, -, rfl⟩
  · obtain ⟨s, found, fits⟩ :=
      checkAttribute_eq_ok.1 (checkAttribute_of_checkAttributes checked _ listed')
    exact ⟨_, s, Dict.get?_insert_self _ _ _, found, fits⟩
  · -- the host type stands for itself
    refine ⟨_, _, Dict.get?_insert_self _ _ _, attributeType?_of_mem ?_ listed', fun _ => rfl⟩
    rw [CompositeRegistration.definition, map_fst_retarget]
    exact distinct

/-- What two relations keep is kept together. -/
theorem KeptBy.and {R R' : Registry → Registry → Prop} (h : KeptBy R strict b) (h' : KeptBy R' strict b) :
    KeptBy (fun r r' => R r r' ∧ R' r r') strict b where
  refl r := ⟨h.refl r, h'.refl r⟩
  trans first second := ⟨h.trans first.1 second.1, h'.trans first.2 second.2⟩
  enum e he _ _ ok := ⟨h.enum e he ok, h'.enum e he ok⟩
  composite c hc _ _ ok := ⟨h.composite c hc ok, h'.composite c hc ok⟩
  dynamicComposite ok := ⟨h.dynamicComposite ok, h'.dynamicComposite ok⟩
  dynamic d hd r := ⟨h.dynamic d hd r, h'.dynamic d hd r⟩

/-- When a merge is done, every attribute of a host type still fits the one that is registered. -/
theorem fits_of_merge (ok : b.merge strict = .ok r) (added : c ∈ b.composites)
    (distinct : (c.attributes.map (·.1)).Nodup) (listed : (attr, t) ∈ c.attributes) :
    ∃ definition s, r.composites.get? c.typeName = some definition
      ∧ definition.attributeType? attr = some s ∧ Fits r.dynamicType t s := by
  obtain ⟨r₀, passed, rfl⟩ := passed_of_merge ((keptBy_keeps strict b).and (keptBy_grows strict b)) ok
  obtain ⟨before, after, step, kept, grown⟩ := passed.composite c added
  obtain ⟨definition, s, found, type, fits⟩ := fits_of_addComposite step distinct listed
  obtain ⟨definition', found', same⟩ := kept.composites _ _ found
  refine ⟨definition', s, found', ?_, ?_⟩
  · rw [CompositeDefinition.attributeType?, same]
    exact type
  · have configured : r₀.withArrays.dynamicType = before.dynamicType :=
      grown.dynamicType.trans (dynamicType_addComposite step)
    rwa [configured]

/-- A host type that is the first to define its type is registered as it is, with default names read as the
configured one where they are seen. -/
theorem attributeType_of_first (ok : b.merge strict = .ok r)
    (unlisted : b.start.attributes? c.typeName = none)
    (first : b.composites.find? (·.typeName == c.typeName) = some c)
    (distinct : (c.attributes.map (·.1)).Nodup) (listed : (attr, t) ∈ c.attributes)
    {definition : CompositeDefinition} (found : r.composites.get? c.typeName = some definition) :
    definition.attributeType? attr = some (retargetType r.dynamicType t) := by
  have configured : b.start.dynamicType = r.dynamicType := by
    obtain ⟨r₀, passed, rfl⟩ := passed_of_merge (keptBy_grows strict b) ok
    exact passed.whole.dynamicType.symm
  have origin := attributes_of_merge ok c.typeName
  rw [RegistryBuilder.firstAttributes?, unlisted, first, attributes?, found, configured] at origin
  have own : definition.attributes = (c.retarget r.dynamicType).attributes := Option.some.inj origin
  refine attributeType?_of_mem ?_ (own ▸ mem_retarget listed r.dynamicType)
  rw [own, map_fst_retarget]
  exact distinct

end Registry

/-! ## 3. Registries of a builder -/

/-- **Where dynamic slots agree.** However a builder is made into a registry, an attribute of a host type is
registered with the type that the host declares where one of the two is the type of self describing values
or a list of it, the default name being read as the configured one. So the host and the registry agree on
an attribute if and only if they agree on it being a list of lists, or deeper; and where the host type is
the first to define its type, its own type of the attribute is registered, renamed only if it is the
default name or a list of it. -/
theorem dynamicSlots_agree_iff {b : RegistryBuilder} {catalog : Catalog} {r : Registry}
    (starts : b.StartsWith catalog r) {c : CompositeRegistration} (added : c ∈ b.composites)
    (distinct : (c.attributes.map (·.1)).Nodup) {attr : String} (listed : (attr, t) ∈ c.attributes) :
    ∃ definition s, r.composites.get? c.typeName = some definition
      ∧ definition.attributeType? attr = some s
      ∧ (isDynamicSlot r.dynamicType (retargetType r.dynamicType t) = true
          ∨ isDynamicSlot r.dynamicType s = true → s = retargetType r.dynamicType t)
      ∧ ((HostDynamic r.dynamicType t ↔ Nests r.dynamicType s)
          ↔ (DeepHost r.dynamicType t ↔ DeepStore r.dynamicType s))
      ∧ (({ b with catalog } : RegistryBuilder).start.attributes? c.typeName = none →
          b.composites.find? (·.typeName == c.typeName) = some c → s = retargetType r.dynamicType t) := by
  obtain ⟨strict, merged⟩ := starts.merged
  obtain ⟨definition, s, found, type, fits⟩ := Registry.fits_of_merge merged added distinct listed
  refine ⟨definition, s, found, type, fits, fits.agree_iff, fun unlisted first => ?_⟩
  have own := Registry.attributeType_of_first merged unlisted first distinct listed found
  exact Option.some.inj (type.symm.trans own)

/-- A feed of activities and one of lists of activities, under a configured name. -/
def feedBuilder (catalog : Catalog) : RegistryBuilder :=
  { RegistryBuilder.empty with
    dynamicType? := some "activity_dto"
    composites := [⟨"feed", [("latest", "_dynamic_dto"), ("pages", "__dynamic_dto")], "Feed"⟩]
    catalog }

/-- The list of activities is one under the configured name. -/
theorem dynamicSlots_agree_iff_feed :
    (feedBuilder .empty).StartsWith .empty (feedBuilder .empty).registry
      ∧ ∃ definition, (feedBuilder .empty).registry.composites.get? "feed" = some definition
        ∧ definition.attributeType? "latest" = some "_activity_dto"
        ∧ (HostDynamic "activity_dto" "_dynamic_dto" ↔ Nests "activity_dto" "_activity_dto") := by
  have starts : (feedBuilder .empty).StartsWith .empty (feedBuilder .empty).registry :=
    RegistryBuilder.startsWith_registry (by decide +kernel)
  obtain ⟨definition, s, found, type, fits, agree, -⟩ :=
    dynamicSlots_agree_iff starts List.mem_cons_self (by decide) List.mem_cons_self
  have same : s = "_activity_dto" := fits (.inl (by decide +kernel))
  subst same
  have host : ¬ DeepHost "activity_dto" "_dynamic_dto" := fun deep => absurd deep.2 (by decide +kernel)
  have store : ¬ DeepStore "activity_dto" "_activity_dto" := fun deep => absurd deep.2 (by decide +kernel)
  exact ⟨starts, definition, found, type, agree.2 (iff_of_false host store)⟩

/-- A host type of texts and numbers. -/
def platformBuilder (nameType : String) : RegistryBuilder :=
  { RegistryBuilder.empty with
    composites := [⟨"platform", [("name", "text"), ("release_year", "int4"), ("regions", "_text")],
      "Platform"⟩]
    catalog := ⟨[], [("platform", [("name", nameType), ("release_year", "int4"), ("regions", "_text")])],
      []⟩ }

/-- A text of the host passes for lists of lists of self describing values of the store, and such lists of
the host stay registered under the default name where another one is configured. -/
theorem dynamicSlots_disagree :
    (platformBuilder "__dynamic_dto").build.isOk = true
      ∧ (((platformBuilder "__dynamic_dto").registry.composites.get? "platform").bind
        (·.attributeType? "name")) = some "__dynamic_dto"
      ∧ ¬ (HostDynamic "dynamic_dto" "text" ↔ Nests "dynamic_dto" "__dynamic_dto")
      ∧ (feedBuilder .empty).build.isOk = true
      ∧ (((feedBuilder .empty).registry.composites.get? "feed").bind
        (·.attributeType? "pages")) = some "__dynamic_dto"
      ∧ ¬ (HostDynamic "activity_dto" "__dynamic_dto" ↔ Nests "activity_dto" "__dynamic_dto") := by
  have nested : Nests "dynamic_dto" "__dynamic_dto" := .underscore (.underscore .own)
  have text : ¬ HostDynamic "dynamic_dto" "text" := by
    rintro (nests | nests) <;> exact absurd nests.contained (by decide +kernel)
  have foreign : ¬ Nests "activity_dto" "__dynamic_dto" := fun nests =>
    absurd nests.contained (by decide +kernel)
  exact ⟨by decide +kernel, by decide +kernel, fun agree => text (agree.2 nested), by decide +kernel,
    by decide +kernel, fun agree => foreign (agree.1 (.inr nested))⟩

end TypedStore
