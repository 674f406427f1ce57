/-
Registries that a builder produces. What a step of a merge adds is said once for each kind of host type
(`addEnum_eq_ok`, `addComposite_eq_ok`). Every definition stands under its own name, whatever catalogs
and host types are merged and whether merging is strict.
-/
import TypedStore.Registry.Builder

set_option autoImplicit false

namespace TypedStore

/-! ## 1. Entries of dictionaries -/

namespace Dict

variable {α : Type} {P : String → α → Prop}

/-- Every entry is as `P` says. -/
def All (P : String → α → Prop) (d : Dict α) : Prop :=
  ∀ key value, d.get? key = some value → P key value

theorem All.insert {d : Dict α} (h : d.All P) {key : String} {value : α} (new : P key value) :
    (d.insert key value).All P := by
  intro k v found
  rw [get?_insert] at found
  split at found
  · rename_i same
    cases found
    exact same ▸ new
  · exact h k v found

theorem All.insertAll {d : Dict α} (h : d.All P) {entries : List (String × α)}
    (new : ∀ entry ∈ entries, P entry.1 entry.2) : (d.insertAll entries).All P := by
  induction entries generalizing d with
  | nil => exact h
  | cons entry rest ih =>
    exact ih (h.insert (new entry List.mem_cons_self)) fun e he => new e (List.mem_cons_of_mem _ he)

theorem get?_insert_self (d : Dict α) (key : String) (value : α) :
    (d.insert key value).get? key = some value :=
  (get?_insert d key key value).trans (if_pos rfl)

theorem all_empty : (empty : Dict α).All P := fun _ _ found => nomatch found

theorem all_of_entries {d : Dict α} (h : ∀ e ∈ d.entries, P e.1 e.2) : d.All P :=
  fun _ _ found => h _ (mem_of_entryValue? found)

end Dict

/-! ## 2. What a step adds -/

namespace Registry

variable {strict needed : Bool} {r r' : Registry} {e : EnumRegistration} {c : CompositeRegistration}

/-- An enumeration joins the one that is there, if that has all its labels. Where there is none it is
new, unless the merge is strict. -/
theorem addEnum_eq_ok :
    r.addEnum strict e = .ok r' ↔
      (∃ store, r.enums.get? e.typeName = some store
        ∧ (∀ constant ∈ e.constants, store.hasLabel constant.1 = true)
        ∧ r' = { r with
            enums := r.enums.insert e.typeName { store with
              convention := e.convention, host? := some e.host, constants := e.constants }
            storeTypes := r.storeTypes.insert e.host e.typeName })
      ∨ (r.enums.get? e.typeName = none ∧ strict = false
        ∧ r' = { r with
            enums := r.enums.insert e.typeName e.definition
            storeTypes := r.storeTypes.insert e.host e.typeName }) := by
  unfold addEnum
  cases r.enums.get? e.typeName with
  | some store =>
    dsimp only
    cases unlisted : e.constants.find? fun constant => !store.hasLabel constant.1 with
    | none =>
      have listed : ∀ constant ∈ e.constants, store.hasLabel constant.1 = true := by
        intro constant hc
        have known := List.find?_eq_none.1 unlisted constant hc
        rwa [Bool.not_eq_true', Bool.not_eq_false] at known
      constructor
      · intro ok
        cases ok
        exact .inl ⟨store, rfl, listed, rfl⟩
      · rintro (⟨_, same, -, rfl⟩ | ⟨same, -⟩)
        · cases same
          rfl
        · cases same
    | some constant =>
      -- the label that is not there is refused
      have absent := List.find?_some unlisted
      constructor
      · intro ok
        cases ok
      · rintro (⟨_, same, listed, -⟩ | ⟨same, -⟩)
        · cases same
          rw [listed constant (List.mem_of_find?_eq_some unlisted)] at absent
          cases absent
        · cases same
  | none =>
    dsimp only
    cases strict with
    | true =>
      constructor
      · intro ok
        cases ok
      · rintro (⟨_, same, -⟩ | ⟨-, same, -⟩) <;> cases same
    | false =>
      constructor
      · intro ok
        cases ok
        exact .inr ⟨rfl, rfl, rfl⟩
      · rintro (⟨_, same, -⟩ | ⟨-, -, rfl⟩)
        · cases same
        · rfl

/-- A record type joins the one that is there, if its attributes pass the check. Where there is none it
is new, unless the merge is strict. -/
theorem addComposite_eq_ok :
    r.addComposite strict c = .ok r' ↔
      (∃ store, r.composites.get? c.typeName = some store
        ∧ checkAttributes store (c.retarget r.dynamicType).attributes r.dynamicType = .ok ()
        ∧ r' = { r with
            composites := r.composites.insert c.typeName { store with host? := some c.host }
            storeTypes := r.storeTypes.insert c.host c.typeName })
      ∨ (r.composites.get? c.typeName = none ∧ strict = false
        ∧ r' = { r with
            composites := r.composites.insert c.typeName (c.retarget r.dynamicType).definition
            storeTypes := r.storeTypes.insert c.host c.typeName }) := by
  have named : (c.retarget r.dynamicType).typeName = c.typeName := rfl
  unfold addComposite
  dsimp only
  rw [named]
  cases r.composites.get? c.typeName with
  | some store =>
    dsimp only
    cases checked : checkAttributes store (c.retarget r.dynamicType).attributes r.dynamicType with
    | ok _ =>
      constructor
      · intro ok
        cases ok
        exact .inl ⟨store, rfl, checked, rfl⟩
      · rintro (⟨_, same, -, rfl⟩ | ⟨same, -⟩)
        · cases same
          rfl
        · cases same
    | error error =>
      constructor
      · intro ok
        cases ok
      · rintro (⟨_, same, passed, -⟩ | ⟨same, -⟩)
        · cases same
          rw [checked] at passed
          cases passed
        · cases same
  | none =>
    dsimp only
    cases strict with
    | true =>
      constructor
      · intro ok
        cases ok
      · rintro (⟨_, same, -⟩ | ⟨-, same, -⟩) <;> cases same
    | false =>
      constructor
      · intro ok
        cases ok
        exact .inr ⟨rfl, rfl, rfl⟩
      · rintro (⟨_, same, -⟩ | ⟨-, -, rfl⟩)
        · cases same
        · rfl

/-- The type of self describing values stays if it is there, and is new otherwise. -/
theorem eq_of_addDynamicComposite (ok : r.addDynamicComposite strict needed = .ok r') :
    (r.composites.contains r.dynamicType = true ∧ r' = r)
      ∨ (r.composites.contains r.dynamicType = false ∧ r' = r.withDynamicComposite) := by
  unfold addDynamicComposite at ok
  split at ok
  · rename_i known
    cases ok
    exact .inl ⟨known, rfl⟩
  · rename_i absent
    split at ok
    · cases ok
    · cases ok
      exact .inr ⟨Bool.eq_false_iff.2 absent, rfl⟩

/-! ## 3. Definitions under their names -/

/-- Definitions stand under their own names. -/
structure Coherent (r : Registry) : Prop where
  enums : r.enums.All fun name d => d.typeName = name
  composites : r.composites.All fun name d => d.typeName = name

/-- Registries without types and those that a builder merges. -/
inductive Built : Registry → Prop where
  | empty : Built Registry.empty
  | merged {strict : Bool} {b : RegistryBuilder} {r : Registry} (ok : b.merge strict = .ok r) : Built r

theorem coherent_bare (schemas : List String) (dynamicType : String) :
    (bare schemas dynamicType).Coherent :=
  ⟨Dict.all_empty, Dict.all_empty⟩

theorem Coherent.withDynamicComposite {r : Registry} (h : r.Coherent) :
    r.withDynamicComposite.Coherent :=
  ⟨h.enums, h.composites.insert rfl⟩

theorem Coherent.withCatalog {r : Registry} (h : r.Coherent) (catalog : Catalog) :
    (r.withCatalog catalog).Coherent := by
  refine ⟨h.enums.insertAll ?_, h.composites.insertAll ?_⟩
  · intro entry listed
    obtain ⟨_, -, rfl⟩ := List.mem_map.1 listed
    rfl
  · intro entry listed
    obtain ⟨_, -, rfl⟩ := List.mem_map.1 listed
    rfl

theorem Coherent.addEnum (h : r.Coherent) (ok : r.addEnum strict e = .ok r') : r'.Coherent := by
  rcases addEnum_eq_ok.1 ok with ⟨store, found, -, rfl⟩ | ⟨-, -, rfl⟩
  · -- the type of the store is written back under the name it was found by
    have named := h.enums e.typeName store found
    exact ⟨h.enums.insert named, h.composites⟩
  · exact ⟨h.enums.insert rfl, h.composites⟩

theorem Coherent.addComposite (h : r.Coherent) (ok : r.addComposite strict c = .ok r') :
    r'.Coherent := by
  rcases addComposite_eq_ok.1 ok with ⟨store, found, -, rfl⟩ | ⟨-, -, rfl⟩
  · -- as for labels
    have named := h.composites c.typeName store found
    exact ⟨h.enums, h.composites.insert named⟩
  · exact ⟨h.enums, h.composites.insert rfl⟩

theorem Coherent.addDynamicComposite (h : r.Coherent)
    (ok : r.addDynamicComposite strict needed = .ok r') : r'.Coherent := by
  rcases eq_of_addDynamicComposite ok with ⟨-, rfl⟩ | ⟨-, rfl⟩
  · exact h
  · exact h.withDynamicComposite

/-- A builder without host types yields the types that the store lists, provided that the type of self
describing values is new. -/
theorem Built.of_catalog {b : RegistryBuilder} (noEnums : b.enums = [])
    (noComposites : b.composites = []) (noDynamics : b.dynamics = [])
    (absent : b.start.composites.contains b.start.dynamicType = false) :
    b.start.withDynamicComposite.withArrays.Built := by
  -- nothing is merged but the type of self describing values
  have types : b.mergeTypes false = .ok b.start.withDynamicComposite := by
    unfold RegistryBuilder.mergeTypes
    rw [noEnums, noComposites, noDynamics]
    show b.start.addDynamicComposite false false = _
    rw [addDynamicComposite, absent]
    rfl
  have ok : b.merge false = .ok b.start.withDynamicComposite.withArrays := by
    unfold RegistryBuilder.merge
    rw [types, noDynamics]
    rfl
  exact .merged ok

/-- A merge goes over enumerations, record types, the type of self describing values and those who have
it, one after the other. -/
theorem exists_of_merge {b : RegistryBuilder} (ok : b.merge strict = .ok r) :
    ∃ r₁ r₂ r₃ r₄ : Registry, b.enums.foldlM (addEnum strict) b.start = .ok r₁
      ∧ b.composites.foldlM (addComposite strict) r₁ = .ok r₂
      ∧ r₂.addDynamicComposite strict (!b.dynamics.isEmpty) = .ok r₃
      ∧ b.dynamics.foldlM (fun r d => (.ok (r.addDynamic d) : Except Error Registry)) r₃ = .ok r₄
      ∧ r = r₄.withArrays := by
  obtain ⟨r₃, types, rfl⟩ := map_eq_ok ok
  obtain ⟨r₁, enums, types⟩ := bind_eq_ok_iff.1 types
  obtain ⟨r₂, composites, dynamic⟩ := bind_eq_ok_iff.1 types
  exact ⟨r₁, r₂, r₃, _, enums, composites, dynamic, List.foldlM_pure, rfl⟩

/-! ## 4. What steps keep -/

/-- A relation that every step of a merge keeps. -/
structure KeptBy (R : Registry → Registry → Prop) (strict : Bool) (b : RegistryBuilder) : Prop where
  refl : ∀ r, R r r
  trans : ∀ {r r' r''}, R r r' → R r' r'' → R r r''
  enum : ∀ e ∈ b.enums, ∀ {r r'}, r.addEnum strict e = .ok r' → R r r'
  composite : ∀ c ∈ b.composites, ∀ {r r'}, r.addComposite strict c = .ok r' → R r r'
  dynamicComposite : ∀ {r r'}, r.addDynamicComposite strict (!b.dynamics.isEmpty) = .ok r' → R r r'
  dynamic : ∀ d ∈ b.dynamics, ∀ r, R r (r.addDynamic d)

/-- What a merge leaves before it names arrays is related to its start, and to what every step on the
way left. -/
structure Passed (R : Registry → Registry → Prop) (strict : Bool) (b : RegistryBuilder)
    (r : Registry) : Prop where
  whole : R b.start r
  enum : ∀ e ∈ b.enums, ∃ before after : Registry, before.addEnum strict e = .ok after ∧ R after r
  composite : ∀ c ∈ b.composites, ∃ before after : Registry, before.addComposite strict c = .ok after ∧ R after r
  dynamicComposite : ∃ before after : Registry,
    before.addDynamicComposite strict (!b.dynamics.isEmpty) = .ok after ∧ R after r
  dynamic : ∀ d ∈ b.dynamics, ∃ before : Registry, R (before.addDynamic d) r

/-- Steps one after the other. The induction is on the steps. -/
theorem related_of_foldlM {α : Type} {R : Registry → Registry → Prop} (refl : ∀ r, R r r)
    (trans : ∀ {r r' r''}, R r r' → R r' r'' → R r r'')
    {step : Registry → α → Except Error Registry} {xs : List α}
    (keeps : ∀ x ∈ xs, ∀ {r r'}, step r x = .ok r' → R r r') (ok : xs.foldlM step r = .ok r') :
    R r r' ∧ ∀ x ∈ xs, ∃ before after, step before x = .ok after ∧ R after r' := by
  induction xs generalizing r with
  | nil =>
    cases ok
    exact ⟨refl _, fun x hx => absurd hx List.not_mem_nil⟩
  | cons first rest ih =>
    rw [List.foldlM_cons] at ok
    obtain ⟨r₁, one, ok⟩ := bind_eq_ok_iff.1 ok
    obtain ⟨kept, steps⟩ := ih (fun x hx => keeps x (List.mem_cons_of_mem _ hx)) ok
    refine ⟨trans (keeps first List.mem_cons_self one) kept, fun x hx => ?_⟩
    rcases List.mem_cons.1 hx with rfl | hx
    · exact ⟨r, r₁, one, kept⟩
    · exact steps x hx

/-- What every step keeps is kept by a merge. -/
theorem passed_of_merge {R : Registry → Registry → Prop} {b : RegistryBuilder}
    (kept : KeptBy R strict b) (ok : b.merge strict = .ok r) :
    ∃ r₀ : Registry, Passed R strict b r₀ ∧ r = r₀.withArrays := by
  obtain ⟨r₁, r₂, r₃, r₄, enums, composites, dynamic, dynamics, rfl⟩ := exists_of_merge ok
  obtain ⟨first, enumSteps⟩ := related_of_foldlM kept.refl kept.trans kept.enum enums
  obtain ⟨second, compositeSteps⟩ := related_of_foldlM kept.refl kept.trans kept.composite composites
  have third := kept.dynamicComposite dynamic
  obtain ⟨fourth, dynamicSteps⟩ := related_of_foldlM kept.refl kept.trans (by
    intro d hd r r' ok
    cases ok
    exact kept.dynamic d hd r) dynamics
  have last := kept.trans third fourth
  refine ⟨r₄, ⟨kept.trans first (kept.trans second last), ?_, ?_, ⟨r₂, r₃, dynamic, fourth⟩, ?_⟩, rfl⟩
  · intro e he
    obtain ⟨before, after, step, rest⟩ := enumSteps e he
    exact ⟨before, after, step, kept.trans rest (kept.trans second last)⟩
  · intro c hc
    obtain ⟨before, after, step, rest⟩ := compositeSteps c hc
    exact ⟨before, after, step, kept.trans rest last⟩
  · intro d hd
    obtain ⟨before, after, step, rest⟩ := dynamicSteps d hd
    cases step
    exact ⟨before, rest⟩

/-- A registry has every definition under its own name. -/
theorem Built.coherent {r : Registry} (h : r.Built) : r.Coherent := by
  cases h with
  | empty => exact (coherent_bare _ _).withDynamicComposite
  | @merged strict b r ok =>
    have kept : KeptBy (fun r r' => r.Coherent → r'.Coherent) strict b :=
      { refl := fun _ => id
        trans := fun first second h => second (first h)
        enum := fun _ _ _ _ ok h => h.addEnum ok
        composite := fun _ _ _ _ ok h => h.addComposite ok
        dynamicComposite := fun ok h => h.addDynamicComposite ok
        dynamic := fun _ _ _ h => ⟨h.enums, h.composites⟩ }
    obtain ⟨r₀, passed, rfl⟩ := passed_of_merge kept ok
    have all := passed.whole ((coherent_bare _ _).withCatalog b.catalog)
    exact ⟨all.enums, all.composites⟩

end Registry

end TypedStore
