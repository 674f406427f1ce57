/-
Loading against building. A registry that is loaded is merged strictly: a host type that the store lacks
is refused, where a registry in memory lets the host type stand for itself. Step by step, strict merging
does what lenient merging does, or says that a type is missing that the store lacks (`Guards.foldlM`).
So loading gives no registry but the one that building gives with the same types
(`RegistryBuilder.load_refines_build`).
-/
import TypedStore.Proofs.Registry.Consistency

set_option autoImplicit false

namespace TypedStore

namespace Dict

variable {α : Type}

/-- Setting a key that is there adds no key. -/
theorem contains_insert_known {d : Dict α} {key : String} (known : d.contains key = true) (value : α)
    (other : String) : (d.insert key value).contains other = d.contains other := by
  rw [contains_insert]
  by_cases own : key = other
  · rw [← own, known, Bool.or_true]
  · rw [decide_eq_false own, Bool.false_or]

theorem contains_insertAll (d : Dict α) (entries : List (String × α)) (key : String) :
    (d.insertAll entries).contains key = true
      ↔ d.contains key = true ∨ key ∈ entries.map (·.1) := by
  induction entries generalizing d with
  | nil => simp [insertAll]
  | cons entry rest ih =>
    have parts : d.insertAll (entry :: rest) = (d.insert entry.1 entry.2).insertAll rest := rfl
    rw [parts, ih, contains_insert, List.map_cons, List.mem_cons, Bool.or_eq_true, decide_eq_true_eq]
    constructor
    · rintro ((own | known) | later)
      · exact .inr (.inl own.symm)
      · exact .inl known
      · exact .inr (.inr later)
    · rintro (known | own | later)
      · exact .inl (.inr known)
      · exact .inl (.inl own.symm)
      · exact .inr later

/-- What is listed by names is in the dictionary that it makes. -/
theorem contains_listed {β : Type} (listed : List (String × β)) (entry : String × β → α) (name : String) :
    (empty.insertAll (listed.map fun x => (x.1, entry x))).contains name = true
      ↔ name ∈ listed.map (·.1) := by
  rw [contains_insertAll, List.map_map]
  exact ⟨fun h => h.resolve_left (by simp [contains]), .inr⟩

end Dict

namespace Registry

variable {r r' : Registry} {strict : Bool}

/-! ## 1. One step -/

/-- An enumeration that is there joins in the same way either way, and one that is not is refused. -/
theorem addEnum_strict (r : Registry) (e : EnumRegistration) :
    r.addEnum true e
      = if r.enums.contains e.typeName then r.addEnum false e else .error (.pgTypeNotFound e.typeName) := by
  unfold addEnum Dict.contains
  cases r.enums.get? e.typeName <;> rfl

@[inherit_doc addEnum_strict]
theorem addComposite_strict (r : Registry) (c : CompositeRegistration) :
    r.addComposite true c
      = if r.composites.contains c.typeName then r.addComposite false c
        else .error (.pgTypeNotFound c.typeName) := by
  have named : (c.retarget r.dynamicType).typeName = c.typeName := rfl
  unfold addComposite Dict.contains
  dsimp only
  rw [named]
  cases r.composites.get? c.typeName <;> rfl

/-- The composite type of self describing values is refused where it is needed and not there. -/
theorem addDynamicComposite_strict (r : Registry) (needed : Bool) :
    r.addDynamicComposite true needed
      = if needed = true ∧ r.composites.contains r.dynamicType = false
        then .error (.pgTypeNotFound r.dynamicType) else r.addDynamicComposite false needed := by
  unfold addDynamicComposite
  cases r.composites.contains r.dynamicType <;> cases needed <;> rfl

/-- An enumeration that joins one that is there adds no name. -/
theorem contains_addEnum {e : EnumRegistration} (ok : r.addEnum strict e = .ok r')
    (known : r.enums.contains e.typeName = true) (name : String) :
    r'.enums.contains name = r.enums.contains name := by
  rcases addEnum_eq_ok.1 ok with ⟨store, -, -, rfl⟩ | ⟨-, -, rfl⟩
  · exact Dict.contains_insert_known known _ name
  · exact Dict.contains_insert_known known _ name

theorem contains_addComposite {c : CompositeRegistration} (ok : r.addComposite strict c = .ok r')
    (known : r.composites.contains c.typeName = true) (name : String) :
    r'.composites.contains name = r.composites.contains name := by
  rcases addComposite_eq_ok.1 ok with ⟨store, -, -, rfl⟩ | ⟨-, -, rfl⟩
  · exact Dict.contains_insert_known known _ name
  · exact Dict.contains_insert_known known _ name

/-- Enumerations leave composite types alone, and the name of the one of self describing values. -/
theorem composites_addEnum {e : EnumRegistration} (ok : r.addEnum strict e = .ok r') :
    r'.composites = r.composites ∧ r'.dynamicType = r.dynamicType := by
  rcases addEnum_eq_ok.1 ok with ⟨store, -, -, rfl⟩ | ⟨-, -, rfl⟩ <;> exact ⟨rfl, rfl⟩

theorem dynamicType_addComposite {c : CompositeRegistration} (ok : r.addComposite strict c = .ok r') :
    r'.dynamicType = r.dynamicType := (grows_addComposite ok).1.dynamicType

/-! ## 2. Steps in a row -/

/-- A strict step does what the lenient step does where the type that it is for is known, and refuses
the type else. A lenient step for a known type adds no name. -/
structure Guards {α : Type} (known : Registry → String → Bool) (name : α → String)
    (strict lenient : Registry → α → Except Error Registry) : Prop where
  step : ∀ r x, strict r x
    = if known r (name x) then lenient r x else .error (.pgTypeNotFound (name x))
  kept : ∀ {r r' x}, lenient r x = .ok r' → known r (name x) = true →
    ∀ n, known r' n = known r n

theorem guards_enums :
    Guards (fun r => r.enums.contains) (·.typeName) (addEnum true) (addEnum false) :=
  ⟨addEnum_strict, contains_addEnum⟩

theorem guards_composites :
    Guards (fun r => r.composites.contains) (·.typeName) (addComposite true) (addComposite false) :=
  ⟨addComposite_strict, contains_addComposite⟩

/-- Strict steps end like lenient ones, and then every type was known from the start unless they fail;
or they end at a type that was not known. The induction is on the steps. -/
theorem Guards.foldlM {α : Type} {known : Registry → String → Bool} {name : α → String}
    {strict lenient : Registry → α → Except Error Registry} (guards : Guards known name strict lenient)
    (xs : List α) (r : Registry) :
    (xs.foldlM strict r = xs.foldlM lenient r ∧ ∀ r', xs.foldlM lenient r = .ok r' →
        (∀ x ∈ xs, known r (name x) = true) ∧ ∀ n, known r' n = known r n)
      ∨ ∃ x ∈ xs, known r (name x) = false
        ∧ xs.foldlM strict r = .error (.pgTypeNotFound (name x)) := by
  induction xs generalizing r with
  | nil =>
    refine .inl ⟨rfl, fun r' ok => ⟨fun x hx => absurd hx List.not_mem_nil, fun n => ?_⟩⟩
    cases ok
    rfl
  | cons x rest ih =>
    rw [List.foldlM_cons, List.foldlM_cons, guards.step]
    by_cases here : known r (name x) = true
    · rw [if_pos here]
      rcases one : lenient r x with e | r₁
      · exact .inl ⟨rfl, fun r' ok => by cases ok⟩
      · -- what is known behind the step was known in front of it
        have kept := guards.kept one here
        rcases ih r₁ with ⟨same, all⟩ | ⟨y, hy, unknown, refused⟩
        · refine .inl ⟨same, fun r' ok => ?_⟩
          obtain ⟨others, names⟩ := all r' ok
          refine ⟨fun y hy => ?_, fun n => (names n).trans (kept n)⟩
          rcases List.mem_cons.1 hy with rfl | hy
          · exact here
          · rw [← kept]
            exact others y hy
        · exact .inr ⟨y, List.mem_cons_of_mem _ hy, (kept _).symm.trans unknown, refused⟩
    · rw [if_neg here]
      exact .inr ⟨x, List.mem_cons_self, Bool.eq_false_iff.2 here, rfl⟩

end Registry

/-! ## 3. A merge -/

namespace RegistryBuilder

/-- The store lacks a type that a host type is for. The composite type of self describing values is
lacked where there are such values. -/
inductive Lacks (b : RegistryBuilder) : String → Prop where
  | enumeration {e : EnumRegistration} (added : e ∈ b.enums)
      (absent : e.typeName ∉ b.catalog.enums.map (·.1)) : Lacks b e.typeName
  | composite {c : CompositeRegistration} (added : c ∈ b.composites)
      (absent : c.typeName ∉ b.catalog.composites.map (·.1)) : Lacks b c.typeName
  | dynamic (needed : b.dynamics ≠ []) (absent : b.start.dynamicType ∉ b.catalog.composites.map (·.1)) :
      Lacks b b.start.dynamicType

/-- The types that a registry starts with are those of the catalog. -/
theorem contains_start (b : RegistryBuilder) (name : String) :
    (b.start.enums.contains name = true ↔ name ∈ b.catalog.enums.map (·.1))
      ∧ (b.start.composites.contains name = true ↔ name ∈ b.catalog.composites.map (·.1)) := by
  constructor
  · exact Dict.contains_listed _ (fun x => EnumDefinition.mk x.1 x.2 default none []) name
  · exact Dict.contains_listed _ (fun x => CompositeDefinition.mk x.1 x.2 none) name

/-- What a merge does behind the enumerations. -/
def mergeComposites (strict : Bool) (b : RegistryBuilder) (r : Registry) : Except Error Registry := do
  let r ← b.composites.foldlM (Registry.addComposite strict) r
  r.addDynamicComposite strict !b.dynamics.isEmpty

/-- Where the composite types are those of the start, strict merging goes on like lenient merging, and
then the store lacks no composite type unless both fail; or it says which one the store lacks. -/
theorem mergeComposites_strict (b : RegistryBuilder) {r : Registry}
    (composites : r.composites = b.start.composites) (dynamicType : r.dynamicType = b.start.dynamicType) :
    (b.mergeComposites true r = b.mergeComposites false r
        ∧ ∀ r', b.mergeComposites false r = .ok r' →
          (∀ c ∈ b.composites, c.typeName ∈ b.catalog.composites.map (·.1))
            ∧ (b.dynamics ≠ [] → b.start.dynamicType ∈ b.catalog.composites.map (·.1)))
      ∨ ∃ name, b.Lacks name ∧ b.mergeComposites true r = .error (.pgTypeNotFound name) := by
  have listed : ∀ name, r.composites.contains name = true ↔ name ∈ b.catalog.composites.map (·.1) := by
    intro name
    rw [composites, (b.contains_start name).2]
  unfold mergeComposites
  rcases Registry.guards_composites.foldlM b.composites r with ⟨same, known⟩ | ⟨c, hc, unknown, refused⟩
  · rw [same]
    rcases steps : b.composites.foldlM (Registry.addComposite false) r with e | r₂
    · exact .inl ⟨rfl, fun r' ok => by cases ok⟩
    obtain ⟨all, names⟩ := known r₂ steps
    have own : r₂.dynamicType = b.start.dynamicType :=
      (Registry.related_of_foldlM (R := fun r r' => r'.dynamicType = r.dynamicType) (fun _ => rfl)
        (fun h h' => h'.trans h) (fun _ _ _ _ ok => Registry.dynamicType_addComposite ok) steps).1.trans
          dynamicType
    have ends : r₂.composites.contains r₂.dynamicType = true
        ↔ b.start.dynamicType ∈ b.catalog.composites.map (·.1) := by
      rw [own, names, listed]
    show (r₂.addDynamicComposite true _ = r₂.addDynamicComposite false _ ∧ _) ∨ _
    rw [Registry.addDynamicComposite_strict]
    split
    · rename_i lacking
      refine .inr ⟨b.start.dynamicType, .dynamic ?_ ?_, ?_⟩
      · intro none
        rw [none] at lacking
        cases lacking.1
      · rw [← ends, lacking.2]
        decide
      · show r₂.addDynamicComposite true _ = _
        rw [Registry.addDynamicComposite_strict, if_pos lacking, own]
    · rename_i fine
      refine .inl ⟨rfl, fun r' _ => ⟨fun c hc => (listed _).1 (all c hc), fun needed => ?_⟩⟩
      rw [← ends]
      by_contra absent
      refine fine ⟨?_, Bool.eq_false_iff.2 absent⟩
      cases dynamics : b.dynamics with
      | nil => exact absurd dynamics needed
      | cons => rfl
  · refine .inr ⟨c.typeName, .composite hc fun mem => ?_, ?_⟩
    · rw [(listed _).2 mem] at unknown
      cases unknown
    · rw [refused]
      rfl

/-- Strict merging ends like lenient merging, and then the store lacks nothing unless both fail; or it
says which type the store lacks. -/
theorem merge_strict (b : RegistryBuilder) :
    (b.merge true = b.merge false ∧ ∀ r, b.merge false = .ok r → ∀ name, ¬ b.Lacks name)
      ∨ ∃ name, b.Lacks name ∧ b.merge true = .error (.pgTypeNotFound name) := by
  have parts : ∀ strict, b.merge strict
      = ((b.enums.foldlM (Registry.addEnum strict) b.start).bind (b.mergeComposites strict)).map
        fun r => (b.dynamics.foldl Registry.addDynamic r).withArrays := fun strict => rfl
  rw [parts, parts]
  rcases Registry.guards_enums.foldlM b.enums b.start with ⟨same, known⟩ | ⟨e, he, unknown, refused⟩
  · rw [same]
    rcases steps : b.enums.foldlM (Registry.addEnum false) b.start with error | r₁
    · exact .inl ⟨rfl, fun r ok => by cases ok⟩
    -- composite types are still those of the start
    obtain ⟨composites, dynamicType⟩ := (Registry.related_of_foldlM
      (R := fun r r' => r'.composites = r.composites ∧ r'.dynamicType = r.dynamicType)
      (fun _ => ⟨rfl, rfl⟩) (fun h h' => ⟨h'.1.trans h.1, h'.2.trans h.2⟩)
      (fun _ _ _ _ ok => Registry.composites_addEnum ok) steps).1
    show ((b.mergeComposites true r₁).map _ = (b.mergeComposites false r₁).map _ ∧ _) ∨ _
    rcases b.mergeComposites_strict composites dynamicType with
      ⟨same', listed⟩ | ⟨name, lacks, refused⟩
    · refine .inl ⟨by rw [same'], fun r ok => ?_⟩
      obtain ⟨types, rest, -⟩ := map_eq_ok ok
      obtain ⟨records, dynamic⟩ := listed types rest
      rintro _ (⟨added, absent⟩ | ⟨added, absent⟩ | ⟨needed, absent⟩)
      · exact absent ((b.contains_start _).1.1 ((known r₁ steps).1 _ added))
      · exact absent (records _ added)
      · exact absent (dynamic needed)
    · refine .inr ⟨name, lacks, ?_⟩
      show (b.mergeComposites true r₁).map _ = _
      rw [refused]
      rfl
  · refine .inr ⟨e.typeName, .enumeration he fun mem => ?_, ?_⟩
    · rw [(b.contains_start _).1.2 mem] at unknown
      cases unknown
    · rw [refused]
      rfl

/-- **Loading refines building.** Let a source answer a catalog. If loading succeeds, building with that
catalog succeeds with the same registry; if building fails, loading fails, with the same failure or
because the store lacks a type. Where building succeeds, loading does unless the store lacks a type. -/
theorem load_refines_build {σ : Type} (b : RegistryBuilder) (source : List String → Action σ Catalog)
    {j j₁ : Journal σ} {catalog : Catalog}
    (answered : (source b.effectiveSchemas).perform j = (.ok catalog, j₁)) :
    (∀ r, ((b.loadBy source).perform j).1 = .ok r → (b.withCatalog catalog).build = .ok r)
      ∧ (∀ e, (b.withCatalog catalog).build = .error e →
        ∃ e', ((b.loadBy source).perform j).1 = .error e'
          ∧ (e' = e ∨ ∃ name, (b.withCatalog catalog).Lacks name ∧ e' = .pgTypeNotFound name))
      ∧ ∀ r, (b.withCatalog catalog).build = .ok r →
        (((b.loadBy source).perform j).1 = .ok r ↔ ∀ name, ¬ (b.withCatalog catalog).Lacks name) := by
  have loads : ((b.loadBy source).perform j).1 = (b.withCatalog catalog).merge true := by
    rw [perform_loadBy, answered]
    rfl
  rw [loads, build]
  rcases (b.withCatalog catalog).merge_strict with ⟨same, listed⟩ | ⟨name, lacks, refused⟩
  · rw [same]
    exact ⟨fun r ok => ok, fun e failed => ⟨e, failed, .inl rfl⟩,
      fun r ok => ⟨fun _ => listed r ok, fun _ => ok⟩⟩
  · rw [refused]
    refine ⟨nofun, fun e _ => ⟨_, rfl, .inr ⟨name, lacks, rfl⟩⟩, fun r _ => ⟨nofun, fun none => ?_⟩⟩
    exact absurd lacks (none name)

/-- The types of a store that has those of some hosts, and a mood more. -/
def roomyCatalog : Catalog where
  enums := [("mood", ["wild", "odd", "calm"])]
  composites := [("spot", [("label", "text"), ("x", "int4")]),
    ("dynamic_dto", [("payload", "jsonb"), ("type_name", "text")])]
  arrays := []

/-- A source that answers the same for all schemas. -/
def sourceOf (catalog : Catalog) (_ : List String) : Action Unit Catalog := pure catalog

/-- Such a store lets the hosts load, and an empty one does not, though they can be built without it. -/
theorem load_refines_build_roomyCatalog :
    (∃ r, ((notedHosts.loadBy (sourceOf roomyCatalog)).perform ⟨(), []⟩).1 = .ok r
        ∧ (notedHosts.withCatalog roomyCatalog).build = .ok r)
      ∧ ∃ r, (notedHosts.withCatalog .empty).build = .ok r
        ∧ ((notedHosts.loadBy (sourceOf .empty)).perform ⟨(), []⟩).1 ≠ .ok r := by
  have answered : ∀ catalog, (sourceOf catalog notedHosts.effectiveSchemas).perform ⟨(), []⟩
      = (.ok catalog, ⟨(), []⟩) := fun _ => rfl
  constructor
  · have loads : ((notedHosts.loadBy (sourceOf roomyCatalog)).perform ⟨(), []⟩).1.isOk = true := by
      decide +kernel
    obtain ⟨refines, -, -⟩ := load_refines_build notedHosts _ (answered roomyCatalog)
    rcases loaded : ((notedHosts.loadBy (sourceOf roomyCatalog)).perform ⟨(), []⟩).1 with e | r
    · rw [loaded] at loads
      cases loads
    · exact ⟨r, rfl, refines r loaded⟩
  · have builds : (notedHosts.withCatalog .empty).build.isOk = true := by decide +kernel
    obtain ⟨-, -, loads⟩ := load_refines_build notedHosts _ (answered .empty)
    rcases built : (notedHosts.withCatalog .empty).build with e | r
    · rw [built] at builds
      cases builds
    · refine ⟨r, rfl, fun loaded => ?_⟩
      have lacks : (notedHosts.withCatalog .empty).Lacks "mood" :=
        .enumeration (e := ⟨"mood", default, "Mood", [("calm", "Calm"), ("wild", "Wild")]⟩)
          (by simp [notedHosts, twoHosts, withCatalog]) (by decide)
      exact (loads r built).1 loaded "mood" lacks

end RegistryBuilder

end TypedStore
