/-
Where definitions come from. A composite type keeps the attributes that it is first defined with: those
that the store lists for it, or else those of the first host type of its name; and the type of self
describing values has tag and document where nobody defines it (`attributes_of_merge`). Later host types
are checked against what is there and change nothing.
-/
import TypedStore.Proofs.Registry.Strictness

set_option autoImplicit false

namespace TypedStore

/-- The attributes of a composite type with their types, in the order that the registry has. -/
def Registry.attributes? (r : Registry) (name : String) : Option (List (String × String)) :=
  (r.composites.get? name).map CompositeDefinition.attributes

/-- The attributes that a composite type is first defined with, by the store or else by a host type. -/
def RegistryBuilder.firstAttributes? (b : RegistryBuilder) (name : String) :
    Option (List (String × String)) :=
  (b.start.attributes? name).or ((b.composites.find? (·.typeName == name)).map fun c =>
    (c.retarget b.start.dynamicType).attributes)

namespace Registry

variable {strict : Bool} {r r' : Registry} {b : RegistryBuilder}

/-- A host record type gives its attributes to its type if that has none yet. -/
theorem attributes_addComposite {c : CompositeRegistration} (ok : r.addComposite strict c = .ok r')
    (name : String) :
    r'.attributes? name = (r.attributes? name).or
      (if c.typeName = name then some (c.retarget r.dynamicType).attributes else none) := by
  by_cases same : c.typeName = name
  · subst same
    rw [if_pos rfl]
    rcases addComposite_eq_ok.1 ok with ⟨store, found, -, rfl⟩ | ⟨absent, -, rfl⟩
    · rw [attributes?, attributes?, Dict.get?_insert_self, found]
      rfl
    · rw [attributes?, attributes?, Dict.get?_insert_self, absent]
      rfl
  · rw [if_neg same, Option.or_none]
    rcases addComposite_eq_ok.1 ok with ⟨store, -, -, rfl⟩ | ⟨-, -, rfl⟩ <;>
      rw [attributes?, attributes?, Dict.get?_insert, if_neg same]

/-- The first host record type of a name gives its attributes, unless there were some before. The induction
is on the host types. -/
theorem attributes_of_foldlM {cs : List CompositeRegistration}
    (ok : cs.foldlM (addComposite strict) r = .ok r') (name : String) :
    r'.attributes? name = (r.attributes? name).or
      ((cs.find? (·.typeName == name)).map fun c => (c.retarget r.dynamicType).attributes) := by
  induction cs generalizing r with
  | nil =>
    cases ok
    exact Option.or_none.symm
  | cons c rest ih =>
    rw [List.foldlM_cons] at ok
    obtain ⟨r₁, one, ok⟩ := bind_eq_ok_iff.1 ok
    rw [ih ok, attributes_addComposite one, dynamicType_addComposite one, Option.or_assoc,
      List.find?_cons]
    by_cases same : c.typeName = name
    · rw [if_pos same, beq_iff_eq.2 same, Option.some_or]
      rfl
    · rw [if_neg same, beq_false_of_ne same, Option.none_or]

/-- Composite types are left alone, and the name of the one of self describing values. -/
def SameComposites (r r' : Registry) : Prop :=
  r'.composites = r.composites ∧ r'.dynamicType = r.dynamicType

/-- Steps that leave composite types alone do so one after the other. -/
theorem sameComposites_of_foldlM {α : Type} {step : Registry → α → Except Error Registry} {xs : List α}
    (keeps : ∀ {x r r'}, step r x = .ok r' → SameComposites r r') (ok : xs.foldlM step r = .ok r') :
    SameComposites r r' :=
  (related_of_foldlM (R := SameComposites) (fun _ => ⟨rfl, rfl⟩)
    (fun h h' => ⟨h'.1.trans h.1, h'.2.trans h.2⟩) (fun _ _ _ _ ok => keeps ok) ok).1

/-- **Where the attributes of a composite type come from.** They are those that it is first defined with;
the type of self describing values has tag and document where nobody defines it. -/
theorem attributes_of_merge (ok : b.merge strict = .ok r) (name : String) :
    r.attributes? name = (b.firstAttributes? name).or
      (if name = r.dynamicType then
        some [(dynamicTagAttribute, "text"), (dynamicPayloadAttribute, "jsonb")] else none) := by
  obtain ⟨r₁, r₂, r₃, r₄, enums, composites, dynamic, dynamics, rfl⟩ := exists_of_merge ok
  have first := sameComposites_of_foldlM composites_addEnum enums
  have last := sameComposites_of_foldlM (fun ok => by cases ok; exact ⟨rfl, rfl⟩) dynamics
  have listed := attributes_of_foldlM composites name
  have start : r₁.attributes? name = b.start.attributes? name := by
    rw [attributes?, attributes?, first.1]
  rw [start, first.2, ← RegistryBuilder.firstAttributes?] at listed
  show r₄.attributes? name = (b.firstAttributes? name).or (if name = r₄.dynamicType then _ else _)
  rw [← listed, attributes?, last.1, last.2]
  rcases eq_of_addDynamicComposite dynamic with ⟨known, rfl⟩ | ⟨absent, rfl⟩
  · by_cases own : name = r₃.dynamicType
    · obtain ⟨definition, found⟩ := Option.isSome_iff_exists.1 known
      rw [own, attributes?, found]
      rfl
    · rw [if_neg own, Option.or_none, attributes?]
  · show ((r₂.composites.insert r₂.dynamicType _).get? name).map _ = _
    rw [Dict.get?_insert, attributes?]
    by_cases own : name = r₂.dynamicType
    · have none : r₂.composites.get? name = none := by
        rw [own]
        exact Option.not_isSome_iff_eq_none.1 (Bool.eq_false_iff.1 absent)
      rw [if_pos own.symm, none]
      exact (if_pos own).symm
    · have own' : ¬ name = r₂.withDynamicComposite.dynamicType := own
      rw [if_neg (Ne.symm own), if_neg own', Option.or_none]

end Registry

/-- What becomes of a builder, no types where it is refused. -/
def RegistryBuilder.registry (b : RegistryBuilder) : Registry := b.build.toOption.getD .empty

theorem RegistryBuilder.startsWith_registry {b : RegistryBuilder} (succeeds : b.build.isOk = true) :
    b.StartsWith b.catalog b.registry := by
  rw [registry]
  cases ok : b.build with
  | error e =>
    rw [ok] at succeeds
    cases succeeds
  | ok r => exact .built ok

end TypedStore
