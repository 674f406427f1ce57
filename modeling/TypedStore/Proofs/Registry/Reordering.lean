/-
The order in which host types are registered decides nothing. A step of a merge reads the definition of
its own name, and changes what stands under that name and under its host type; so steps for two names
may change places (`swaps_addEnum`, `swaps_addComposite`), and so may two that share no tag
(`addDynamic_comm`). A merge of the same host types in another order therefore fails as well or ends with
the same registry, in whatever order it meets the names of types (`mergesTo_iff`), and the calls of a
builder can be made in any order (`RegistryBuilder.registered_in_any_order`).
-/
import TypedStore.Proofs.Registry.Strictness

set_option autoImplicit false

namespace TypedStore

/-! ## 1. Entries in any order -/

namespace Dict

variable {α : Type} {d d' : Dict α} {key other : String} {value value' : α}

theorem mem_entries : (key, value) ∈ d.entries ↔ d.get? key = some value :=
  ⟨entryValue?_of_mem d.rise, mem_of_entryValue?⟩

/-- Keys rise, so no entry is there twice. -/
theorem nodup_entries (d : Dict α) : d.entries.Nodup := by
  apply d.rise.imp
  intro a b less same
  rw [same] at less
  exact String.lt_irrefl _ less

/-- Dictionaries that answer alike are equal, as their entries are in rising order. -/
theorem eq_of_get? (same : ∀ key, d.get? key = d'.get? key) : d = d' := by
  have entries : d.entries = d'.entries := by
    refine List.Perm.eq_of_pairwise ?_ d.rise d'.rise ?_
    · intro a b _ _ less greater
      exact absurd greater (String.lt_asymm less)
    · apply (List.perm_ext_iff_of_nodup d.nodup_entries d'.nodup_entries).2
      rintro ⟨key, value⟩
      rw [mem_entries, mem_entries, same]
  cases d
  cases d'
  cases entries
  rfl

/-- Two values may be set in either order, unless they are different ones for one key. -/
theorem insert_comm (d : Dict α) (apart : key = other → value = value') :
    (d.insert key value).insert other value' = (d.insert other value').insert key value := by
  apply eq_of_get?
  intro k
  rw [get?_insert, get?_insert, get?_insert, get?_insert]
  by_cases here : key = k
  · by_cases there : other = k
    · rw [if_pos there, if_pos here, apart (here.trans there.symm)]
    · rw [if_neg there, if_pos here, if_pos here]
  · rw [if_neg here, if_neg here]

/-- The same for values that do not take the place of others. -/
theorem insertNew_comm (d : Dict α) (apart : key = other → value = value') :
    (d.insertNew key value).insertNew other value' = (d.insertNew other value').insertNew key value := by
  apply eq_of_get?
  intro k
  rw [get?_insertNew, get?_insertNew, get?_insertNew, get?_insertNew, get?_insertNew, get?_insertNew]
  by_cases same : key = other
  · cases same
    rw [apart rfl]
  · rw [if_neg same, if_neg (Ne.symm same)]
    by_cases here : key = k
    · rw [if_neg fun there => same (here.trans there.symm), if_pos here, if_pos here]
    · rw [if_neg here, if_neg here]

theorem insertAll_append (d : Dict α) (entries entries' : List (String × α)) :
    d.insertAll (entries ++ entries') = (d.insertAll entries).insertAll entries' :=
  List.foldl_append

/-- The entries of a list may be set in any order, if none of them has two values. -/
theorem insertAll_perm (d : Dict α) {entries entries' : List (String × α)} (perm : entries.Perm entries')
    (apart : ∀ e ∈ entries, ∀ e' ∈ entries, e.1 = e'.1 → e.2 = e'.2) :
    d.insertAll entries = d.insertAll entries' :=
  perm.foldl_eq' (fun e he e' he' d => d.insert_comm (apart e he e' he')) d

end Dict

/-! ## 2. Steps that may fail, in any order -/

section Steps

variable {ε σ α β : Type}

/-- Two answers are failures both, or the same success. -/
def SameResult (x x' : Except ε α) : Prop := ∀ a, x = .ok a ↔ x' = .ok a

namespace SameResult

variable {x x' x'' : Except ε α}

theorem refl (x : Except ε α) : SameResult x x := fun _ => .rfl

theorem trans (h : SameResult x x') (h' : SameResult x' x'') : SameResult x x'' :=
  fun a => (h a).trans (h' a)

theorem bind {next next' : α → Except ε β} (h : SameResult x x')
    (after : ∀ a, SameResult (next a) (next' a)) : SameResult (x >>= next) (x' >>= next') := by
  intro b
  rw [bind_eq_ok_iff, bind_eq_ok_iff]
  exact exists_congr fun a => and_congr (h a) (after a b)

theorem map (f : α → β) (h : SameResult x x') : SameResult (x.map f) (x'.map f) :=
  h.bind fun a => refl (.ok (f a))

end SameResult

/-- Two items may change places: a step for one and then the other ends as the other way around. -/
def Swaps (step : σ → α → Except ε σ) (x y : α) : Prop :=
  ∀ s, SameResult (step s x >>= fun s => step s y) (step s y >>= fun s => step s x)

/-- Where any two items may change places, they may be taken in any order. The induction is on the
permutation. -/
theorem SameResult.foldlM_perm {step : σ → α → Except ε σ} {xs ys : List α} (perm : xs.Perm ys)
    (swaps : ∀ x ∈ xs, ∀ y ∈ xs, Swaps step x y) (s : σ) :
    SameResult (xs.foldlM step s) (ys.foldlM step s) := by
  induction perm generalizing s with
  | nil => exact .refl _
  | cons x _ ih =>
    rw [List.foldlM_cons, List.foldlM_cons]
    refine (SameResult.refl _).bind (ih fun y hy z hz => ?_)
    exact swaps y (List.mem_cons_of_mem _ hy) z (List.mem_cons_of_mem _ hz)
  | swap x y rest =>
    have first := swaps y List.mem_cons_self x (List.mem_cons_of_mem _ List.mem_cons_self) s
    have both := first.bind fun s => SameResult.refl (rest.foldlM step s)
    rw [bind_assoc, bind_assoc] at both
    simpa only [List.foldlM_cons] using both
  | trans perm _ first second =>
    refine (first swaps s).trans (second (fun x hx y hy => ?_) s)
    exact swaps x (perm.mem_iff.2 hx) y (perm.mem_iff.2 hy)

/-- Let a step read the slot of its item, and put what it makes of it. Two items may change places if
neither puts anything into the slot of the other. -/
theorem swaps_of_slots {δ : Type} {step : σ → α → Except ε σ} (slot : σ → α → β)
    {makes : α → β → δ → Prop} {put : σ → α → δ → σ}
    (steps : ∀ s x s', step s x = .ok s' ↔ ∃ made, makes x (slot s x) made ∧ s' = put s x made) {x y : α}
    (unread : ∀ s made, slot (put s x made) y = slot s y)
    (unread' : ∀ s made, slot (put s y made) x = slot s x)
    (comm : ∀ s made made', put (put s x made) y made' = put (put s y made') x made) : Swaps step x y := by
  intro s s'
  simp only [bind_eq_ok_iff, steps]
  constructor
  · rintro ⟨_, ⟨made, own, rfl⟩, made', other, rfl⟩
    rw [unread] at other
    refine ⟨_, ⟨made', other, rfl⟩, made, ?_, comm s made made'⟩
    rwa [unread']
  · rintro ⟨_, ⟨made', other, rfl⟩, made, own, rfl⟩
    rw [unread'] at own
    refine ⟨_, ⟨made, own, rfl⟩, made', ?_, (comm s made made').symm⟩
    rwa [unread]

end Steps

/-! ## 3. Host types in any order -/

/-- A host enumeration makes a definition of the one that is there, if any. -/
inductive EnumRegistration.Makes (strict : Bool) (e : EnumRegistration) :
    Option EnumDefinition → EnumDefinition → Prop where
  | joined {store : EnumDefinition} (listed : ∀ constant ∈ e.constants, store.hasLabel constant.1 = true) :
      Makes strict e (some store)
        { store with convention := e.convention, host? := some e.host, constants := e.constants }
  | new (lenient : strict = false) : Makes strict e none e.definition

/-- A host record type makes a definition of the one that is there, if any, and of the type of self
describing values. -/
inductive CompositeRegistration.Makes (strict : Bool) (c : CompositeRegistration) :
    Option CompositeDefinition × String → CompositeDefinition → Prop where
  | joined {store : CompositeDefinition} {dynamicType : String}
      (checked : checkAttributes store (c.retarget dynamicType).attributes dynamicType = .ok ()) :
      Makes strict c (some store, dynamicType) { store with host? := some c.host }
  | new {dynamicType : String} (lenient : strict = false) :
      Makes strict c (none, dynamicType) (c.retarget dynamicType).definition

namespace Registry

variable {strict : Bool} {r r' : Registry}

/-- Puts the definition of a host enumeration under its name, and its name under the host type. -/
def putEnum (r : Registry) (e : EnumRegistration) (made : EnumDefinition) : Registry :=
  { r with
    enums := r.enums.insert e.typeName made
    storeTypes := r.storeTypes.insert e.host e.typeName }

/-- Puts the definition of a host record type under its name, and its name under the host type. -/
def putComposite (r : Registry) (c : CompositeRegistration) (made : CompositeDefinition) : Registry :=
  { r with
    composites := r.composites.insert c.typeName made
    storeTypes := r.storeTypes.insert c.host c.typeName }

theorem addEnum_eq_ok_iff (r : Registry) (e : EnumRegistration) (r' : Registry) :
    r.addEnum strict e = .ok r' ↔
      ∃ made, e.Makes strict (r.enums.get? e.typeName) made ∧ r' = r.putEnum e made := by
  rw [addEnum_eq_ok]
  constructor
  · rintro (⟨store, found, listed, rfl⟩ | ⟨absent, lenient, rfl⟩)
    · exact ⟨_, found ▸ .joined listed, rfl⟩
    · exact ⟨_, absent ▸ .new lenient, rfl⟩
  · rintro ⟨made, makes, rfl⟩
    generalize found : r.enums.get? e.typeName = slot at makes
    cases makes with
    | joined listed => exact .inl ⟨_, rfl, listed, rfl⟩
    | new lenient => exact .inr ⟨rfl, lenient, rfl⟩

theorem addComposite_eq_ok_iff (r : Registry) (c : CompositeRegistration) (r' : Registry) :
    r.addComposite strict c = .ok r' ↔
      ∃ made, c.Makes strict (r.composites.get? c.typeName, r.dynamicType) made
        ∧ r' = r.putComposite c made := by
  rw [addComposite_eq_ok]
  constructor
  · rintro (⟨store, found, checked, rfl⟩ | ⟨absent, lenient, rfl⟩)
    · exact ⟨_, found ▸ .joined checked, rfl⟩
    · exact ⟨_, absent ▸ .new lenient, rfl⟩
  · rintro ⟨made, makes, rfl⟩
    generalize found : r.composites.get? c.typeName = slot at makes
    cases makes with
    | joined checked => exact .inl ⟨_, rfl, checked, rfl⟩
    | new lenient => exact .inr ⟨rfl, lenient, rfl⟩

/-- Enumerations of two names, which two host types stand for, may change places. -/
theorem swaps_addEnum {e e' : EnumRegistration} (names : e.typeName ≠ e'.typeName)
    (hosts : e.host ≠ e'.host) : Swaps (addEnum strict) e e' := by
  refine swaps_of_slots (fun r e => r.enums.get? e.typeName) addEnum_eq_ok_iff
    (fun r made => ?_) (fun r made => ?_) fun r made made' => ?_
  · exact (Dict.get?_insert _ _ _ _).trans (if_neg names)
  · exact (Dict.get?_insert _ _ _ _).trans (if_neg (Ne.symm names))
  · unfold putEnum
    dsimp only
    rw [r.enums.insert_comm fun same => absurd same names,
      r.storeTypes.insert_comm fun same => absurd same hosts]

/-- The same for record types. -/
theorem swaps_addComposite {c c' : CompositeRegistration} (names : c.typeName ≠ c'.typeName)
    (hosts : c.host ≠ c'.host) : Swaps (addComposite strict) c c' := by
  refine swaps_of_slots (fun r c => (r.composites.get? c.typeName, r.dynamicType))
    addComposite_eq_ok_iff (fun r made => ?_) (fun r made => ?_) fun r made made' => ?_
  · exact congrArg (·, r.dynamicType) ((Dict.get?_insert _ _ _ _).trans (if_neg names))
  · exact congrArg (·, r.dynamicType) ((Dict.get?_insert _ _ _ _).trans (if_neg (Ne.symm names)))
  · unfold putComposite
    dsimp only
    rw [r.composites.insert_comm fun same => absurd same names,
      r.storeTypes.insert_comm fun same => absurd same hosts]

/-- Self describing types that share no tag may change places. -/
theorem addDynamic_comm (r : Registry) {d d' : DynamicRegistration} (tags : List.Disjoint d.tags d'.tags)
    (hosts : d.host = d'.host → d.tags = d'.tags) :
    (r.addDynamic d).addDynamic d' = (r.addDynamic d').addDynamic d := by
  have mapped : (r.tagHosts.insertAll (d.tags.map fun tag => (tag, d.host))).insertAll
        (d'.tags.map fun tag => (tag, d'.host))
      = (r.tagHosts.insertAll (d'.tags.map fun tag => (tag, d'.host))).insertAll
        (d.tags.map fun tag => (tag, d.host)) := by
    rw [← Dict.insertAll_append, ← Dict.insertAll_append]
    apply r.tagHosts.insertAll_perm List.perm_append_comm
    -- a tag is one of the first type or of the second, and has its host type alone
    intro entry he entry' he' same
    rcases List.mem_append.1 he with he | he <;> rcases List.mem_append.1 he' with he' | he'
    all_goals
      obtain ⟨tag, listed, rfl⟩ := List.mem_map.1 he
      obtain ⟨tag', listed', rfl⟩ := List.mem_map.1 he'
      cases same
    · rfl
    · exact absurd listed' (tags listed)
    · exact absurd listed (tags listed')
    · rfl
  unfold addDynamic
  dsimp only
  rw [mapped, r.hostTags.insert_comm hosts, r.storeTypes.insert_comm fun _ => rfl]

/-- Names an array type for every one of some types that has none, in the order in which they come. -/
def withArraysOf (r : Registry) (elements : List String) : Registry :=
  { r with
    arrays := elements.foldl
      (fun arrays element => arrays.insertNew (arrayOf element) ⟨arrayOf element, element⟩) r.arrays }

/-- Arrays are named alike in whatever order their elements come. -/
theorem withArraysOf_perm (r : Registry) {elements elements' : List String}
    (perm : elements.Perm elements') : r.withArraysOf elements = r.withArraysOf elements' := by
  unfold withArraysOf
  rw [perm.foldl_eq' fun element _ element' _ arrays => ?_]
  apply arrays.insertNew_comm
  intro same
  rw [arrayOf_inj same]

end Registry

/-! ## 4. Merges in any order -/

/-- What the types of the program declare. A host type is registered as it declares itself. -/
structure HostTypes where
  enumeration : String → EnumRegistration
  composite : String → CompositeRegistration
  dynamic : String → DynamicRegistration
  host_enumeration : ∀ host, (enumeration host).host = host
  host_composite : ∀ host, (composite host).host = host
  host_dynamic : ∀ host, (dynamic host).host = host

/-- The host types of a builder are registered as they declare themselves. -/
structure HostTypes.Declares (types : HostTypes) (b : RegistryBuilder) : Prop where
  enums : ∀ e ∈ b.enums, e = types.enumeration e.host
  composites : ∀ c ∈ b.composites, c = types.composite c.host
  dynamics : ∀ d ∈ b.dynamics, d = types.dynamic d.host

namespace RegistryBuilder

open Registry

variable {strict : Bool} {b b' : RegistryBuilder} {types : HostTypes}

/-- Enumerations have distinct store names, record types too, and self describing types share no tag. -/
structure Apart (b : RegistryBuilder) : Prop where
  enums : ∀ e ∈ b.enums, ∀ e' ∈ b.enums, e ≠ e' → e.typeName ≠ e'.typeName
  composites : ∀ c ∈ b.composites, ∀ c' ∈ b.composites, c ≠ c' → c.typeName ≠ c'.typeName
  tags : ∀ d ∈ b.dynamics, ∀ d' ∈ b.dynamics, d ≠ d' → List.Disjoint d.tags d'.tags

/-- Builders with the same settings and the same host types in some order. -/
structure Reordered (b b' : RegistryBuilder) : Prop where
  schemas : b.schemas = b'.schemas
  dynamicType : b.dynamicType? = b'.dynamicType?
  catalog : b.catalog = b'.catalog
  enums : b.enums.Perm b'.enums
  composites : b.composites.Perm b'.composites
  dynamics : b.dynamics.Perm b'.dynamics

theorem Reordered.effectiveSchemas (h : b.Reordered b') : b.effectiveSchemas = b'.effectiveSchemas := by
  unfold RegistryBuilder.effectiveSchemas
  rw [h.schemas]

theorem Reordered.start (h : b.Reordered b') : b.start = b'.start := by
  unfold RegistryBuilder.start
  rw [h.effectiveSchemas, h.dynamicType, h.catalog]

theorem Reordered.withCatalog (h : b.Reordered b') (catalog : Catalog) :
    (b.withCatalog catalog).Reordered (b'.withCatalog catalog) :=
  { h with catalog := congrArg (·.append catalog) h.catalog }

/-- Host types that are registered as they declare themselves, under distinct names, may change places if
a step for two names and two host types may. -/
theorem swaps_of_declared {α : Type} {step : Registry → α → Except Error Registry} {host name : α → String}
    (swaps : ∀ {x y : α}, name x ≠ name y → host x ≠ host y → Swaps step x y) {declared : String → α}
    {xs : List α} (declares : ∀ x ∈ xs, x = declared (host x))
    (apart : ∀ x ∈ xs, ∀ y ∈ xs, x ≠ y → name x ≠ name y) : ∀ x ∈ xs, ∀ y ∈ xs, Swaps step x y := by
  intro x hx y hy
  by_cases same : x = y
  · rw [same]
    exact fun r => .refl _
  · apply swaps (apart x hx y hy same)
    intro hosts
    rw [declares x hx, declares y hy, hosts] at same
    exact same rfl

theorem foldl_addDynamic (declares : types.Declares b) (apart : b.Apart) (h : b.Reordered b')
    (r : Registry) : b.dynamics.foldl addDynamic r = b'.dynamics.foldl addDynamic r := by
  refine h.dynamics.foldl_eq' (fun d hd d' hd' r => ?_) r
  by_cases same : d = d'
  · rw [same]
  · apply r.addDynamic_comm (apart.tags d hd d' hd' same)
    intro hosts
    rw [declares.dynamics d hd, declares.dynamics d' hd', hosts]

/-- Host types in another order are merged to the same registry, unless they are refused in both. -/
theorem sameResult_merge (declares : types.Declares b) (apart : b.Apart) (h : b.Reordered b')
    (strict : Bool) : SameResult (b.merge strict) (b'.merge strict) := by
  have types : SameResult (b.mergeTypes strict) (b'.mergeTypes strict) := by
    unfold mergeTypes
    rw [← h.start, ← h.dynamics.isEmpty_eq]
    refine SameResult.bind (.foldlM_perm h.enums ?enums _) fun r => ?_
    case enums => exact swaps_of_declared swaps_addEnum declares.enums apart.enums
    refine SameResult.bind (.foldlM_perm h.composites ?composites _) fun r => ?_
    case composites => exact swaps_of_declared swaps_addComposite declares.composites apart.composites
    exact .refl _
  have ends : (fun r => (b.dynamics.foldl addDynamic r).withArrays)
      = fun r => (b'.dynamics.foldl addDynamic r).withArrays := by
    funext r
    rw [foldl_addDynamic declares apart h]
  unfold merge
  rw [ends]
  exact types.map _

/-- The answers of a merge that meets the names of enumerations and composite types in some order. -/
inductive MergesTo (strict : Bool) (b : RegistryBuilder) : Except Error Registry → Prop where
  | refused {e : Error} (types : b.mergeTypes strict = .error e) : MergesTo strict b (.error e)
  | merged {r r' : Registry} {elements : List String} (types : b.mergeTypes strict = .ok r)
      (dynamics : b.dynamics.foldl addDynamic r = r')
      (walk : elements.Perm (r'.enums.keys ++ r'.composites.keys)) :
      MergesTo strict b (.ok (r'.withArraysOf elements))

/-- The order in which names are met does not show. -/
theorem mergesTo_iff {answer : Except Error Registry} :
    b.MergesTo strict answer ↔ answer = b.merge strict := by
  constructor
  · rintro (types | ⟨types, rfl, walk⟩)
    · rw [merge, types]
      rfl
    · rw [withArraysOf_perm _ walk, merge, types]
      rfl
  · rintro rfl
    unfold merge
    cases types : b.mergeTypes strict with
    | error e => exact .refused types
    | ok r => exact .merged types rfl (.refl _)

/-- Two builders lead to the same registries or to none, in memory and with what a source answers. -/
structure SameRegistries (b b' : RegistryBuilder) : Prop where
  merge : ∀ strict answer answer', b.MergesTo strict answer → b'.MergesTo strict answer' →
    SameResult answer answer'
  build : SameResult b.build b'.build
  load : ∀ {σ : Type} (source : List String → Action σ Catalog) (j : Journal σ),
    SameResult ((b.loadBy source).perform j).1 ((b'.loadBy source).perform j).1

theorem sameRegistries_of_reordered (declares : types.Declares b) (apart : b.Apart)
    (h : b.Reordered b') : b.SameRegistries b' := by
  refine ⟨fun strict answer answer' merges merges' => ?merge, ?build, fun source j => ?load⟩
  case merge =>
    rw [mergesTo_iff.1 merges, mergesTo_iff.1 merges']
    exact sameResult_merge declares apart h strict
  case build => exact sameResult_merge declares apart h false
  case load =>
    rw [perform_loadBy, perform_loadBy, ← h.effectiveSchemas]
    rcases (source b.effectiveSchemas).perform j with ⟨e | catalog, j'⟩
    · exact .refl _
    · -- what was loaded is added behind the catalogs of both, and changes no host type
      have declares' : types.Declares (b.withCatalog catalog) :=
        ⟨declares.enums, declares.composites, declares.dynamics⟩
      have apart' : (b.withCatalog catalog).Apart := ⟨apart.enums, apart.composites, apart.tags⟩
      exact sameResult_merge declares' apart' (h.withCatalog catalog) true

end RegistryBuilder

/-! ## 5. Calls in any order -/

namespace RegistryBuilder

/-- A call of a builder. Host types are registered by their names. -/
inductive Call where
  | schema (name : String)
  | dynamicType (name : String)
  | catalog (catalog : Catalog)
  | enumeration (host : String)
  | composite (host : String)
  | dynamic (host : String)

namespace Call

/-- Whether a call makes a setting. The others register a host type. -/
def sets : Call → Bool
  | .schema _ | .dynamicType _ | .catalog _ => true
  | .enumeration _ | .composite _ | .dynamic _ => false

/-- The host type that a call registers as an enumeration. -/
def enumeration? : Call → Option String
  | .enumeration host => some host
  | _ => none

/-- The host type that a call registers as a record type. -/
def composite? : Call → Option String
  | .composite host => some host
  | _ => none

/-- The host type that a call registers as self describing. -/
def dynamic? : Call → Option String
  | .dynamic host => some host
  | _ => none

end Call

/-- The same calls, of which those that make settings come in the same order. -/
structure SameCalls (calls calls' : List Call) : Prop where
  perm : calls.Perm calls'
  settings : calls.filter (·.sets) = calls'.filter (·.sets)

/-- A builder after a call. -/
def called (types : HostTypes) (b : RegistryBuilder) : Call → RegistryBuilder
  | .schema name => { b with schemas := b.schemas ++ [name] }
  | .dynamicType name => { b with dynamicType? := some name }
  | .catalog catalog => b.withCatalog catalog
  | .enumeration host => { b with enums := b.enums ++ [types.enumeration host] }
  | .composite host => { b with composites := b.composites ++ [types.composite host] }
  | .dynamic host => { b with dynamics := b.dynamics ++ [types.dynamic host] }

/-- The builder that calls leave, one after the other. -/
def assembled (types : HostTypes) (calls : List Call) : RegistryBuilder :=
  calls.foldl (called types) .empty

/-- A builder without its host types. -/
def settings (b : RegistryBuilder) : RegistryBuilder :=
  { b with enums := [], composites := [], dynamics := [] }

variable {types : HostTypes} {calls calls' : List Call}

theorem settings_foldl_called (types : HostTypes) (calls : List Call) (b : RegistryBuilder) :
    (calls.foldl (called types) b).settings
      = (calls.filter (·.sets)).foldl (called types) b.settings := by
  induction calls generalizing b with
  | nil => rfl
  | cons call rest ih =>
    rw [List.foldl_cons, ih]
    cases call <;> rfl

/-- Host types of one kind are listed in the order of the calls that register them. -/
theorem listed_foldl_called {α : Type} (part : RegistryBuilder → List α) (pick : Call → Option String)
    (declared : String → α)
    (one : ∀ b call,
      part (called types b call) = (pick call).elim (part b) fun host => part b ++ [declared host])
    (calls : List Call) (b : RegistryBuilder) :
    part (calls.foldl (called types) b) = part b ++ (calls.filterMap pick).map declared := by
  induction calls generalizing b with
  | nil => exact (List.append_nil _).symm
  | cons call rest ih =>
    rw [List.foldl_cons, ih, one, List.filterMap_cons]
    cases pick call with
    | none => rfl
    | some host => exact List.append_assoc _ _ _

theorem enums_assembled (types : HostTypes) (calls : List Call) :
    (assembled types calls).enums = (calls.filterMap (·.enumeration?)).map types.enumeration :=
  listed_foldl_called (·.enums) (·.enumeration?) types.enumeration (fun b call => by cases call <;> rfl)
    calls .empty

theorem composites_assembled (types : HostTypes) (calls : List Call) :
    (assembled types calls).composites = (calls.filterMap (·.composite?)).map types.composite :=
  listed_foldl_called (·.composites) (·.composite?) types.composite (fun b call => by cases call <;> rfl)
    calls .empty

theorem dynamics_assembled (types : HostTypes) (calls : List Call) :
    (assembled types calls).dynamics = (calls.filterMap (·.dynamic?)).map types.dynamic :=
  listed_foldl_called (·.dynamics) (·.dynamic?) types.dynamic (fun b call => by cases call <;> rfl)
    calls .empty

theorem declares_assembled (types : HostTypes) (calls : List Call) :
    types.Declares (assembled types calls) := by
  constructor
  · intro e he
    rw [enums_assembled] at he
    obtain ⟨host, -, rfl⟩ := List.mem_map.1 he
    rw [types.host_enumeration]
  · intro c hc
    rw [composites_assembled] at hc
    obtain ⟨host, -, rfl⟩ := List.mem_map.1 hc
    rw [types.host_composite]
  · intro d hd
    rw [dynamics_assembled] at hd
    obtain ⟨host, -, rfl⟩ := List.mem_map.1 hd
    rw [types.host_dynamic]

theorem SameCalls.reordered (same : SameCalls calls calls') (types : HostTypes) :
    (assembled types calls).Reordered (assembled types calls') := by
  have settings : (assembled types calls).settings = (assembled types calls').settings := by
    rw [assembled, assembled, settings_foldl_called, settings_foldl_called, same.settings]
  have schemas := congrArg RegistryBuilder.schemas settings
  have dynamicType := congrArg RegistryBuilder.dynamicType? settings
  have catalog := congrArg RegistryBuilder.catalog settings
  refine ⟨schemas, dynamicType, catalog, ?enums, ?composites, ?dynamics⟩
  case enums =>
    rw [enums_assembled, enums_assembled]
    exact (same.perm.filterMap _).map _
  case composites =>
    rw [composites_assembled, composites_assembled]
    exact (same.perm.filterMap _).map _
  case dynamics =>
    rw [dynamics_assembled, dynamics_assembled]
    exact (same.perm.filterMap _).map _

/-- **The order of registrations is irrelevant.** Let enumerations have distinct store names, record types
too, and let self describing types share no tag. Then whatever the catalogs are, two orders in which the
host types are registered, among each other and among the settings, lead to the same registry or both to
none: in memory, with what a source answers, and in whatever order a merge meets the names of types. -/
theorem registered_in_any_order (types : HostTypes) (same : SameCalls calls calls')
    (apart : (assembled types calls).Apart) :
    (assembled types calls).SameRegistries (assembled types calls') :=
  sameRegistries_of_reordered (declares_assembled types calls) apart (same.reordered types)

/-- Types that are called in the store as in the program, and have themselves for tags. -/
def namedAlike : HostTypes where
  enumeration host := ⟨host, default, host, [("calm", "Calm"), ("wild", "Wild")]⟩
  composite host := ⟨host, [("x", "int4"), ("label", "text")], host⟩
  dynamic host := ⟨host, [host]⟩
  host_enumeration _ := rfl
  host_composite _ := rfl
  host_dynamic _ := rfl

theorem apart_namedAlike (calls : List Call) : (assembled namedAlike calls).Apart := by
  have declares := declares_assembled namedAlike calls
  constructor
  · intro e he e' he' differ same
    rw [declares.enums e he, declares.enums e' he'] at differ same
    exact differ (congrArg _ same)
  · intro c hc c' hc' differ same
    rw [declares.composites c hc, declares.composites c' hc'] at differ same
    exact differ (congrArg _ same)
  · intro d hd d' hd' differ tag listed listed'
    rw [declares.dynamics d hd] at differ listed
    rw [declares.dynamics d' hd'] at differ listed'
    have own : tag = d.host := List.mem_singleton.1 listed
    have own' : tag = d'.host := List.mem_singleton.1 listed'
    rw [← own, ← own'] at differ
    exact differ rfl

/-- Host types of all kinds, one of which the catalog lists. -/
def mixed : List Call :=
  [.enumeration "mood", .dynamic "note", .composite "spot", .enumeration "sky",
    .catalog ⟨[("mood", ["wild", "odd", "calm"])], [], []⟩, .composite "place", .dynamic "memo"]

theorem registered_in_any_order_mixed :
    SameCalls mixed mixed.reverse ∧ (assembled namedAlike mixed).Apart
      ∧ ∃ r, (assembled namedAlike mixed).build = .ok r
        ∧ (assembled namedAlike mixed.reverse).build = .ok r := by
  have same : SameCalls mixed mixed.reverse := ⟨(List.reverse_perm mixed).symm, rfl⟩
  have apart := apart_namedAlike mixed
  refine ⟨same, apart, ?_⟩
  have succeeds : (assembled namedAlike mixed).build.isOk = true := by decide +kernel
  cases built : (assembled namedAlike mixed).build with
  | error e =>
    rw [built] at succeeds
    cases succeeds
  | ok r => exact ⟨r, rfl, ((registered_in_any_order namedAlike same apart).build r).1 built⟩

end RegistryBuilder

end TypedStore
