/-
Values of derived types come back from the cells they bind to, unless a name hides them. Parts of a
declared type are read back by name: a variant by its label or tag, a field by its attribute. Nothing
asks for these names to be distinct, so the first part of a name is the one that is found
(`roundTrips_iff_clear`). Fields are taken one after the other, and a field of a name that was taken
finds NULL (`convertFields_iff`), which is what it bound to or not.
-/
import Mathlib.Data.List.Basic
import TypedStore.Host.Conversion
import TypedStore.Host.Derivation
import TypedStore.Proofs.Expansion.Inversion

set_option autoImplicit false

namespace TypedStore

/-! ## 1. Derived declarations -/

namespace Derivation

/-- What an item declares at a path, once the types of its parts are known. -/
inductive Derives (item : Item) (path : String) : Declaration → Prop where
  | enumeration {d : EnumDeclaration} (ok : deriveEnum path item = .ok d) :
      Derives item path (.enumeration d)
  | record {typeName : String} {fields : List DerivedField} {declared : List FieldDeclaration}
      (ok : deriveRecord item = .ok (typeName, fields))
      (typed : List.Forall₂ (fun f d => ∃ type default?, d = DerivedField.declare f type default?)
        fields declared) :
      Derives item path (.record ⟨path, typeName, declared⟩)
  | dynamic {tags : List (String × String)} {variants : List PayloadDeclaration}
      (ok : deriveDynamic item = .ok tags) (typed : tags = variants.map fun v => (v.name, v.tag)) :
      Derives item path (.dynamic ⟨path, variants⟩)

/-- What is made of members one by one keeps what each step keeps. -/
theorem map_eq_of_mapM {α β γ : Type} {step : α → Except String β} {before : α → γ} {after : β → γ}
    (keeps : ∀ {x y}, step x = .ok y → after y = before x) {xs : List α} {ys : List β}
    (ok : xs.mapM step = .ok ys) : ys.map after = xs.map before := by
  induction xs generalizing ys with
  | nil =>
    cases ok
    rfl
  | cons x xs ih =>
    obtain ⟨y, rest, one, more, rfl⟩ := mapM_cons_eq_ok ok
    rw [List.map_cons, List.map_cons, keeps one, ih more]

theorem name_of_enumVariant {item : Item} {member : Member} {v : VariantDeclaration}
    (ok : enumVariant item member = .ok v) : v.name = member.ident := by
  unfold enumVariant at ok
  split at ok
  · cases ok
  · obtain ⟨label?, -, ok⟩ := bind_eq_ok_iff.1 ok
    cases ok
    rfl

theorem name_of_dynamicVariant {item : Item} {member : Member} {v : String × String}
    (ok : dynamicVariant item member = .ok v) : v.1 = member.ident := by
  unfold dynamicVariant at ok
  split at ok
  · cases ok
  · obtain ⟨tag?, -, ok⟩ := bind_eq_ok_iff.1 ok
    cases ok
    rfl

theorem names_of_deriveEnum {path : String} {item : Item} {d : EnumDeclaration}
    (ok : deriveEnum path item = .ok d) : d.variants.map (·.name) = item.members.map (·.ident) := by
  obtain ⟨settings, -, ok⟩ := bind_eq_ok_iff.1 ok
  obtain ⟨variants, each, ok⟩ := bind_eq_ok_iff.1 ok
  cases ok
  exact map_eq_of_mapM name_of_enumVariant each

theorem names_of_deriveDynamic {item : Item} {tags : List (String × String)}
    (ok : deriveDynamic item = .ok tags) : tags.map (·.1) = item.members.map (·.ident) :=
  map_eq_of_mapM name_of_dynamicVariant ok

end Derivation

/-! ## 2. The first of a name -/

section FirstOfName

variable {α : Type} (key : α → String) {before after : List α} {v : α}

theorem find?_key_of_not_mem (first : key v ∉ before.map key) :
    (before ++ v :: after).find? (fun u => key u == key v) = some v := by
  have none : before.find? (fun u => key u == key v) = none := by
    rw [List.find?_eq_none]
    intro u hu same
    exact first (List.mem_map.2 ⟨u, hu, beq_iff_eq.1 same⟩)
  rw [List.find?_append, none, Option.none_or, List.find?_cons, beq_self_eq_true]

theorem find?_key_of_mem (hidden : key v ∈ before.map key) (after : List α) :
    ∃ u ∈ before, (before ++ v :: after).find? (fun u => key u == key v) = some u := by
  obtain ⟨w, hw, same⟩ := List.mem_map.1 hidden
  have some : (before.find? fun u => key u == key v).isSome = true :=
    List.find?_isSome.2 ⟨w, hw, beq_iff_eq.2 same⟩
  obtain ⟨u, found⟩ := Option.isSome_iff_exists.1 some
  exact ⟨u, List.mem_of_find?_eq_some found, by rw [List.find?_append, found, Option.some_or]⟩

theorem takeWhile_key_of_not_mem (first : key v ∉ before.map key) :
    (before ++ v :: after).takeWhile (fun u => key u != key v) = before := by
  have others : ∀ u ∈ before, (key u != key v) = true := by
    intro u hu
    rw [bne_iff_ne]
    exact fun same => first (List.mem_map.2 ⟨u, hu, same⟩)
  rw [List.takeWhile_append_of_pos others, List.takeWhile_cons_of_neg (by simp), List.append_nil]

/-- Where no name is repeated, what is in front of a place has other names. -/
theorem key_not_mem_of_nodup {xs : List α} (distinct : (xs.map key).Nodup)
    (split : xs = before ++ v :: after) : key v ∉ before.map key := by
  rw [split, List.map_append, List.map_cons, List.nodup_append] at distinct
  exact fun h => distinct.2.2 _ h _ List.mem_cons_self rfl

end FirstOfName

/-! ## 3. Values that come back -/

/-- Reading the cell that a value binds to gives the value again. -/
def RoundTrips (ds : Declarations) (t : HostType) (x : HostValue) : Prop :=
  ds.convert t (ds.toValue t x) = .ok x

namespace Declaration

/-- Values of a declared type whose own parts come back: fields from the cells they bind to, payloads from
their documents. -/
inductive Holds (ds : Declarations) : Declaration → HostValue → Prop where
  | variant {d : EnumDeclaration} {v : VariantDeclaration} (listed : v ∈ d.variants) :
      Holds ds (.enumeration d) (.variant v.name)
  | record {d : RecordDeclaration} {values : List (String × HostValue)}
      (named : values.map (·.1) = d.fields.map (·.name))
      (parts : ∀ pair ∈ d.fields.zip values, RoundTrips ds pair.1.type pair.2.2) :
      Holds ds (.record d) (.record values)
  | tagged {d : DynamicDeclaration} {v : PayloadDeclaration} {payload : Payload} {document : Document}
      (listed : v ∈ d.variants) (written : payload.write = .ok document)
      (read : Payload.read v.type document = .ok payload) :
      Holds ds (.dynamic d) (.tagged v.name payload)

/-- No part of a value is hidden by an earlier part of its name. A field that is hidden is found as
NULL, which makes no difference where it binds to NULL. -/
def Clear (ds : Declarations) : Declaration → HostValue → Prop
  | .enumeration d, .variant name =>
    d.labelOfName name ∉ (d.variants.takeWhile (·.name != name)).map d.labelOf
  | .record d, .record values => (d.fields.zip values).Pairwise fun earlier later =>
      earlier.1.attr = later.1.attr → ds.toValue later.1.type later.2.2 = .null
  | .dynamic d, .tagged name _ =>
    d.tagOfName name ∉ (d.variants.takeWhile (·.name != name)).map (·.tag)
  | _, _ => False

/-- The names of variants, where there are any. -/
def variantNames : Declaration → List String
  | .enumeration d => d.variants.map (·.name)
  | .record _ => []
  | .dynamic d => d.variants.map (·.name)

/-- The names by which parts are read back, all different. -/
def Distinct : Declaration → Prop
  | .enumeration d => (d.variants.map d.labelOf).Nodup
  | .record d => (d.fields.map (·.attr)).Nodup
  | .dynamic d => d.tags.Nodup

instance : DecidablePred Distinct
  | .enumeration d => inferInstanceAs (Decidable (d.variants.map d.labelOf).Nodup)
  | .record d => inferInstanceAs (Decidable (d.fields.map (·.attr)).Nodup)
  | .dynamic d => inferInstanceAs (Decidable d.tags.Nodup)

end Declaration

/-! ## 4. Variants -/

section Variants

variable {ds : Declarations} {path : String}

theorem labelOfName_eq {d : EnumDeclaration} {before after : List VariantDeclaration}
    {v : VariantDeclaration} (split : d.variants = before ++ v :: after)
    (fresh : v.name ∉ before.map (·.name)) : d.labelOfName v.name = d.labelOf v := by
  rw [EnumDeclaration.labelOfName, split, find?_key_of_not_mem VariantDeclaration.name fresh]
  rfl

theorem tagOfName_eq {d : DynamicDeclaration} {before after : List PayloadDeclaration}
    {v : PayloadDeclaration} (split : d.variants = before ++ v :: after)
    (fresh : v.name ∉ before.map (·.name)) : d.tagOfName v.name = v.tag := by
  rw [DynamicDeclaration.tagOfName, split, find?_key_of_not_mem PayloadDeclaration.name fresh]
  rfl

/-- A variant comes back if it is the first of its label. -/
theorem roundTrips_variant {d : EnumDeclaration} {before after : List VariantDeclaration}
    {v : VariantDeclaration} (declared : ds.find path = some (.enumeration d))
    (split : d.variants = before ++ v :: after) (fresh : v.name ∉ before.map (·.name)) :
    RoundTrips ds (.declared path) (.variant v.name) ↔ d.labelOf v ∉ before.map d.labelOf := by
  rw [RoundTrips, Declarations.toValue, Declarations.convert]
  simp only [declared, EnumDeclaration.convert, pure, Except.pure, bind, Except.bind,
    labelOfName_eq split fresh, EnumDeclaration.ofLabel?]
  rw [split]
  by_cases hidden : d.labelOf v ∈ before.map d.labelOf
  · obtain ⟨u, hu, found⟩ := find?_key_of_mem d.labelOf hidden after
    rw [found]
    refine iff_of_false (fun same => ?_) (not_not_intro hidden)
    -- the variant that is found has another name
    have other : u.name = v.name := by simpa using same
    exact fresh (List.mem_map.2 ⟨u, hu, other⟩)
  · rw [find?_key_of_not_mem d.labelOf hidden]
    exact iff_of_true rfl hidden

/-- A self describing value comes back if its variant is the first of its tag. -/
theorem roundTrips_tagged {d : DynamicDeclaration} {before after : List PayloadDeclaration}
    {v : PayloadDeclaration} {payload : Payload} {document : Document}
    (declared : ds.find path = some (.dynamic d)) (split : d.variants = before ++ v :: after)
    (fresh : v.name ∉ before.map (·.name)) (written : payload.write = .ok document)
    (read : Payload.read v.type document = .ok payload) :
    RoundTrips ds (.declared path) (.tagged v.name payload) ↔ v.tag ∉ before.map (·.tag) := by
  rw [RoundTrips, Declarations.toValue, Declarations.convert]
  simp only [declared, DynamicDeclaration.convert, DynamicDeclaration.ofPayload, bind, Except.bind,
    tagOfName_eq split fresh, Declarations.contentOf, written, DynamicContent.document]
  rw [split]
  by_cases hidden : v.tag ∈ before.map (·.tag)
  · obtain ⟨u, hu, found⟩ := find?_key_of_mem PayloadDeclaration.tag hidden after
    rw [found]
    refine iff_of_false (fun same => ?_) (not_not_intro hidden)
    dsimp only at same
    split at same
    · -- whatever the payload is read as, the variant has another name
      have other := (HostValue.tagged.inj (Except.ok.inj same)).1
      exact fresh (List.mem_map.2 ⟨u, hu, other⟩)
    · cases same
  · rw [find?_key_of_not_mem PayloadDeclaration.tag hidden]
    dsimp only
    rw [read]
    exact iff_of_true rfl hidden

end Variants

/-! ## 5. Fields -/

section Fields

variable {ds : Declarations}

/-- Only optional types accept NULL, and they make of it what binds to NULL. -/
theorem toValue_of_convert_null {t : HostType} {x : HostValue} (ok : ds.convert t .null = .ok x) :
    ds.toValue t x = .null := by
  cases t with
  | scalar s =>
    rw [Declarations.convert] at ok
    obtain ⟨cell, accepted, -⟩ := map_eq_ok ok
    cases s <;> cases accepted
  | optional inner =>
    rw [Declarations.convert] at ok
    cases ok
    rw [Declarations.toValue]
  | list item =>
    rw [Declarations.convert] at ok
    · cases ok
    · intro items same
      cases same
  | declared path =>
    rw [Declarations.convert] at ok
    split at ok
    · cases ok
    · cases ok
    · cases ok
    · cases ok

theorem fieldValue?_of_takeField? {name : String} {v : Value} {fields left : List (String × Value)}
    (taken : takeField? name fields = some (v, left)) : fieldValue? name fields = some v := by
  obtain ⟨v', found, same⟩ := Option.map_eq_some_iff.1 taken
  rw [found, (Prod.mk.inj same).1]

/-- Every field is found as NULL. -/
def Blank (fields : List (String × Value)) : Prop :=
  ∀ field ∈ fields, fieldValue? field.1 fields = some .null

/-- A name that was taken is found as NULL, and taking it again changes nothing. -/
theorem Blank.takeField? {name : String} {done : List (String × Value)} (blank : Blank done)
    (mem : name ∈ done.map (·.1)) (after : List (String × Value)) :
    TypedStore.takeField? name (done ++ after) = some (.null, done ++ after) := by
  obtain ⟨field, hfield, rfl⟩ := List.mem_map.1 mem
  have found := blank field hfield
  -- whatever is behind the first field of the name
  clear blank mem hfield
  induction done with
  | nil => cases found
  | cons first rest ih =>
    obtain ⟨k, v⟩ := first
    rw [TypedStore.takeField?, List.cons_append, fieldValue?, blankField]
    rw [fieldValue?] at found
    by_cases here : k = field.1
    · rw [if_pos here] at found ⊢
      cases found
      rw [if_pos here]
      rfl
    · rw [if_neg here] at found ⊢
      rw [if_neg here]
      obtain ⟨v', later, same⟩ := Option.map_eq_some_iff.1 (ih found)
      obtain ⟨rfl, left⟩ := Prod.mk.inj same
      rw [later, left]
      rfl

/-- A field may join if it is NULL or hidden. -/
theorem Blank.concat {name : String} {v : Value} {done : List (String × Value)} (blank : Blank done)
    (joins : name ∉ done.map (·.1) → v = .null) : Blank (done ++ [(name, v)]) := by
  intro field hfield
  by_cases hidden : field.1 ∈ done.map (·.1)
  · exact fieldValue?_of_takeField? (blank.takeField? hidden _)
  · -- only the last field has a name of its own
    have last : field = (name, v) := by
      rcases List.mem_append.1 hfield with inside | last
      · exact absurd (List.mem_map_of_mem inside) hidden
      · exact List.mem_singleton.1 last
    subst last
    rw [joins hidden]
    exact fieldValue?_of_takeField? (takeField?_append fun other ho same =>
      hidden (List.mem_map.2 ⟨other, ho, same⟩))

theorem roundTrips_null_iff {t : HostType} {x : HostValue} (parts : RoundTrips ds t x) :
    ds.convert t .null = .ok x ↔ ds.toValue t x = .null :=
  ⟨toValue_of_convert_null, fun null => null ▸ parts⟩

/-- The first field is read from what is taken for it, the others from what is left. -/
theorem convertFields_cons {typeName : String} {f : FieldDeclaration} {others : List FieldDeclaration}
    {v : Value} {fields left : List (String × Value)} {x : HostValue} {rest : List (String × HostValue)}
    (taken : takeField? f.attr fields = some (v, left)) :
    ds.convertFields typeName (f :: others) fields = .ok ((f.name, x) :: rest) ↔
      ds.convert f.type v = .ok x ∧ ds.convertFields typeName others left = .ok rest := by
  rw [Declarations.convertFields]
  split
  · rename_i same
    rw [taken] at same
    cases same
    constructor
    · intro ok
      obtain ⟨first, one, ok⟩ := bind_eq_ok_iff.1 ok
      obtain ⟨more, behind, ok⟩ := bind_eq_ok_iff.1 ok
      cases ok
      exact ⟨one, behind⟩
    · rintro ⟨one, behind⟩
      rw [one]
      simp only [bind, Except.bind, behind]
      rfl
  · rename_i absent
    rw [taken] at absent
    cases absent

/-- Reading fields behind those that are `done` gives them back where none that is hidden, by one that is
done or by one in front, binds to anything but NULL. The induction is on the fields that are left; each
of them joins those that are done, without its value if it was found. -/
theorem convertFields_iff (typeName : String) {declared : List FieldDeclaration}
    {values : List (String × HostValue)} {done : List (String × Value)}
    (named : values.map (·.1) = declared.map (·.name))
    (parts : ∀ pair ∈ declared.zip values, RoundTrips ds pair.1.type pair.2.2) (blank : Blank done) :
    ds.convertFields typeName declared (done ++ ds.toFields declared values) = .ok values ↔
      (∀ pair ∈ declared.zip values, pair.1.attr ∈ done.map (·.1) →
        ds.toValue pair.1.type pair.2.2 = .null)
      ∧ (declared.zip values).Pairwise fun earlier later =>
        earlier.1.attr = later.1.attr → ds.toValue later.1.type later.2.2 = .null := by
  induction declared generalizing values done with
  | nil =>
    obtain rfl := List.map_eq_nil_iff.1 named
    rw [Declarations.convertFields]
    exact iff_of_true rfl ⟨fun pair hp => absurd hp List.not_mem_nil, List.Pairwise.nil⟩
  | cons f others ih =>
    obtain ⟨⟨name, x⟩, rest, rfl, own, names⟩ := List.map_eq_cons_iff.1 named
    obtain rfl : name = f.name := own
    rw [List.zip_cons_cons, List.forall_mem_cons] at parts
    rw [List.zip_cons_cons, List.forall_mem_cons, List.pairwise_cons, Declarations.toFields]
    -- what is behind the first field is read with the first field done
    have behind : ∀ w, (f.attr ∉ done.map (·.1) → w = .null) →
        (ds.convertFields typeName others (done ++ (f.attr, w) :: ds.toFields others rest) = .ok rest ↔
          ((∀ pair ∈ others.zip rest, pair.1.attr ∈ done.map (·.1) →
            ds.toValue pair.1.type pair.2.2 = .null)
          ∧ ∀ pair ∈ others.zip rest, f.attr = pair.1.attr → ds.toValue pair.1.type pair.2.2 = .null)
          ∧ (others.zip rest).Pairwise fun earlier later =>
            earlier.1.attr = later.1.attr → ds.toValue later.1.type later.2.2 = .null) := by
      intro w joins
      have step := ih names parts.2 (blank.concat joins)
      rw [List.append_assoc, List.singleton_append] at step
      rw [step]
      simp only [List.map_append, List.map_cons, List.map_nil, List.mem_append, List.mem_singleton,
        eq_comm, or_imp, imp_and, forall_and]
    by_cases hidden : f.attr ∈ done.map (·.1)
    · rw [convertFields_cons (blank.takeField? hidden _), roundTrips_null_iff parts.1,
        behind _ fun new => absurd hidden new]
      constructor
      · rintro ⟨null, ⟨done, front⟩, later⟩
        exact ⟨⟨fun _ => null, done⟩, front, later⟩
      · rintro ⟨⟨null, done⟩, front, later⟩
        exact ⟨null hidden, ⟨done, front⟩, later⟩
    · have own : ∀ field ∈ done, field.1 ≠ f.attr :=
        fun field hf same => hidden (List.mem_map.2 ⟨field, hf, same⟩)
      rw [convertFields_cons (takeField?_append own), behind _ fun _ => rfl]
      constructor
      · rintro ⟨-, ⟨done, front⟩, later⟩
        exact ⟨⟨fun mem => absurd mem hidden, done⟩, front, later⟩
      · rintro ⟨⟨-, done⟩, front, later⟩
        exact ⟨parts.1, ⟨done, front⟩, later⟩

/-- A record comes back if the fields that are hidden bind to NULL. -/
theorem roundTrips_record {path : String} {d : RecordDeclaration}
    {values : List (String × HostValue)} (declared : ds.find path = some (.record d))
    (named : values.map (·.1) = d.fields.map (·.name))
    (parts : ∀ pair ∈ d.fields.zip values, RoundTrips ds pair.1.type pair.2.2) :
    RoundTrips ds (.declared path) (.record values) ↔
      (d.fields.zip values).Pairwise fun earlier later =>
        earlier.1.attr = later.1.attr → ds.toValue later.1.type later.2.2 = .null := by
  have nothingDone : Blank [] := fun field hf => absurd hf List.not_mem_nil
  have read := convertFields_iff d.typeName named parts nothingDone
  rw [List.nil_append] at read
  refine Iff.trans ?_ (read.trans (and_iff_right fun pair _ mem => absurd mem List.not_mem_nil))
  rw [RoundTrips, Declarations.toValue, Declarations.convert]
  simp only [declared]
  -- what is reported around a failing field is no success either
  cases ds.convertFields d.typeName d.fields (ds.toFields d.fields values) with
  | ok found => simp only [Except.ok.injEq, HostValue.record.injEq]
  | error e => exact iff_of_false (fun ok => by cases ok) fun ok => by cases ok

end Fields

/-! ## 6. Derived types -/

namespace Declaration

variable {ds : Declarations} {declaration : Declaration} {x : HostValue}

/-- A value comes back if nothing of it is hidden, provided that variants have different names. -/
theorem roundTrips_iff_clear {path : String} (declared : ds.find path = some declaration)
    (holds : declaration.Holds ds x)
    (names : declaration.variantNames.Nodup) :
    RoundTrips ds (.declared path) x ↔ declaration.Clear ds x := by
  cases holds with
  | @variant d v listed =>
    obtain ⟨before, after, split⟩ := List.append_of_mem listed
    have fresh := key_not_mem_of_nodup VariantDeclaration.name names split
    rw [roundTrips_variant declared split fresh, Clear, labelOfName_eq split fresh, split,
      takeWhile_key_of_not_mem VariantDeclaration.name fresh]
  | record named parts => exact roundTrips_record declared named parts
  | @tagged d v payload document listed written read =>
    obtain ⟨before, after, split⟩ := List.append_of_mem listed
    have fresh := key_not_mem_of_nodup PayloadDeclaration.name names split
    rw [roundTrips_tagged declared split fresh written read, Clear, tagOfName_eq split fresh, split,
      takeWhile_key_of_not_mem PayloadDeclaration.name fresh]

/-- Where all names are different, nothing is hidden. -/
theorem Distinct.clear (distinct : declaration.Distinct) (holds : declaration.Holds ds x)
    (names : declaration.variantNames.Nodup) : declaration.Clear ds x := by
  cases holds with
  | @variant d v listed =>
    obtain ⟨before, after, split⟩ := List.append_of_mem listed
    have fresh := key_not_mem_of_nodup VariantDeclaration.name names split
    rw [Clear, labelOfName_eq split fresh, split, takeWhile_key_of_not_mem VariantDeclaration.name fresh]
    exact key_not_mem_of_nodup d.labelOf distinct split
  | @record d values named parts =>
    have asMany : d.fields.length = values.length := by
      rw [← List.length_map FieldDeclaration.name, ← named, List.length_map]
    have zipped : ((d.fields.zip values).map (·.1)).Pairwise fun f g => f.attr ≠ g.attr := by
      rw [List.map_fst_zip (Nat.le_of_eq asMany)]
      exact List.pairwise_map.1 distinct
    exact (List.pairwise_map.1 zipped).imp fun differ same => absurd same differ
  | @tagged d v payload document listed written read =>
    obtain ⟨before, after, split⟩ := List.append_of_mem listed
    have fresh := key_not_mem_of_nodup PayloadDeclaration.name names split
    rw [Clear, tagOfName_eq split fresh, split, takeWhile_key_of_not_mem PayloadDeclaration.name fresh]
    exact key_not_mem_of_nodup PayloadDeclaration.tag distinct split

end Declaration

namespace Derivation

variable {item : Item} {path : String} {declaration : Declaration} {ds : Declarations} {x : HostValue}

/-- Variants keep the identifiers that the item gives them. -/
theorem Derives.variantNames (derives : Derives item path declaration)
    (idents : (item.members.map (·.ident)).Nodup) : declaration.variantNames.Nodup := by
  cases derives with
  | enumeration ok =>
    rw [Declaration.variantNames, names_of_deriveEnum ok]
    exact idents
  | record ok typed => exact List.Pairwise.nil
  | @dynamic tags variants ok typed =>
    have names : variants.map (·.name) = item.members.map (·.ident) := by
      rw [← names_of_deriveDynamic ok, typed, List.map_map]
      rfl
    rw [Declaration.variantNames, names]
    exact idents

/-- **Derived types round-trip where nothing is hidden.** Whatever identifiers an item has and whatever
its attributes name them, a value whose parts come back comes back itself if labels, attributes or tags
are all different; and if they are not, it does so exactly where no part of it is hidden. -/
theorem roundTrips_derived (derives : Derives item path declaration)
    (idents : (item.members.map (·.ident)).Nodup) (declared : ds.find path = some declaration)
    (holds : declaration.Holds ds x) :
    (declaration.Distinct → RoundTrips ds (.declared path) x)
      ∧ (RoundTrips ds (.declared path) x ↔ declaration.Clear ds x) := by
  have exactly := declaration.roundTrips_iff_clear declared holds (derives.variantNames idents)
  exact ⟨fun distinct => exactly.2 (distinct.clear holds (derives.variantNames idents)), exactly⟩

/-- An enumeration, a record and a self describing type, with names of their own and a field that starts
with an underscore. -/
def moodItem : Item :=
  ⟨"Mood", [⟨"Calm", none, [.arguments [⟨"name", .text "it's calm"⟩]]⟩, ⟨"Wild", none, []⟩],
    [.arguments [⟨"name", .text "mood"⟩, ⟨"rename_all", .text "verbatim"⟩]]⟩

def spotItem : Item :=
  ⟨"Spot", [⟨"_mood", none, []⟩, ⟨"depth", none, [.arguments [⟨"name", .text "metres"⟩]]⟩],
    [.arguments [⟨"name", .text "spot"⟩]]⟩

def playItem : Item :=
  ⟨"Play", [⟨"Watching", some 1, [.arguments [⟨"tag", .text "tv"⟩]]⟩,
    ⟨"Listening", some 1, [.arguments [⟨"tag", .text "radio"⟩]]⟩], []⟩

def mood : EnumDeclaration := ⟨"Mood", "mood", .verbatim, [⟨"Calm", some "it's calm"⟩, ⟨"Wild", none⟩]⟩

def spot : RecordDeclaration :=
  ⟨"Spot", "spot", [⟨"_mood", "mood", .declared "Mood", none, none⟩,
    ⟨"depth", "metres", .optional (.scalar .int32), none, none⟩]⟩

def play : DynamicDeclaration := ⟨"Play", [⟨"Watching", "tv", .int32⟩, ⟨"Listening", "radio", .text⟩]⟩

/-- What the items declare together. -/
def declarations : Declarations := [.enumeration mood, .record spot, .dynamic play]

theorem roundTrips_derived_declarations :
    RoundTrips declarations (.declared "Mood") (.variant "Wild")
      ∧ RoundTrips declarations (.declared "Spot")
        (.record [("_mood", .variant "Wild"), ("depth", .present (.scalar (.int32 7)))])
      ∧ RoundTrips declarations (.declared "Play") (.tagged "Listening" (.text "jazz")) := by
  have derivesMood : Derives moodItem "Mood" (.enumeration mood) := .enumeration rfl
  have derivesSpot : Derives spotItem "Spot" (.record spot) :=
    .record rfl (.cons ⟨_, _, rfl⟩ (.cons ⟨_, _, rfl⟩ .nil))
  have derivesPlay : Derives playItem "Play" (.dynamic play) := .dynamic rfl rfl
  have depth : RoundTrips declarations (.optional (.scalar .int32)) (.present (.scalar (.int32 7))) := by
    rw [RoundTrips, Declarations.toValue, Declarations.toValue, Declarations.convert,
      Declarations.convert]
    rfl
  have variant : Declaration.Holds declarations (.enumeration mood) (.variant "Wild") :=
    .variant (v := ⟨"Wild", none⟩) (List.mem_cons_of_mem _ List.mem_cons_self)
  have wild : RoundTrips declarations (.declared "Mood") (.variant "Wild") :=
    (roundTrips_derived derivesMood (by decide) rfl variant).1 (by decide)
  have fields : Declaration.Holds declarations (.record spot)
      (.record [("_mood", .variant "Wild"), ("depth", .present (.scalar (.int32 7)))]) :=
    .record rfl (List.forall_mem_cons.2 ⟨wild, List.forall_mem_singleton.2 depth⟩)
  have payload : Declaration.Holds declarations (.dynamic play) (.tagged "Listening" (.text "jazz")) :=
    .tagged (v := ⟨"Listening", "radio", .text⟩) (List.mem_cons_of_mem _ List.mem_cons_self) rfl
      (by rw [Payload.read])
  exact ⟨wild, (roundTrips_derived derivesSpot (by decide) rfl fields).1 (by decide),
    (roundTrips_derived derivesPlay (by decide) rfl payload).1 (by decide)⟩

/-- A record with two fields of one attribute, as an underscore in front does not count; an enumeration
with two variants of one label and a self describing type with two of one tag. -/
def twinsItem : Item :=
  ⟨"Twins", [⟨"a", none, []⟩, ⟨"_a", none, []⟩], [.arguments [⟨"name", .text "twins"⟩]]⟩

def switchItem : Item :=
  ⟨"Switch", [⟨"Lit", none, [.arguments [⟨"name", .text "ON"⟩]]⟩,
    ⟨"ON", none, []⟩], [.arguments [⟨"name", .text "switch"⟩, ⟨"rename_all", .text "verbatim"⟩]]⟩

def channelItem : Item :=
  ⟨"Channel", [⟨"Small", some 1, [.arguments [⟨"tag", .text "n"⟩]]⟩,
    ⟨"Large", some 1, [.arguments [⟨"tag", .text "n"⟩]]⟩], []⟩

def twins : RecordDeclaration :=
  ⟨"Twins", "twins", [⟨"a", "a", .optional (.scalar .int32), none, none⟩,
    ⟨"_a", "a", .optional (.scalar .int32), none, none⟩]⟩

def switch : EnumDeclaration := ⟨"Switch", "switch", .verbatim, [⟨"Lit", some "ON"⟩, ⟨"ON", none⟩]⟩

def channel : DynamicDeclaration := ⟨"Channel", [⟨"Small", "n", .int32⟩, ⟨"Large", "n", .int64⟩]⟩

def masked : Declarations := [.record twins, .enumeration switch, .dynamic channel]

def bothSet : HostValue :=
  .record [("a", .present (.scalar (.int32 1))), ("_a", .present (.scalar (.int32 2)))]

/-- The second field is lost, as its attribute was taken for the first, although every value of the two
fields' type comes back. The second variant comes back as the first. -/
theorem not_roundTrips_masked :
    (Derives twinsItem "Twins" (.record twins)
        ∧ (∀ n, RoundTrips masked (.optional (.scalar .int32)) (.present (.scalar (.int32 n))))
        ∧ RoundTrips masked (.optional (.scalar .int32)) .absent
        ∧ masked.convert (.declared "Twins") (masked.toValue (.declared "Twins") bothSet)
          = .ok (.record [("a", .present (.scalar (.int32 1))), ("_a", .absent)])
        ∧ ¬ RoundTrips masked (.declared "Twins") bothSet)
      ∧ (Derives switchItem "Switch" (.enumeration switch)
        ∧ ¬ RoundTrips masked (.declared "Switch") (.variant "ON"))
      ∧ Derives channelItem "Channel" (.dynamic channel)
        ∧ (Payload.int 5).write.bind (Payload.read .int64) = .ok (.int 5)
        ∧ ¬ RoundTrips masked (.declared "Channel") (.tagged "Large" (.int 5)) := by
  have back : masked.convert (.declared "Twins") (masked.toValue (.declared "Twins") bothSet)
      = .ok (.record [("a", .present (.scalar (.int32 1))), ("_a", .absent)]) := by cbv
  refine ⟨⟨.record rfl (.cons ⟨_, _, rfl⟩ (.cons ⟨_, _, rfl⟩ .nil)), fun n => ?_, ?_, back, ?_⟩,
    ⟨.enumeration rfl, ?_⟩, .dynamic rfl rfl, ?_, ?_⟩
  · rw [RoundTrips, Declarations.toValue, Declarations.toValue, Declarations.convert,
      Declarations.convert]
    rfl
  · rw [RoundTrips, Declarations.toValue, Declarations.convert]
    rfl
  · rw [RoundTrips, back]
    intro same
    cases same
  · have hidden : switch.labelOf ⟨"ON", none⟩ ∈ [⟨"Lit", some "ON"⟩].map switch.labelOf := by decide
    exact fun comesBack => (roundTrips_variant rfl (v := ⟨"ON", none⟩) rfl (by decide)).1 comesBack hidden
  · cbv
  · have five : Payload.read .int64 (.number (.integer 5)) = .ok (.int 5) := by cbv
    have hidden : "n" ∈ [PayloadDeclaration.mk "Small" "n" .int32].map (·.tag) := by decide
    exact fun comesBack =>
      (roundTrips_tagged rfl (v := ⟨"Large", "n", .int64⟩) rfl (by decide) rfl five).1 comesBack hidden

end Derivation

end TypedStore
