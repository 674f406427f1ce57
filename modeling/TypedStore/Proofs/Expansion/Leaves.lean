/-
The leaves of a value. A structured value has scalar leaves, met from left to right and depth first,
attributes in the order of their type. Writing a value binds its leaves, in this order, under the names
of its fragment, none of which was in use, and what the names and types of a registry have in common
the names and types of a fragment have too.
-/
import TypedStore.Proofs.Expansion.Derivation

set_option autoImplicit false

namespace TypedStore

open TypedStore.Text

/-! ## 1. Names of fragments -/

namespace Fragment

mutual

/-- The names of the parameters of a fragment from left to right. -/
def names : Fragment → List String
  | .parameter name _ => [name]
  | .emptyArray _ => []
  | .array items => itemNames items
  | .row items _ => itemNames items

/-- The names of the parameters of the items of a constructor. -/
def itemNames : List Fragment → List String
  | [] => []
  | f :: rest => f.names ++ itemNames rest

end

mutual

/-- Every parameter of a fragment is named as `P` says, every type as `Q` says, and constructors of
arrays have items. -/
def All (P Q : String → Prop) : Fragment → Prop
  | .parameter name cast? => P name ∧ ∀ cast ∈ cast?, Q cast
  | .emptyArray cast? => ∀ cast ∈ cast?, Q cast
  | .array items => items ≠ [] ∧ AllItems P Q items
  | .row items typeName => AllItems P Q items ∧ Q typeName

/-- Every parameter and every type of the items of a constructor. -/
def AllItems (P Q : String → Prop) : List Fragment → Prop
  | [] => True
  | f :: rest => f.All P Q ∧ AllItems P Q rest

end

mutual

theorem All.of_mem_names {P Q : String → Prop} (f : Fragment) (h : f.All P Q) :
    ∀ n ∈ f.names, P n := by
  match f with
  | .parameter name _ =>
    intro n hn
    rw [List.mem_singleton.1 hn]
    exact h.1
  | .emptyArray _ =>
    intro n hn
    exact absurd hn List.not_mem_nil
  | .array items => exact AllItems.of_mem_itemNames items h.2
  | .row items _ => exact AllItems.of_mem_itemNames items h.1
termination_by structural f

theorem AllItems.of_mem_itemNames {P Q : String → Prop} (items : List Fragment)
    (h : AllItems P Q items) : ∀ n ∈ itemNames items, P n := by
  match items with
  | [] =>
    intro n hn
    exact absurd hn List.not_mem_nil
  | f :: rest =>
    intro n hn
    rcases List.mem_append.1 hn with hn | hn
    · exact All.of_mem_names f h.1 n hn
    · exact AllItems.of_mem_itemNames rest h.2 n hn
termination_by structural items

end

mutual

/-- What holds of the names of a fragment holds of its parameters. -/
theorem All.of_names {P P' Q : String → Prop} (f : Fragment) (h : f.All P Q)
    (named : ∀ n ∈ f.names, P' n) : f.All P' Q := by
  match f with
  | .parameter name _ => exact ⟨named name (List.mem_singleton_self name), h.2⟩
  | .emptyArray _ => exact h
  | .array items => exact ⟨h.1, AllItems.of_names items h.2 named⟩
  | .row items _ => exact ⟨AllItems.of_names items h.1 named, h.2⟩
termination_by structural f

theorem AllItems.of_names {P P' Q : String → Prop} (items : List Fragment) (h : AllItems P Q items)
    (named : ∀ n ∈ itemNames items, P' n) : AllItems P' Q items := by
  match items with
  | [] => exact trivial
  | f :: rest =>
    exact ⟨All.of_names f h.1 fun n hn => named n (List.mem_append_left _ hn),
      AllItems.of_names rest h.2 fun n hn => named n (List.mem_append_right _ hn)⟩
termination_by structural items

end

end Fragment

namespace Expansion

/-! ## 2. Leaves of values -/

mutual

/-- The scalar leaves of a value from left to right. -/
def leavesOf (r : Registry) (value : Value) : List Value :=
  match value with
  | .array items => leavesOfItems r items
  | .record typeName fields =>
    match r.composites.get? typeName with
    | some definition => leavesOfAttributes r definition.attributes fields
    | none => []
  | .dynamic tag (.payload document) => [.text tag, .document document]
  | .dynamic _ (.failure _) => []
  | v => [v]
termination_by (value.weight, 0)
decreasing_by
  all_goals simp only [Prod.lex_def, Value.weight]; omega

/-- The leaves of the items of an array. -/
def leavesOfItems (r : Registry) (items : List Value) : List Value :=
  match items with
  | [] => []
  | v :: rest => leavesOf r v ++ leavesOfItems r rest
termination_by (Value.itemsWeight items, 0)
decreasing_by
  all_goals simp only [Prod.lex_def, Value.itemsWeight]; omega

/-- The leaves of the fields of a record in the order of the attributes. -/
def leavesOfAttributes (r : Registry) (attributes : List (String × String))
    (fields : List (String × Value)) : List Value :=
  match attributes with
  | [] => []
  | (attr, _) :: others =>
    match _taken : takeField? attr fields with
    | none => []
    | some (v, left) => leavesOf r v ++ leavesOfAttributes r others left
termination_by (Value.fieldsWeight fields, attributes.length)
decreasing_by
  all_goals
    have := weight_takeField? _taken
    simp only [Prod.lex_def, List.length_cons]
    omega

end

/-- The leaves of what there is to write. -/
def Task.leaves (r : Registry) : Task → List Value
  | .value _ _ v => leavesOf r v
  | .items _ _ vs => leavesOfItems r vs
  | .attributes _ listed fields => leavesOfAttributes r listed fields

theorem leavesOf_scalar (r : Registry) {v : Value} (plain : v.needsExpansion = false) :
    leavesOf r v = [v] := by
  cases v with
  | array | record | dynamic => cases plain
  | _ => simp [leavesOf]

theorem leavesOf_array (r : Registry) (vs : List Value) :
    leavesOf r (.array vs) = leavesOfItems r vs := by rw [leavesOf]

theorem leavesOf_record {r : Registry} {typeName : String} {definition : CompositeDefinition}
    (known : r.compositeDefinition typeName = .ok definition) (fields : List (String × Value)) :
    leavesOf r (.record typeName fields) = leavesOfAttributes r definition.attributes fields := by
  unfold Registry.compositeDefinition at known
  cases found : r.composites.get? typeName with
  | none => rw [found] at known; cases known
  | some d =>
    rw [found] at known
    cases known
    rw [leavesOf, found]

theorem leavesOf_dynamic (r : Registry) (tag : String) {content : DynamicContent}
    {document : Document} (carried : content.document = .ok document) :
    leavesOf r (.dynamic tag content) = [.text tag, .document document] := by
  cases content with
  | payload d => cases carried; rw [leavesOf]
  | failure message => cases carried

theorem leavesOfItems_cons (r : Registry) (v : Value) (vs : List Value) :
    leavesOfItems r (v :: vs) = leavesOf r v ++ leavesOfItems r vs := by rw [leavesOfItems]

theorem leavesOfAttributes_cons {r : Registry} {attr attrType : String}
    {others : List (String × String)} {fields left : List (String × Value)} {v : Value}
    (taken : takeField? attr fields = some (v, left)) :
    leavesOfAttributes r ((attr, attrType) :: others) fields
      = leavesOf r v ++ leavesOfAttributes r others left := by
  rw [leavesOfAttributes]
  split
  · rename_i none
    rw [taken] at none
    cases none
  · rename_i found
    rw [taken] at found
    cases found
    rfl

/-- No leaf is structured. -/
theorem Writes.needsExpansion_of_mem {r : Registry} {task : Task} {name : String}
    {leaves leaves' : Leaves} {fragments : List Fragment}
    (h : Writes r task name leaves fragments leaves') {v : Value} (hv : v ∈ task.leaves r) :
    v.needsExpansion = false := by
  induction h with
  | scalar plain =>
    have scalar := needsExpansion_of_not_isSubstituted plain
    rw [Task.leaves, leavesOf_scalar r scalar, List.mem_singleton] at hv
    exact hv ▸ scalar
  | enumeration =>
    rw [Task.leaves, leavesOf_scalar r rfl, List.mem_singleton] at hv
    exact hv ▸ rfl
  | emptyArray =>
    rw [Task.leaves, leavesOf_array, leavesOfItems] at hv
    cases hv
  | array _ ih =>
    rw [Task.leaves, leavesOf_array] at hv
    exact ih hv
  | record known _ _ ih =>
    rw [Task.leaves, leavesOf_record known] at hv
    exact ih hv
  | dynamic _ carried =>
    rw [Task.leaves, leavesOf_dynamic r _ carried] at hv
    rcases List.mem_cons.1 hv with rfl | hv
    · rfl
    · rw [List.mem_singleton.1 hv]
      rfl
  | noItems =>
    rw [Task.leaves, leavesOfItems] at hv
    cases hv
  | nextItem _ _ first rest =>
    rw [Task.leaves, leavesOfItems_cons] at hv
    exact (List.mem_append.1 hv).elim first rest
  | noAttributes =>
    rw [Task.leaves, leavesOfAttributes] at hv
    cases hv
  | nextAttribute taken _ _ first rest =>
    rw [Task.leaves, leavesOfAttributes_cons taken] at hv
    exact (List.mem_append.1 hv).elim first rest

/-! ## 3. Leaves are bound in order -/

theorem fresh_tag_ne_payload (leaves : Leaves) (name : String) :
    leaves.fresh (attributePath name dynamicTagAttribute)
      ≠ leaves.fresh (attributePath name dynamicPayloadAttribute) := by
  intro same
  obtain ⟨j, tag, -⟩ := leaves.fresh_eq (attributePath name dynamicTagAttribute)
  obtain ⟨k, payload, -⟩ := leaves.fresh_eq (attributePath name dynamicPayloadAttribute)
  obtain ⟨tail, tagParts, -⟩ := Leaves.candidate_eq (attributePath name dynamicTagAttribute) j
  obtain ⟨tail', payloadParts, -⟩ := Leaves.candidate_eq (attributePath name dynamicPayloadAttribute) k
  rw [tag, payload, tagParts, payloadParts] at same
  have chars := congrArg String.toList same
  simp only [attributePath, String.toList_append, List.append_assoc] at chars
  -- behind the name and an underscore stand different letters
  have tails := List.append_cancel_left (List.append_cancel_left chars)
  have letters := congrArg List.head? tails
  cases letters

theorem itemNames_singleton (fragment : Fragment) :
    Fragment.itemNames [fragment] = fragment.names := by
  rw [Fragment.itemNames, Fragment.itemNames, List.append_nil]

theorem itemNames_cons (fragment : Fragment) (fragments : List Fragment) :
    Fragment.itemNames (fragment :: fragments)
      = Fragment.itemNames [fragment] ++ Fragment.itemNames fragments := by
  rw [itemNames_singleton, Fragment.itemNames]

/-- The names of a part still stand for its leaves when later parts have been written. -/
theorem map_names_append {before after : Leaves} {names names' : List String}
    {values values' : List Value}
    (keeps : ∀ n v, before.params.get? n = some v → after.params.get? n = some v)
    (first : names.map before.params.get? = values.map some)
    (rest : names'.map after.params.get? = values'.map some) :
    (names ++ names').map after.params.get? = (values ++ values').map some := by
  have kept : names.map after.params.get? = values.map some := by
    rw [← first]
    refine List.map_congr_left fun n hn => ?_
    -- each of these names was bound, and what is bound stays
    have bound := List.mem_map_of_mem (f := before.params.get?) hn
    rw [first] at bound
    obtain ⟨v, -, found⟩ := List.mem_map.1 bound
    rw [← found]
    exact keeps n v found.symm
  rw [List.map_append, List.map_append, kept, rest]

/-- The names of a fragment stand for the leaves of its value, in order. -/
theorem Writes.map_names {r : Registry} {task : Task} {name : String} {leaves leaves' : Leaves}
    {fragments : List Fragment} (h : Writes r task name leaves fragments leaves')
    (free : task.BindsOwn → leaves.params.get? name = none) :
    (Fragment.itemNames fragments).map leaves'.params.get? = (task.leaves r).map some := by
  induction h with
  | scalar plain =>
    rw [Task.leaves, leavesOf_scalar r (needsExpansion_of_not_isSubstituted plain),
      itemNames_singleton, Fragment.names, List.map_singleton, get?_bind_self, List.map_singleton]
  | enumeration =>
    rw [Task.leaves, leavesOf_scalar r rfl, itemNames_singleton, Fragment.names, List.map_singleton,
      get?_bind_self, List.map_singleton]
  | emptyArray =>
    rw [Task.leaves, leavesOf_array, leavesOfItems, itemNames_singleton, Fragment.names]
    rfl
  | array _ ih =>
    rw [Task.leaves, leavesOf_array, itemNames_singleton, Fragment.names]
    exact ih False.elim
  | record known _ _ ih =>
    rw [Task.leaves, leavesOf_record known, itemNames_singleton, Fragment.names]
    exact ih False.elim
  | @dynamic _ _ tag name _ _ leaves _ _ carried =>
    rw [Task.leaves, leavesOf_dynamic r _ carried, itemNames_singleton, Fragment.names, itemNames_cons,
      itemNames_singleton, itemNames_singleton, Fragment.names, Fragment.names]
    show [_, _] = [_, _]
    rw [get?_bind_self, get?_bind_of_ne (fresh_tag_ne_payload leaves name), get?_bind_self]
  | noItems =>
    rw [Task.leaves, leavesOfItems, Fragment.itemNames]
    rfl
  | nextItem one others first rest =>
    rw [Task.leaves, leavesOfItems_cons, itemNames_cons]
    -- the item has a minted name, which was free before
    refine map_names_append (fun n v => others.get?_of_bound False.elim) (first fun _ => ?_)
      (rest False.elim)
    exact get?_of_not_taken (Leaves.fresh_not_taken _ _)
  | noAttributes =>
    rw [Task.leaves, leavesOfAttributes, Fragment.itemNames]
    rfl
  | nextAttribute taken one others first rest =>
    rw [Task.leaves, leavesOfAttributes_cons taken, itemNames_cons]
    refine map_names_append (fun n v => others.get?_of_bound False.elim) (first fun _ => ?_)
      (rest False.elim)
    exact get?_of_not_taken (Leaves.fresh_not_taken _ _)

/-! ## 4. Minted names -/

/-- A name that is free after a part is written was free before. -/
theorem Writes.free_of_free {r : Registry} {task : Task} {base n : String} {leaves leaves' : Leaves}
    {fragments : List Fragment} (h : Writes r task (leaves.fresh base) leaves fragments leaves')
    (free : leaves'.taken n = false) : leaves.taken n = false := by
  cases used : leaves.taken n with
  | false => rfl
  | true =>
    -- a name in use stays in use
    have kept := h.get?_of_taken used fun _ => ne_fresh_of_taken used base
    rw [taken_congr h.reserved kept, used] at free
    cases free

/-- A name of a fragment was free before its value was written, or is the value's own. -/
theorem Writes.free_of_mem {r : Registry} {task : Task} {name : String} {leaves leaves' : Leaves}
    {fragments : List Fragment} (h : Writes r task name leaves fragments leaves') {n : String}
    (hn : n ∈ Fragment.itemNames fragments) :
    leaves.taken n = false ∨ task.BindsOwn ∧ n = name := by
  induction h with
  | scalar plain =>
    rw [itemNames_singleton, Fragment.names, List.mem_singleton] at hn
    exact .inr ⟨needsExpansion_of_not_isSubstituted plain, hn⟩
  | enumeration =>
    rw [itemNames_singleton, Fragment.names, List.mem_singleton] at hn
    exact .inr ⟨rfl, hn⟩
  | emptyArray =>
    rw [itemNames_singleton, Fragment.names] at hn
    cases hn
  | array _ ih =>
    rw [itemNames_singleton, Fragment.names] at hn
    exact .inl ((ih hn).resolve_right fun own => own.1)
  | record _ _ _ ih =>
    rw [itemNames_singleton, Fragment.names] at hn
    exact .inl ((ih hn).resolve_right fun own => own.1)
  | dynamic =>
    rw [itemNames_singleton, Fragment.names, itemNames_cons, itemNames_singleton, itemNames_singleton,
      Fragment.names, Fragment.names] at hn
    rcases List.mem_cons.1 hn with rfl | hn
    · exact .inl (Leaves.fresh_not_taken _ _)
    · rw [List.mem_singleton.1 hn]
      exact .inl (Leaves.fresh_not_taken _ _)
  | noItems | noAttributes =>
    rw [Fragment.itemNames] at hn
    cases hn
  | nextItem one _ first rest =>
    rw [itemNames_cons] at hn
    rcases List.mem_append.1 hn with hn | hn
    · -- the name of the item itself was minted, and those of later items were free all along
      exact .inl ((first hn).elim id fun own => own.2 ▸ Leaves.fresh_not_taken _ _)
    · exact .inl (one.free_of_free ((rest hn).resolve_right fun own => own.1))
  | nextAttribute _ one _ first rest =>
    rw [itemNames_cons] at hn
    rcases List.mem_append.1 hn with hn | hn
    · exact .inl ((first hn).elim id fun own => own.2 ▸ Leaves.fresh_not_taken _ _)
    · exact .inl (one.free_of_free ((rest hn).resolve_right fun own => own.1))

/-! ## 5. What names and types have in common -/

end Expansion

/-- The attributes of a registry are as `A` says, and its types as `Q` says. -/
structure Registry.Spelled (r : Registry) (A Q : String → Prop) : Prop where
  dynamicType : Q r.dynamicType
  enums : ∀ {name : String} {d : EnumDefinition}, r.enumDefinition name = .ok d → Q name
  composites : ∀ {name : String} {d : CompositeDefinition}, r.compositeDefinition name = .ok d →
    Q d.typeName ∧ ∀ a ∈ d.attributes, A a.1 ∧ Q a.2
  elements : ∀ {name element : String}, Q name → r.arrayElement? name = some element → Q element

theorem Registry.Spelled.imp {r : Registry} {A A' Q : String → Prop} (h : r.Spelled A Q)
    (weaker : ∀ attr, A attr → A' attr) : r.Spelled A' Q where
  dynamicType := h.dynamicType
  enums := h.enums
  composites known := ⟨(h.composites known).1, fun a ha =>
    ⟨weaker a.1 ((h.composites known).2 a ha).1, ((h.composites known).2 a ha).2⟩⟩
  elements := h.elements

namespace Expansion

/-- The places that a task fills are as `A` and `Q` say. -/
def Task.Slots (A Q : String → Prop) : Task → Prop
  | .value slot? _ _ => ∀ slot ∈ slot?, Q slot
  | .items element? _ _ => ∀ element ∈ element?, Q element
  | .attributes _ listed _ => ∀ a ∈ listed, A a.1 ∧ Q a.2

/-- Names minted from names as `P` says are as `P` says, where attributes are as `A` says. -/
structure Grows (P A : String → Prop) : Prop where
  item : ∀ (leaves : Leaves) {name : String} (index : Nat), P name →
    P (leaves.fresh (itemPath name index))
  field : ∀ (leaves : Leaves) {name attr : String}, P name → A attr →
    P (leaves.fresh (attributePath name attr))
  tag : A dynamicTagAttribute
  payload : A dynamicPayloadAttribute

theorem isWord_itemPath {name : String} (h : IsWord name) (index : Nat) :
    IsWord (itemPath name index) :=
  (h.append (by decide)).append (wordChars_natText _)

theorem isWord_attributePath {name attr : String} (h : IsWord name) (ha : WordChars attr) :
    IsWord (attributePath name attr) :=
  (h.append (by decide)).append ha

theorem Writes.ne_nil {r : Registry} {element? : Option String} {index : Nat} {v : Value}
    {vs : List Value} {name : String} {leaves leaves' : Leaves} {fragments : List Fragment}
    (h : Writes r (.items element? index (v :: vs)) name leaves fragments leaves') :
    fragments ≠ [] := by
  cases h
  exact List.cons_ne_nil _ _

theorem grows_isWord : Grows IsWord WordChars where
  item leaves _ index word := leaves.isWord_fresh (isWord_itemPath word index)
  field leaves _ _ word chars := leaves.isWord_fresh (isWord_attributePath word chars)
  tag := by decide
  payload := by decide

theorem grows_any : Grows (fun _ => True) fun _ => True :=
  ⟨fun _ _ _ _ => trivial, fun _ _ _ _ _ => trivial, trivial, trivial⟩

/-- The parameters of a fragment are named as the name it was written under, and its types are as those
of the registry. -/
theorem Writes.all {r : Registry} {P A Q : String → Prop} (grows : Grows P A) (spelled : r.Spelled A Q)
    {task : Task} {name : String} {leaves leaves' : Leaves} {fragments : List Fragment}
    (h : Writes r task name leaves fragments leaves') (base : P name) (slots : task.Slots A Q) :
    Fragment.AllItems P Q fragments := by
  induction h with
  | @scalar _ nested v =>
    refine ⟨⟨base, fun cast hc => slots cast ?_⟩, trivial⟩
    split at hc
    · exact hc
    · cases hc
  | @enumeration _ nested typeName _ _ _ _ known =>
    refine ⟨⟨base, fun cast hc => ?_⟩, trivial⟩
    split at hc
    · cases hc
      exact spelled.enums known
    · cases hc
  | emptyArray =>
    refine ⟨fun cast hc => ?_, trivial⟩
    split at hc
    · exact slots cast hc
    · cases hc
  | @array slot? _ _ _ _ _ _ _ items ih =>
    refine ⟨⟨items.ne_nil, ih base fun element he => ?_⟩, trivial⟩
    -- the items of an array take the element of its type
    obtain ⟨slot, hs, he⟩ := Option.bind_eq_some_iff.1 he
    exact spelled.elements (slots slot hs) he
  | record known _ _ ih =>
    obtain ⟨typed, attributes⟩ := spelled.composites known
    exact ⟨⟨ih base attributes, typed⟩, trivial⟩
  | @dynamic _ _ _ _ _ _ leaves =>
    have uncast : ∀ cast ∈ (none : Option String), Q cast := fun cast hc => by cases hc
    refine ⟨⟨⟨⟨?_, uncast⟩, ⟨?_, uncast⟩, trivial⟩, spelled.dynamicType⟩, trivial⟩
    · exact grows.field leaves base grows.tag
    · exact grows.field leaves base grows.payload
  | noItems | noAttributes => exact trivial
  | @nextItem _ _ _ _ _ leaves _ _ _ _ _ _ first rest =>
    obtain ⟨one, -⟩ := first (grows.item leaves _ base) slots
    exact ⟨one, rest base slots⟩
  | @nextAttribute _ _ _ _ _ _ _ _ leaves _ _ _ _ _ _ _ first rest =>
    have listed := slots _ List.mem_cons_self
    obtain ⟨one, -⟩ := first (grows.field leaves base listed.1) fun slot hs =>
      Option.some.inj hs ▸ listed.2
    exact ⟨one, rest base fun a ha => slots a (List.mem_cons_of_mem _ ha)⟩

end Expansion

end TypedStore
