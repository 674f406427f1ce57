/-
The order of rows. A row constructor is positional in the store, so its items have to stand in the order
of the attributes of its type. Records are written in the order that the registry has, whichever that is;
self describing values are written as tag and document. A fragment carries its value (`Carries`) if every
item of its rows carries the value of the attribute at its place. So it does wherever no self describing
value is inside, and everywhere if the registry has the attributes of their type in that very order
(`carries_iff`); the order that it has is the one that was listed or declared first
(`Registry.attributes_of_merge`).
-/
import TypedStore.Proofs.Expansion.Slots
import TypedStore.Proofs.Registry.Origin

set_option autoImplicit false

namespace TypedStore

/-! ## 1. Values and the rows that stand for them -/

namespace Value

/-- The type whose row stands for a value. -/
def rowType? (r : Registry) : Value → Option String
  | .record typeName _ => some typeName
  | .dynamic _ _ => some r.dynamicType
  | _ => none

/-- What a value has for an attribute of its row: the field of a record, and the tag or the document of a
self describing value. -/
def attribute? (v : Value) (attr : String) : Option Value :=
  match v with
  | .record _ fields => fieldValue? attr fields
  | .dynamic tag content =>
    if attr = dynamicTagAttribute then some (.text tag)
    else if attr = dynamicPayloadAttribute then content.document.toOption.map .document
    else none
  | _ => none

mutual

/-- Whether a self describing value is in a value. -/
def holdsDynamic : Value → Bool
  | .dynamic _ _ => true
  | .array items => itemsHoldDynamic items
  | .record _ fields => fieldsHoldDynamic fields
  | _ => false

/-- Whether a self describing value is in an item of an array. -/
def itemsHoldDynamic : List Value → Bool
  | [] => false
  | v :: rest => v.holdsDynamic || itemsHoldDynamic rest

/-- Whether a self describing value is in a field of a record. -/
def fieldsHoldDynamic : List (String × Value) → Bool
  | [] => false
  | (_, v) :: rest => v.holdsDynamic || fieldsHoldDynamic rest

end

theorem holdsDynamic_scalar {v : Value} (h : v.needsExpansion = false) : v.holdsDynamic = false := by
  cases v <;> first | rfl | cases h

end Value

theorem any_congr_left {α : Type} {xs : List α} {p q : α → Bool} (same : ∀ x ∈ xs, p x = q x) :
    xs.any p = xs.any q := by
  rw [List.any_eq, List.any_eq]
  exact decide_eq_decide.2 (exists_congr fun x => and_congr_right fun hx => by rw [same x hx])

/-- Whether a self describing value is in the field of a name. -/
def fieldHoldsDynamic (fields : List (String × Value)) (name : String) : Bool :=
  ((fieldValue? name fields).map Value.holdsDynamic).getD false

theorem fieldsHoldDynamic_eq_any (fields : List (String × Value)) :
    Value.fieldsHoldDynamic fields = fields.any fun field => field.2.holdsDynamic := by
  induction fields with
  | nil => rfl
  | cons field rest ih => rw [Value.fieldsHoldDynamic, List.any_cons, ih]

/-- Where no name is repeated, what fields hold is what their names find. -/
theorem fieldsHoldDynamic_eq {fields : List (String × Value)} (distinct : (fields.map (·.1)).Nodup) :
    Value.fieldsHoldDynamic fields = (fields.map (·.1)).any (fieldHoldsDynamic fields) := by
  have found := congrArg (List.any · fun v? => (v?.map Value.holdsDynamic).getD false)
    (map_fieldValue? distinct)
  rw [List.any_map, List.any_map] at found
  rw [fieldsHoldDynamic_eq_any, List.any_map]
  exact found.symm

namespace Expansion

open TypedStore.Statement

mutual

/-- A fragment carries a value: a placeholder is bound to it, the items of a constructor carry the items of
the array, and the items of a row carry what the value has for the attributes of the row's type, each for
the attribute at its place. -/
def Carries (r : Registry) (bound : String → Option Value) (v : Value) : Fragment → Prop
  | .parameter name _ => v.needsExpansion = false ∧ bound name = some v
  | .emptyArray _ => v = .array []
  | .array items => ∃ vs, v = .array vs ∧ CarriesEach r bound (vs.map some) items
  | .row items typeName => v.rowType? r = some typeName ∧
      ∃ definition, r.compositeDefinition typeName = .ok definition
        ∧ CarriesEach r bound (definition.attributes.map fun a => v.attribute? a.1) items

/-- Fragments carry values one by one, and there is a value for each. -/
def CarriesEach (r : Registry) (bound : String → Option Value) (given : List (Option Value)) :
    List Fragment → Prop
  | [] => given = []
  | f :: rest => ∃ v others, given = some v :: others ∧ Carries r bound v f
      ∧ CarriesEach r bound others rest

end

variable {r : Registry} {bound : String → Option Value}

theorem carriesEach_cons {v : Value} {f : Fragment} {given : List (Option Value)}
    {rest : List Fragment} :
    CarriesEach r bound (some v :: given) (f :: rest)
      ↔ Carries r bound v f ∧ CarriesEach r bound given rest := by
  rw [CarriesEach]
  constructor
  · rintro ⟨_, _, same, first, others⟩
    cases same
    exact ⟨first, others⟩
  · rintro ⟨first, others⟩
    exact ⟨v, given, rfl, first, others⟩

theorem carriesEach_singleton {v : Value} {f : Fragment} :
    CarriesEach r bound [some v] [f] ↔ Carries r bound v f := by
  rw [carriesEach_cons, CarriesEach]
  exact and_iff_left rfl

/-- A placeholder carries what it is bound to. -/
theorem carries_parameter {v u : Value} {name : String} {cast? : Option String}
    (flat : u.needsExpansion = false) (own : bound name = some u) :
    Carries r bound v (.parameter name cast?) ↔ v = u := by
  rw [Carries, own, Option.some.injEq, eq_comm (a := u)]
  constructor
  · exact And.right
  · rintro rfl
    exact ⟨flat, rfl⟩

/-! ## 2. Rows of self describing values -/

/-- The type of self describing values has the tag for its first attribute and the document for its
second, and no others. -/
def DynamicInOrder (r : Registry) : Prop :=
  ∃ definition, r.compositeDefinition r.dynamicType = .ok definition
    ∧ definition.attributes.map (·.1) = [dynamicTagAttribute, dynamicPayloadAttribute]

/-- The row of a self describing value is tag and document, so it carries the value only if that is the
order of the attributes. -/
theorem carries_dynamic {tag : String} {content : DynamicContent} {document : Document}
    {tagName payloadName : String} (carried : content.document = .ok document)
    (ownTag : bound tagName = some (.text tag)) (ownPayload : bound payloadName = some (.document document)) :
    Carries r bound (.dynamic tag content)
        (.row [.parameter tagName none, .parameter payloadName none] r.dynamicType)
      ↔ DynamicInOrder r := by
  have atTag : (Value.dynamic tag content).attribute? dynamicTagAttribute = some (.text tag) := rfl
  have atPayload : (Value.dynamic tag content).attribute? dynamicPayloadAttribute
      = some (.document document) := by
    rw [Value.attribute?, carried]
    rfl
  -- no other attribute has the tag or the document
  have onlyTag : ∀ attr, (Value.dynamic tag content).attribute? attr = some (.text tag) →
      attr = dynamicTagAttribute := by
    intro attr found
    by_contra other
    rw [Value.attribute?, if_neg other, carried] at found
    split at found <;> cases found
  have onlyPayload : ∀ attr, (Value.dynamic tag content).attribute? attr = some (.document document) →
      attr = dynamicPayloadAttribute := by
    intro attr found
    by_contra other
    rw [Value.attribute?, if_neg other] at found
    split at found <;> cases found
  rw [Carries, DynamicInOrder]
  refine (and_iff_right rfl).trans (exists_congr fun definition => and_congr_right fun _ => ?_)
  constructor
  · rintro ⟨_, _, given, first, _, _, rfl, second, rfl⟩
    rw [carries_parameter rfl ownTag] at first
    rw [carries_parameter rfl ownPayload] at second
    subst first second
    obtain ⟨a, others, listed, isTag, rest⟩ := List.map_eq_cons_iff.1 given
    obtain ⟨b, none, rfl, isPayload, nil⟩ := List.map_eq_cons_iff.1 rest
    rw [listed, List.map_eq_nil_iff.1 nil, List.map_cons, List.map_singleton, onlyTag _ isTag,
      onlyPayload _ isPayload]
  · intro order
    have given : definition.attributes.map (fun a => (Value.dynamic tag content).attribute? a.1)
        = [some (.text tag), some (.document document)] := by
      have named := List.map_map (f := Prod.fst) (g := (Value.dynamic tag content).attribute?)
        (l := definition.attributes)
      rw [order] at named
      rw [← atTag, ← atPayload]
      exact named.symm
    rw [given, carriesEach_cons, carriesEach_singleton, carries_parameter rfl ownTag,
      carries_parameter rfl ownPayload]
    exact ⟨rfl, rfl⟩

/-! ## 3. Rows of all values -/

variable {task : Task} {name : String} {leaves leaves' : Leaves} {fragments : List Fragment}

/-- The values of a task, one for each fragment that it yields. -/
def Task.given : Task → List (Option Value)
  | .value _ _ v => [some v]
  | .items _ _ vs => vs.map some
  | .attributes _ listed fields => listed.map fun a => fieldValue? a.1 fields

/-- Whether a self describing value is in a value of a task. -/
def Task.holdsDynamic : Task → Bool
  | .value _ _ v => v.holdsDynamic
  | .items _ _ vs => Value.itemsHoldDynamic vs
  | .attributes _ listed fields => (listed.map (·.1)).any (fieldHoldsDynamic fields)

/-- The names of a part are bound at the end as they are when the part has been written. -/
theorem own_of_later {one other : Task} {base later : String} {leaves₁ leaves₂ : Leaves}
    {fragment : Fragment} {others : List Fragment}
    (first : Writes r one (leaves.fresh base) leaves [fragment] leaves₁)
    (rest : Writes r other later leaves₁ others leaves₂) (unnamed : ¬ other.BindsOwn)
    (own : ∀ n ∈ Fragment.itemNames [fragment] ++ Fragment.itemNames others,
      bound n = leaves₂.params.get? n) :
    ∀ n ∈ Fragment.itemNames [fragment], bound n = leaves₁.params.get? n := by
  intro n hn
  obtain ⟨v, here⟩ := first.exists_of_mem
    (fun _ => get?_of_not_taken (Leaves.fresh_not_taken _ _)) hn
  rw [own n (List.mem_append_left _ hn), here]
  exact rest.get?_of_bound (fun own => absurd own unnamed) here

/-- Parts carry their values where each of them does. -/
theorem inOrder_or_and {p : Prop} {a b : Bool} :
    (p ∨ a = false) ∧ (p ∨ b = false) ↔ p ∨ (a || b) = false := by
  rw [← or_and_left, Bool.or_eq_false_iff]

/-- **When what is written carries its values.** Where the type of self describing values has tag and
document in this order, or no self describing value is inside, and in no other case. The induction is on
the derivation; the names of a part are still bound to its leaves when the parts behind it are written. -/
theorem Writes.carries_iff (coherent : r.Coherent) (distinct : r.DistinctAttributes)
    (h : Writes r task name leaves fragments leaves') (once : task.Distinct)
    (free : task.BindsOwn → leaves.params.get? name = none)
    (own : ∀ n ∈ Fragment.itemNames fragments, bound n = leaves'.params.get? n) :
    CarriesEach r bound task.given fragments ↔ DynamicInOrder r ∨ task.holdsDynamic = false := by
  induction h with
  | scalar plain =>
    have flat := needsExpansion_of_not_isSubstituted plain
    have here := own _ (by rw [itemNames_singleton, Fragment.names]; exact List.mem_cons_self)
    rw [get?_bind_self] at here
    rw [Task.given, carriesEach_singleton, carries_parameter flat here, Task.holdsDynamic,
      Value.holdsDynamic_scalar flat]
    simp
  | enumeration =>
    have here := own _ (by rw [itemNames_singleton, Fragment.names]; exact List.mem_cons_self)
    rw [get?_bind_self] at here
    rw [Task.given, carriesEach_singleton, carries_parameter rfl here]
    exact ⟨fun _ => .inr rfl, fun _ => rfl⟩
  | emptyArray =>
    rw [Task.given, carriesEach_singleton, Carries]
    exact ⟨fun _ => .inr rfl, fun _ => rfl⟩
  | @array _ _ v vs _ _ _ _ _ ih =>
    rw [itemNames_singleton, Fragment.names] at own
    rw [Task.given, carriesEach_singleton, Carries]
    refine Iff.trans ⟨?_, fun each => ⟨_, rfl, each⟩⟩ (ih trivial False.elim own)
    rintro ⟨_, same, each⟩
    cases same
    exact each
  | @record _ _ typeName _ fields _ _ _ definition known complete attributes ih =>
    have found := compositeDefinition_eq_ok known
    have apart : (definition.attributes.map (·.1)).Nodup := distinct typeName definition found
    have named := attributes.attributes_perm apart complete
    have holds : (Value.record typeName fields).holdsDynamic
        = (definition.attributes.map (·.1)).any (fieldHoldsDynamic fields) := by
      rw [Value.holdsDynamic, fieldsHoldDynamic_eq (named.nodup_iff.1 apart)]
      exact (named.any_eq).symm
    rw [itemNames_singleton, Fragment.names] at own
    rw [Task.given, carriesEach_singleton, Carries, coherent.composites typeName definition found,
      Task.holdsDynamic, holds]
    refine ((and_iff_right rfl).trans ⟨?_, fun each => ⟨definition, known, each⟩⟩).trans
      (ih apart False.elim own)
    rintro ⟨_, known', each⟩
    cases known.symm.trans known'
    exact each
  | @dynamic _ _ tag name _ _ leaves _ _ carried =>
    have here := own (leaves.fresh (attributePath name dynamicTagAttribute)) (by
      simp [Fragment.itemNames, Fragment.names])
    have there := own (leaves.fresh (attributePath name dynamicPayloadAttribute)) (by
      simp [Fragment.itemNames, Fragment.names])
    rw [get?_bind_of_ne (fresh_tag_ne_payload leaves name), get?_bind_self] at here
    rw [get?_bind_self] at there
    rw [Task.given, carriesEach_singleton, carries_dynamic carried here there]
    exact (or_iff_left fun same => by cases same).symm
  | noItems => exact ⟨fun _ => .inr rfl, fun _ => rfl⟩
  | @nextItem _ _ v vs _ _ _ _ _ _ one others first rest =>
    rw [itemNames_cons] at own
    have part := first trivial (fun _ => get?_of_not_taken (Leaves.fresh_not_taken _ _))
      (own_of_later one others id own)
    rw [Task.given, carriesEach_singleton, Task.holdsDynamic] at part
    have parts := rest trivial False.elim fun n hn => own n (List.mem_append_right _ hn)
    rw [Task.given, Task.holdsDynamic] at parts
    rw [Task.given, List.map_cons, carriesEach_cons, part, parts, inOrder_or_and]
    rfl
  | noAttributes => exact ⟨fun _ => .inr rfl, fun _ => rfl⟩
  | @nextAttribute _ attr attrType _ listed v fields _ _ _ _ _ _ taken one others first rest =>
    rw [Task.Distinct, List.map_cons, List.nodup_cons] at once
    rw [itemNames_cons] at own
    obtain ⟨u, found, same⟩ := Option.map_eq_some_iff.1 taken
    obtain ⟨rfl, rfl⟩ := Prod.mk.inj same
    have part := first trivial (fun _ => get?_of_not_taken (Leaves.fresh_not_taken _ _))
      (own_of_later one others id own)
    rw [Task.given, carriesEach_singleton, Task.holdsDynamic] at part
    have parts := rest once.2 False.elim fun n hn => own n (List.mem_append_right _ hn)
    -- the field that was taken is that of no attribute behind
    have behind := fieldValue?_behind once.1 fields
    have holdsBehind : (listed.map (·.1)).any (fieldHoldsDynamic (blankField attr fields))
        = (listed.map (·.1)).any (fieldHoldsDynamic fields) := by
      refine any_congr_left fun name hname => ?_
      obtain ⟨a, ha, rfl⟩ := List.mem_map.1 hname
      rw [fieldHoldsDynamic, fieldHoldsDynamic, behind a ha]
    have holds : fieldHoldsDynamic fields attr = u.holdsDynamic := by
      rw [fieldHoldsDynamic, found]
      rfl
    rw [Task.given, Task.holdsDynamic, List.map_congr_left behind, holdsBehind] at parts
    rw [Task.given, List.map_cons, found, carriesEach_cons, part, parts, inOrder_or_and,
      Task.holdsDynamic, List.map_cons, List.any_cons, holds]

/-- Every structured parameter of an expanded statement has a fragment in the place of its placeholders,
which carries its value, with what the parameters are bound to now, under the same condition. -/
theorem carries_of_expand (coherent : r.Coherent) (distinct : r.DistinctAttributes) {sql : String}
    {params : Params} {e : Expanded} (ok : expand r sql params = .ok e) :
    ∃ fragments, e.sql = String.ofList ((tokens sql).flatMap (replaced fragments))
      ∧ ∀ n ∈ names (tokens sql), ∀ v, params.get? n = some v → v.needsExpansion = true →
        ∃ f, entryValue? n fragments = some f
          ∧ (Carries r e.params.get? v f ↔ DynamicInOrder r ∨ v.holdsDynamic = false) := by
  obtain ⟨w, account, text, values⟩ := account_of_expand ok
  refine ⟨w.fragments, text, fun n hn v value needs => ?_⟩
  obtain ⟨f, entry⟩ := account.complete (Query.mem_distinct.2 hn) value
    (isSubstituted_of_needsExpansion needs)
  obtain ⟨-, u, value', ⟨-, leaves, leaves', -, written⟩, bindings⟩ := account.fragments entry
  obtain rfl : v = u := Option.some.inj (value.symm.trans value')
  have free : (Task.value none false v).BindsOwn → leaves.params.get? n = none := fun own => by
    rw [Task.BindsOwn, needs] at own
    cases own
  -- the names of the fragment are bound to the leaves of the value, now as when they were written
  have then_ := written.map_names free
  have own : ∀ m ∈ Fragment.itemNames [f], e.params.get? m = leaves'.params.get? m := by
    intro m hm
    obtain ⟨u, bound⟩ := written.exists_of_mem free hm
    rw [itemNames_singleton] at then_ hm
    rw [values, List.map_inj_left.1 (bindings.trans then_.symm) m hm, bound, Option.some_or]
  have carries := written.carries_iff coherent distinct trivial free own
  rw [Task.given, carriesEach_singleton] at carries
  exact ⟨f, entry, carries⟩

end Expansion

/-! ## 4. The order that a registry has -/

/-- Tag and document are in order if and only if nobody defines another order first. -/
theorem Registry.dynamicInOrder_iff {strict : Bool} {r : Registry} {b : RegistryBuilder}
    (ok : b.merge strict = .ok r) :
    Expansion.DynamicInOrder r ↔ ∀ attributes, b.firstAttributes? r.dynamicType = some attributes →
      attributes.map (·.1) = [dynamicTagAttribute, dynamicPayloadAttribute] := by
  have origin := attributes_of_merge ok r.dynamicType
  rw [if_pos rfl] at origin
  have own : Expansion.DynamicInOrder r ↔ ∀ attributes, r.attributes? r.dynamicType = some attributes →
      attributes.map (·.1) = [dynamicTagAttribute, dynamicPayloadAttribute] := by
    constructor
    · rintro ⟨definition, known, order⟩ attributes found
      rw [attributes?, compositeDefinition_eq_ok known] at found
      cases found
      exact order
    · intro order
      cases first : b.firstAttributes? r.dynamicType
      all_goals
        rw [first] at origin
        obtain ⟨definition, found, -⟩ := Option.map_eq_some_iff.1 origin
        exact ⟨definition, by rw [compositeDefinition, found], order _ (by rw [attributes?, found]; rfl)⟩
  rw [own, origin]
  cases b.firstAttributes? r.dynamicType with
  | none =>
    refine ⟨fun _ attributes none_ => ?_, fun _ attributes same => Option.some.inj same ▸ rfl⟩
    cases none_
  | some attributes => exact Iff.rfl

open Statement in
/-- **When rows have the order of the store.** However a builder is made into a registry, every structured
parameter of a statement that is expanded has a fragment in the place of its placeholders. The items of the
rows in it carry the values of the attributes at their places, for a self describing value the tag for
`type_name` and the document for `payload`, if there is no self describing value inside, or if their type
is registered with tag and document in this order; and in no other case. That order is registered unless
the store, or else the first host type of that name, has another one. -/
theorem rows_ordered_iff {b : RegistryBuilder} {catalog : Catalog} {r : Registry}
    (starts : b.StartsWith catalog r) (distinct : r.DistinctAttributes) {sql : String} {params : Params}
    {e : Expansion.Expanded} (ok : Expansion.expand r sql params = .ok e) :
    (∃ fragments, e.sql = String.ofList ((tokens sql).flatMap (Expansion.replaced fragments))
        ∧ ∀ n ∈ names (tokens sql), ∀ v, params.get? n = some v → v.needsExpansion = true →
          ∃ f, entryValue? n fragments = some f
            ∧ (Expansion.Carries r e.params.get? v f
              ↔ Expansion.DynamicInOrder r ∨ v.holdsDynamic = false))
      ∧ (Expansion.DynamicInOrder r
        ↔ ∀ attributes,
          ({ b with catalog } : RegistryBuilder).firstAttributes? r.dynamicType = some attributes →
            attributes.map (·.1) = [dynamicTagAttribute, dynamicPayloadAttribute]) := by
  obtain ⟨strict, merged⟩ := starts.merged
  exact ⟨Expansion.carries_of_expand (Registry.Built.merged merged).coherent distinct ok,
    Registry.dynamicInOrder_iff merged⟩

/-- Plays, which describe themselves, and host record types around them. -/
def playBuilder (composites : List CompositeRegistration) (catalog : Catalog) : RegistryBuilder :=
  { RegistryBuilder.empty with composites, dynamics := [⟨"Play", ["tv"]⟩], catalog }

def shelfBuilder : RegistryBuilder :=
  playBuilder [⟨"shelf", [("title", "text"), ("play", "dynamic_dto")], "Shelf"⟩] .empty

/-- A play with an empty document. -/
def play : Value := .dynamic "tv" (.payload (.object []))

/-- A shelf, its fields in another order than its attributes. -/
def fullShelf : Params := Dict.ofList [("s", .record "shelf" [("play", play), ("title", .text "top")])]

/-- Nobody defines the type of self describing values, so it is registered in order. -/
theorem rows_ordered_iff_shelf :
    shelfBuilder.StartsWith .empty shelfBuilder.registry ∧ shelfBuilder.registry.DistinctAttributes
      ∧ ∃ e fragments f, Expansion.expand shelfBuilder.registry "SELECT :s" fullShelf = .ok e
        ∧ e.sql = String.ofList
          ((Statement.tokens "SELECT :s").flatMap (Expansion.replaced fragments))
        ∧ entryValue? "s" fragments = some f
        ∧ Expansion.Carries shelfBuilder.registry e.params.get?
          (.record "shelf" [("play", play), ("title", .text "top")]) f := by
  have starts : shelfBuilder.StartsWith .empty shelfBuilder.registry :=
    RegistryBuilder.startsWith_registry (by decide +kernel)
  have distinct : shelfBuilder.registry.DistinctAttributes := Dict.all_of_entries (by decide +kernel)
  have succeeds :
      (Expansion.expand shelfBuilder.registry "SELECT :s" fullShelf).toOption.isSome = true := by cbv
  refine ⟨starts, distinct, ?_⟩
  cases ok : Expansion.expand shelfBuilder.registry "SELECT :s" fullShelf with
  | error e =>
    rw [ok] at succeeds
    cases succeeds
  | ok e =>
    obtain ⟨⟨fragments, text, each⟩, order⟩ := rows_ordered_iff starts distinct ok
    obtain ⟨f, entry, carries⟩ := each "s" (by decide +kernel) _ rfl rfl
    have undefined : ({ shelfBuilder with catalog := .empty } : RegistryBuilder).firstAttributes?
        shelfBuilder.registry.dynamicType = none := by decide +kernel
    refine ⟨e, fragments, f, rfl, text, entry, carries.2 (.inl (order.2 fun names first => ?_))⟩
    rw [undefined] at first
    cases first

/-- The store lists the document before the tag. -/
def documentFirst : Catalog := ⟨[], [("dynamic_dto", [("payload", "jsonb"), ("type_name", "text")])], []⟩

def disordered : Registry := (playBuilder [] documentFirst).registry

/-- The registry takes the order of the store, but the tag is still written first: its placeholder stands
where the store has the document. -/
theorem rows_out_of_order :
    (playBuilder [] documentFirst).StartsWith documentFirst disordered ∧ disordered.DistinctAttributes
      ∧ disordered.attributes? "dynamic_dto" = some [("payload", "jsonb"), ("type_name", "text")]
      ∧ ∃ e, Expansion.expand disordered "SELECT :a" (Dict.ofList [("a", play)]) = .ok e
        ∧ e.sql = "SELECT ROW(:a_type_name, :a_payload)::dynamic_dto"
        ∧ ¬ Expansion.Carries disordered e.params.get? play
          (.row [.parameter "a_type_name" none, .parameter "a_payload" none] "dynamic_dto") := by
  have order : disordered.attributes? "dynamic_dto" = some [("payload", "jsonb"), ("type_name", "text")] := by
    decide +kernel
  have written : (Expansion.expand disordered "SELECT :a" (Dict.ofList [("a", play)])).toOption.map
      (fun e => (e.sql, e.params.get? "a_type_name", e.params.get? "a_payload"))
      = some ("SELECT ROW(:a_type_name, :a_payload)::dynamic_dto", some (.text "tv"),
        some (.document (.object []))) := by cbv
  refine ⟨RegistryBuilder.startsWith_registry (by decide +kernel), Dict.all_of_entries (by decide +kernel),
    order, ?_⟩
  cases ok : Expansion.expand disordered "SELECT :a" (Dict.ofList [("a", play)]) with
  | error e =>
    rw [ok] at written
    cases written
  | ok e =>
    rw [ok] at written
    obtain ⟨text, bound⟩ := Prod.mk.inj (Option.some.inj written)
    obtain ⟨tag, document⟩ := Prod.mk.inj bound
    refine ⟨e, rfl, text, fun carries => ?_⟩
    obtain ⟨definition, known, inOrder⟩ := (Expansion.carries_dynamic rfl tag document).1 carries
    have found : disordered.composites.get? "dynamic_dto" = some definition :=
      compositeDefinition_eq_ok known
    rw [Registry.attributes?, found, Option.map_some] at order
    rw [Option.some.inj order] at inOrder
    exact absurd inOrder (by decide)

end TypedStore
