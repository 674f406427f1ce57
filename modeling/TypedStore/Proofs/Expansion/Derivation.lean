/-
What writing does, as a relation. A task is a value, the items of an array or the attributes of a
record; a derivation says which fragments a task yields and how the leaves grow. Writing succeeds with a
result exactly when there is a derivation of it (`writes_iff`), so whatever holds of all derivations,
by one induction over their rules, holds of writing.
-/
import TypedStore.Proofs.Expansion.Minting

set_option autoImplicit false

namespace TypedStore.Expansion

open TypedStore.Text

/-! ## 1. Derivations -/

/-- What there is to write. -/
inductive Task where
  | value (slot? : Option String) (nested : Bool) (v : Value)
  | items (element? : Option String) (index : Nat) (vs : List Value)
  | attributes (typeName : String) (listed : List (String × String))
      (fields : List (String × Value))

/-- A task under a name yields fragments, and the leaves grow from `leaves` to the last argument. A
value yields one fragment. -/
inductive Writes (r : Registry) : Task → String → Leaves → List Fragment → Leaves → Prop where
  | scalar {slot? : Option String} {nested : Bool} {v : Value} {name : String} {leaves : Leaves}
      (plain : isSubstituted v = false) :
      Writes r (.value slot? nested v) name leaves
        [.parameter name (if nested && v.isNull then slot? else none)] (leaves.bind name v)
  | enumeration {slot? : Option String} {nested : Bool} {typeName label name : String}
      {leaves : Leaves} {definition : EnumDefinition}
      (known : r.enumDefinition typeName = .ok definition)
      (listed : definition.hasLabel label = true) :
      Writes r (.value slot? nested (.enumeration typeName label)) name leaves
        [.parameter name (if nested then some typeName else none)]
        (leaves.bind name (.enumeration typeName label))
  | emptyArray {slot? : Option String} {nested : Bool} {name : String} {leaves : Leaves} :
      Writes r (.value slot? nested (.array [])) name leaves
        [.emptyArray (if nested then slot? else none)] leaves
  | array {slot? : Option String} {nested : Bool} {v : Value} {vs : List Value} {name : String}
      {leaves leaves' : Leaves} {fragments : List Fragment}
      (items : Writes r (.items (slot?.bind r.arrayElement?) 0 (v :: vs)) name leaves fragments
        leaves') :
      Writes r (.value slot? nested (.array (v :: vs))) name leaves [.array fragments] leaves'
  | record {slot? : Option String} {nested : Bool} {typeName name : String}
      {fields : List (String × Value)} {leaves leaves' : Leaves} {fragments : List Fragment}
      {definition : CompositeDefinition}
      (known : r.compositeDefinition typeName = .ok definition)
      (complete : fields.length = definition.attributes.length)
      (attributes : Writes r (.attributes definition.typeName definition.attributes fields) name
        leaves fragments leaves') :
      Writes r (.value slot? nested (.record typeName fields)) name leaves
        [.row fragments definition.typeName] leaves'
  | dynamic {slot? : Option String} {nested : Bool} {tag name host : String}
      {content : DynamicContent} {leaves : Leaves} {document : Document}
      (known : r.hostOfTag tag = .ok host) (carried : content.document = .ok document) :
      Writes r (.value slot? nested (.dynamic tag content)) name leaves
        [.row [.parameter (leaves.fresh (attributePath name dynamicTagAttribute)) none,
            .parameter (leaves.fresh (attributePath name dynamicPayloadAttribute)) none]
          r.dynamicType]
        ((leaves.bind (leaves.fresh (attributePath name dynamicTagAttribute)) (.text tag)).bind
          (leaves.fresh (attributePath name dynamicPayloadAttribute)) (.document document))
  | noItems {element? : Option String} {index : Nat} {name : String} {leaves : Leaves} :
      Writes r (.items element? index []) name leaves [] leaves
  | nextItem {element? : Option String} {index : Nat} {v : Value} {vs : List Value} {name : String}
      {leaves leaves₁ leaves₂ : Leaves} {fragment : Fragment} {fragments : List Fragment}
      (first : Writes r (.value element? true v) (leaves.fresh (itemPath name index)) leaves
        [fragment] leaves₁)
      (rest : Writes r (.items element? (index + 1) vs) name leaves₁ fragments leaves₂) :
      Writes r (.items element? index (v :: vs)) name leaves (fragment :: fragments) leaves₂
  | noAttributes {typeName name : String} {fields : List (String × Value)} {leaves : Leaves} :
      Writes r (.attributes typeName [] fields) name leaves [] leaves
  | nextAttribute {typeName attr attrType name : String} {others : List (String × String)} {v : Value}
      {fields left : List (String × Value)} {leaves leaves₁ leaves₂ : Leaves} {fragment : Fragment}
      {fragments : List Fragment} (taken : takeField? attr fields = some (v, left))
      (first : Writes r (.value (some attrType) true v) (leaves.fresh (attributePath name attr))
        leaves [fragment] leaves₁)
      (rest : Writes r (.attributes typeName others left) name leaves₁ fragments leaves₂) :
      Writes r (.attributes typeName ((attr, attrType) :: others) fields) name leaves
        (fragment :: fragments) leaves₂

/-! ## 2. Writing is deriving -/

/-- Carries a task out. -/
def Task.run (r : Registry) (name : String) (leaves : Leaves) :
    Task → Except Error (List Fragment × Leaves)
  | .value slot? nested v =>
    (write r name slot? nested leaves v).map fun written => ([written.1], written.2)
  | .items element? index vs => writeItems r name element? index leaves vs
  | .attributes typeName listed fields => writeAttributes r name typeName leaves listed fields

theorem write_scalar (r : Registry) (name : String) (slot? : Option String) (nested : Bool)
    (leaves : Leaves) {v : Value} (plain : isSubstituted v = false) :
    write r name slot? nested leaves v
      = .ok (.parameter name (if nested && v.isNull then slot? else none), leaves.bind name v) := by
  cases v with
  | enumeration | array | record | dynamic => cases plain
  | null =>
    rw [write]
    cases nested <;> rfl
  | _ => simp [write, Value.isNull]

/-- What a derivation yields is what carrying the task out yields. -/
theorem Writes.run {r : Registry} {task : Task} {name : String} {leaves leaves' : Leaves}
    {fragments : List Fragment} (h : Writes r task name leaves fragments leaves') :
    task.run r name leaves = .ok (fragments, leaves') := by
  induction h with
  | scalar plain => rw [Task.run, write_scalar r _ _ _ _ plain, Except.map]
  | enumeration known listed =>
    rw [Task.run, write, writeEnum, known]
    simp only [bind, Except.bind, listed, if_true]
    rfl
  | emptyArray => rw [Task.run, write, Except.map]
  | array _ ih =>
    simp only [Task.run] at ih
    rw [Task.run, write, ih]
    · rfl
    · intro empty
      cases empty
  | record known complete _ ih =>
    simp only [Task.run] at ih
    rw [Task.run, write, known]
    simp only [bind, Except.bind, ne_eq, complete, not_true, if_false, ih]
    rfl
  | dynamic known carried =>
    rw [Task.run, write, writeDynamic, known, carried]
    rfl
  | noItems => rw [Task.run, writeItems]
  | nextItem _ _ first rest =>
    -- the item yields one fragment, and the rest is written with the leaves that it left
    obtain ⟨written, one, same⟩ := map_eq_ok first
    cases same
    rw [Task.run, writeItems, one]
    simp only [Task.run] at rest
    simp only [bind, Except.bind, rest]
    rfl
  | noAttributes => rw [Task.run, writeAttributes]
  | nextAttribute taken _ _ first rest =>
    obtain ⟨written, one, same⟩ := map_eq_ok first
    cases same
    simp only [Task.run] at rest
    rw [Task.run, writeAttributes]
    split
    · rename_i none
      rw [taken] at none
      cases none
    · -- the field is the one that the derivation took
      rename_i v left found
      rw [taken] at found
      cases found
      simp only [one, bind, Except.bind, rest]
      rfl

mutual

theorem writes_of_write {r : Registry} {name : String} {slot? : Option String} {nested : Bool}
    {leaves leaves' : Leaves} {v : Value} {fragment : Fragment}
    (h : write r name slot? nested leaves v = .ok (fragment, leaves')) :
    Writes r (.value slot? nested v) name leaves [fragment] leaves' := by
  -- scalars are written alike, so only the structured values and labels are told apart
  by_cases plain : isSubstituted v = false
  · rw [write_scalar r _ _ _ _ plain] at h
    cases h
    exact .scalar plain
  · match v with
    | .enumeration typeName label =>
      rw [write, writeEnum] at h
      obtain ⟨definition, known, h⟩ := bind_eq_ok_iff.1 h
      split at h
      · rename_i listed
        cases h
        exact .enumeration known listed
      · cases h
    | .array [] =>
      rw [write] at h
      cases h
      exact .emptyArray
    | .array (v :: vs) =>
      rw [write] at h
      · obtain ⟨⟨fragments, leaves₁⟩, items, h⟩ := bind_eq_ok_iff.1 h
        cases h
        exact .array (writes_of_writeItems items)
      · intro empty
        cases empty
    | .record typeName fields =>
      rw [write] at h
      obtain ⟨definition, known, h⟩ := bind_eq_ok_iff.1 h
      split at h
      · cases h
      · rename_i complete
        obtain ⟨⟨fragments, leaves₁⟩, attributes, h⟩ := bind_eq_ok_iff.1 h
        cases h
        exact .record known (Decidable.not_not.1 complete) (writes_of_writeAttributes attributes)
    | .dynamic tag content =>
      rw [write, writeDynamic] at h
      obtain ⟨host, known, h⟩ := bind_eq_ok_iff.1 h
      obtain ⟨document, carried, h⟩ := bind_eq_ok_iff.1 h
      cases h
      exact .dynamic known carried
    | .null | .boolean _ | .int16 _ | .int32 _ | .int64 _ | .float32 _ | .float64 _ | .decimal _
    | .text _ | .blob _ | .date _ | .time _ | .timestamp _ | .zoned _ | .uuid _ | .document _ =>
      exact absurd rfl plain
termination_by (v.weight, 0)
decreasing_by
  all_goals simp only [Prod.lex_def, Value.weight]; omega

theorem writes_of_writeItems {r : Registry} {name : String} {element? : Option String} {index : Nat}
    {leaves leaves' : Leaves} {vs : List Value} {fragments : List Fragment}
    (h : writeItems r name element? index leaves vs = .ok (fragments, leaves')) :
    Writes r (.items element? index vs) name leaves fragments leaves' := by
  match vs with
  | [] =>
    rw [writeItems] at h
    cases h
    exact .noItems
  | v :: vs =>
    rw [writeItems] at h
    obtain ⟨⟨fragment, leaves₁⟩, first, h⟩ := bind_eq_ok_iff.1 h
    obtain ⟨⟨others, leaves₂⟩, rest, h⟩ := bind_eq_ok_iff.1 h
    cases h
    exact .nextItem (writes_of_write first) (writes_of_writeItems rest)
termination_by (Value.itemsWeight vs, 0)
decreasing_by
  all_goals simp only [Prod.lex_def, Value.itemsWeight]; omega

theorem writes_of_writeAttributes {r : Registry} {name typeName : String} {leaves leaves' : Leaves}
    {listed : List (String × String)} {fields : List (String × Value)} {fragments : List Fragment}
    (h : writeAttributes r name typeName leaves listed fields = .ok (fragments, leaves')) :
    Writes r (.attributes typeName listed fields) name leaves fragments leaves' := by
  match listed with
  | [] =>
    rw [writeAttributes] at h
    cases h
    exact .noAttributes
  | (attr, attrType) :: others =>
    rw [writeAttributes] at h
    split at h
    · cases h
    · rename_i v left taken
      obtain ⟨⟨fragment, leaves₁⟩, first, h⟩ := bind_eq_ok_iff.1 h
      obtain ⟨⟨more, leaves₂⟩, rest, h⟩ := bind_eq_ok_iff.1 h
      cases h
      exact .nextAttribute taken (writes_of_write first) (writes_of_writeAttributes rest)
termination_by (Value.fieldsWeight fields, listed.length)
decreasing_by
  all_goals
    have := weight_takeField? ‹takeField? _ _ = some _›
    simp only [Prod.lex_def, List.length_cons]
    omega

end

/-- Writing a value succeeds with what there is a derivation of. -/
theorem writes_iff {r : Registry} {name : String} {slot? : Option String} {nested : Bool}
    {leaves leaves' : Leaves} {v : Value} {fragment : Fragment} :
    Writes r (.value slot? nested v) name leaves [fragment] leaves'
      ↔ write r name slot? nested leaves v = .ok (fragment, leaves') := by
  refine ⟨fun h => ?_, writes_of_write⟩
  obtain ⟨written, one, same⟩ := map_eq_ok h.run
  cases same
  exact one

/-! ## 3. Names in use -/

/-- Whether the task's own name is bound: that of a value which is no structured one. -/
def Task.BindsOwn : Task → Prop
  | .value _ _ v => v.needsExpansion = false
  | _ => False

theorem needsExpansion_of_not_isSubstituted {v : Value} (h : isSubstituted v = false) :
    v.needsExpansion = false := by
  cases v <;> first | rfl | cases h

theorem get?_of_not_taken {leaves : Leaves} {name : String} (h : leaves.taken name = false) :
    leaves.params.get? name = none := by
  cases found : leaves.params.get? name with
  | none => rfl
  | some v => rw [Leaves.taken_of_get? found] at h; cases h

theorem ne_fresh_of_taken {leaves : Leaves} {name : String} (h : leaves.taken name = true)
    (base : String) : name ≠ leaves.fresh base := by
  intro same
  rw [same, Leaves.fresh_not_taken] at h
  cases h

theorem get?_bind_of_ne {leaves : Leaves} {name other : String} {v : Value} (h : name ≠ other) :
    (leaves.bind other v).params.get? name = leaves.params.get? name := by
  rw [Leaves.bind, Dict.get?_insert, if_neg (Ne.symm h)]

theorem get?_bind_self (leaves : Leaves) (name : String) (v : Value) :
    (leaves.bind name v).params.get? name = some v := by
  rw [Leaves.bind, Dict.get?_insert, if_pos rfl]

theorem taken_congr {leaves leaves' : Leaves} {name : String}
    (reserved : leaves'.reserved = leaves.reserved)
    (bound : leaves'.params.get? name = leaves.params.get? name) :
    leaves'.taken name = leaves.taken name := by
  rw [Leaves.taken, Leaves.taken, Dict.contains, Dict.contains, reserved, bound]

theorem Writes.reserved {r : Registry} {task : Task} {name : String} {leaves leaves' : Leaves}
    {fragments : List Fragment} (h : Writes r task name leaves fragments leaves') :
    leaves'.reserved = leaves.reserved := by
  induction h with
  | scalar | enumeration | emptyArray | dynamic | noItems | noAttributes => rfl
  | array _ ih => exact ih
  | record _ _ _ ih => exact ih
  | nextItem _ _ first rest => exact rest.trans first
  | nextAttribute _ _ _ first rest => exact rest.trans first

/-- What a name in use stands for does not change. The induction is on the derivation: names of parts
are minted, so they are not in use when their part is written. -/
theorem Writes.get?_of_taken {r : Registry} {task : Task} {name : String} {leaves leaves' : Leaves}
    {fragments : List Fragment} (h : Writes r task name leaves fragments leaves') {n : String}
    (used : leaves.taken n = true) (other : task.BindsOwn → n ≠ name) :
    leaves'.params.get? n = leaves.params.get? n := by
  induction h with
  | scalar plain => exact get?_bind_of_ne (other (needsExpansion_of_not_isSubstituted plain))
  | enumeration => exact get?_bind_of_ne (other rfl)
  | emptyArray | noItems | noAttributes => rfl
  | dynamic =>
    rw [get?_bind_of_ne (ne_fresh_of_taken used _), get?_bind_of_ne (ne_fresh_of_taken used _)]
  | array _ ih => exact ih used False.elim
  | record _ _ _ ih => exact ih used False.elim
  | nextItem one _ first rest =>
    -- the name is not that of the item, and is still in use for the items behind it
    have kept := first used fun _ => ne_fresh_of_taken used _
    have still := (taken_congr one.reserved kept).trans used
    exact (rest still False.elim).trans kept
  | nextAttribute _ one _ first rest =>
    have kept := first used fun _ => ne_fresh_of_taken used _
    have still := (taken_congr one.reserved kept).trans used
    exact (rest still False.elim).trans kept

/-- Leaves stay bound. -/
theorem Writes.get?_of_bound {r : Registry} {task : Task} {name : String} {leaves leaves' : Leaves}
    {fragments : List Fragment} (h : Writes r task name leaves fragments leaves')
    (free : task.BindsOwn → leaves.params.get? name = none) {n : String} {v : Value}
    (bound : leaves.params.get? n = some v) : leaves'.params.get? n = some v := by
  -- a leaf that is bound is in use, and not under the name of the task
  have other : task.BindsOwn → n ≠ name := by
    intro own same
    rw [same, free own] at bound
    cases bound
  rw [h.get?_of_taken (Leaves.taken_of_get? bound) other, bound]

end TypedStore.Expansion
