/-
Expansion neither loses nor invents a parameter. The scalar leaves of a value are those of its own
items and fields (`Value.leaves`); where no type has two attributes of one name, writing meets each of
them once (`Writes.leaves_perm`). Every name that writing binds is a name of its fragment, no name twice,
so over a whole statement the entries of an expansion are the parameters that were passed through and one
entry for each leaf of each structured parameter that the statement mentions (`expand_conserves`).
-/
import Mathlib.Data.List.Nodup
import Mathlib.Data.List.Perm.Subperm
import TypedStore.Proofs.Expansion.Rereading

set_option autoImplicit false

namespace TypedStore

open TypedStore.Text TypedStore.Statement

/-! ## 1. The leaves of a value -/

namespace Value

mutual

/-- The scalar leaves of a value from left to right, fields in their own order. A self describing value
has its tag and its document. -/
def leaves : Value → List Value
  | .array items => itemsLeaves items
  | .record _ fields => fieldsLeaves fields
  | .dynamic tag (.payload d) => [.text tag, .document d]
  | .dynamic _ (.failure _) => []
  | v => [v]

/-- The leaves of the items of an array. -/
def itemsLeaves : List Value → List Value
  | [] => []
  | v :: rest => v.leaves ++ itemsLeaves rest

/-- The leaves of the fields of a record. -/
def fieldsLeaves : List (String × Value) → List Value
  | [] => []
  | (_, v) :: rest => v.leaves ++ fieldsLeaves rest

end

theorem leaves_scalar {v : Value} (h : v.needsExpansion = false) : v.leaves = [v] := by
  cases v <;> simp_all [leaves, needsExpansion]

end Value

/-- The leaves of the field of a name, none where there is no such field. -/
def fieldLeaves (fields : List (String × Value)) (name : String) : List Value :=
  ((fieldValue? name fields).map Value.leaves).getD []

theorem fieldValue?_blankField_of_ne {name other : String} (h : name ≠ other)
    (fields : List (String × Value)) :
    fieldValue? other (blankField name fields) = fieldValue? other fields := by
  induction fields with
  | nil => rfl
  | cons field rest ih =>
    obtain ⟨k, v⟩ := field
    simp only [blankField]
    by_cases hk : k = name
    · have hother : k ≠ other := fun same => h (hk.symm.trans same)
      simp [fieldValue?, hk, h]
    · simp [fieldValue?, hk, ih]

/-- Taking the field of an attribute leaves those of the attributes behind it. -/
theorem fieldValue?_behind {attr : String} {listed : List (String × String)}
    (apart : attr ∉ listed.map (·.1)) (fields : List (String × Value)) :
    ∀ a ∈ listed, fieldValue? a.1 (blankField attr fields) = fieldValue? a.1 fields := fun a ha =>
  fieldValue?_blankField_of_ne (fun same => apart (List.mem_map.2 ⟨a, ha, same.symm⟩)) fields

theorem map_fst_blankField (name : String) (fields : List (String × Value)) :
    (blankField name fields).map (·.1) = fields.map (·.1) := by
  induction fields with
  | nil => rfl
  | cons field rest ih =>
    obtain ⟨k, v⟩ := field
    simp only [blankField]
    split <;> simp [ih]

theorem mem_of_fieldValue? {name : String} {fields : List (String × Value)} {v : Value}
    (h : fieldValue? name fields = some v) : (name, v) ∈ fields := by
  induction fields with
  | nil => cases h
  | cons field rest ih =>
    obtain ⟨k, u⟩ := field
    by_cases hk : k = name
    · rw [fieldValue?, if_pos hk] at h
      cases h
      exact hk ▸ List.mem_cons_self
    · rw [fieldValue?, if_neg hk] at h
      exact List.mem_cons_of_mem _ (ih h)

theorem mem_keys_of_fieldValue? {name : String} {fields : List (String × Value)} {v : Value}
    (h : fieldValue? name fields = some v) : name ∈ fields.map (·.1) :=
  List.mem_map.2 ⟨(name, v), mem_of_fieldValue? h, rfl⟩

theorem exists_fieldValue? {name : String} {fields : List (String × Value)}
    (h : name ∈ fields.map (·.1)) : ∃ v, fieldValue? name fields = some v := by
  induction fields with
  | nil => cases h
  | cons field rest ih =>
    obtain ⟨k, v⟩ := field
    by_cases here : k = name
    · exact ⟨v, if_pos here⟩
    · rw [fieldValue?, if_neg here]
      exact ih ((List.mem_cons.1 h).resolve_left fun same => here same.symm)

/-- Where no name is repeated, every field is the one that its name finds. -/
theorem map_fieldValue? {fields : List (String × Value)} (distinct : (fields.map (·.1)).Nodup) :
    fields.map (fun field => fieldValue? field.1 fields) = fields.map fun field => some field.2 := by
  induction fields with
  | nil => rfl
  | cons field rest ih =>
    obtain ⟨k, v⟩ := field
    rw [List.map_cons, List.nodup_cons] at distinct
    -- the names behind the first field are other names
    have others : ∀ field ∈ rest, fieldValue? field.1 ((k, v) :: rest) = fieldValue? field.1 rest :=
      fun field hf => if_neg fun same => distinct.1 (List.mem_map.2 ⟨field, hf, same.symm⟩)
    rw [List.map_cons, List.map_cons, List.map_congr_left others, ih distinct.2, fieldValue?, if_pos rfl]

theorem fieldsLeaves_eq_flatMap (fields : List (String × Value)) :
    Value.fieldsLeaves fields = fields.flatMap fun field => field.2.leaves := by
  induction fields with
  | nil => rfl
  | cons field rest ih => rw [Value.fieldsLeaves, List.flatMap_cons, ih]

/-- Where no name is repeated, the leaves of fields are those that their names find. -/
theorem fieldsLeaves_eq {fields : List (String × Value)} (distinct : (fields.map (·.1)).Nodup) :
    Value.fieldsLeaves fields = (fields.map (·.1)).flatMap (fieldLeaves fields) := by
  have found := congrArg (List.flatMap fun v? => (v?.map Value.leaves).getD []) (map_fieldValue? distinct)
  rw [List.flatMap_map, List.flatMap_map] at found
  rw [fieldsLeaves_eq_flatMap, List.flatMap_map]
  exact found.symm

/-- No composite type has two attributes of one name. -/
def Registry.DistinctAttributes (r : Registry) : Prop :=
  r.composites.All fun _ d => (d.attributes.map (·.1)).Nodup

namespace Expansion

variable {r : Registry} {task : Task} {name : String} {leaves leaves' : Leaves}
  {fragments : List Fragment}

/-- The leaves of a task, read off its values alone. -/
def Task.ownLeaves : Task → List Value
  | .value _ _ v => v.leaves
  | .items _ _ vs => Value.itemsLeaves vs
  | .attributes _ listed fields => (listed.map (·.1)).flatMap (fieldLeaves fields)

/-- Attributes to be written are not repeated. -/
def Task.Distinct : Task → Prop
  | .attributes _ listed _ => (listed.map (·.1)).Nodup
  | _ => True

/-- Every attribute that is written is the name of a field. -/
theorem Writes.attributes_subset {typeName : String} {listed : List (String × String)}
    {fields : List (String × Value)}
    (h : Writes r (.attributes typeName listed fields) name leaves fragments leaves') :
    listed.map (·.1) ⊆ fields.map (·.1) := by
  generalize which : Task.attributes typeName listed fields = task at h
  induction h generalizing listed fields with
  | noAttributes =>
    cases which
    simp
  | nextAttribute taken _ _ _ rest =>
    cases which
    obtain ⟨v, found, same⟩ := Option.map_eq_some_iff.1 taken
    obtain ⟨rfl, rfl⟩ := Prod.mk.inj same
    have others := rest rfl
    rw [map_fst_blankField] at others
    simp only [List.map_cons, List.cons_subset]
    exact ⟨mem_keys_of_fieldValue? found, others⟩
  | _ => cases which

/-- A record that is written has its attributes for its fields, in some order. -/
theorem Writes.attributes_perm {typeName : String} {listed : List (String × String)}
    {fields : List (String × Value)}
    (h : Writes r (.attributes typeName listed fields) name leaves fragments leaves')
    (once : (listed.map (·.1)).Nodup) (complete : fields.length = listed.length) :
    (listed.map (·.1)).Perm (fields.map (·.1)) :=
  (List.subperm_of_subset once h.attributes_subset).perm_of_length_le (by simp [complete])

/-- Writing meets every leaf of a value once. The induction is on the derivation; a record has as many
fields as its type has attributes, so no field is left over. -/
theorem Writes.leaves_perm (distinct : r.DistinctAttributes)
    (h : Writes r task name leaves fragments leaves') (once : task.Distinct) :
    (task.leaves r).Perm task.ownLeaves := by
  induction h with
  | scalar plain =>
    have scalar := needsExpansion_of_not_isSubstituted plain
    simp only [Task.leaves, Task.ownLeaves, leavesOf_scalar r scalar, Value.leaves_scalar scalar]
    rfl
  | enumeration =>
    rw [Task.leaves, Task.ownLeaves, leavesOf_scalar r rfl, Value.leaves_scalar rfl]
  | emptyArray =>
    simp [Task.leaves, Task.ownLeaves, leavesOf_array, leavesOfItems, Value.leaves,
      Value.itemsLeaves]
  | array _ ih =>
    simp only [Task.leaves, Task.ownLeaves, leavesOf_array, Value.leaves]
    exact ih trivial
  | @record _ _ typeName _ fields _ _ _ definition known complete attributes ih =>
    have apart : (definition.attributes.map (·.1)).Nodup :=
      distinct typeName definition (compositeDefinition_eq_ok known)
    simp only [Task.leaves, Task.ownLeaves, leavesOf_record known, Value.leaves]
    -- attributes and fields have the same names, so the fields are not repeated either
    have named := attributes.attributes_perm apart complete
    rw [fieldsLeaves_eq (named.nodup_iff.1 apart)]
    exact (ih apart).trans (named.flatMap_right _)
  | @dynamic _ _ tag _ _ content _ document _ carried =>
    simp only [Task.leaves, Task.ownLeaves, leavesOf_dynamic r tag carried]
    cases content with
    | payload d =>
      cases carried
      simp [Value.leaves]
    | failure message => cases carried
  | noItems => simp [Task.leaves, Task.ownLeaves, leavesOfItems, Value.itemsLeaves]
  | nextItem _ _ first rest =>
    simp only [Task.leaves, Task.ownLeaves, leavesOfItems_cons, Value.itemsLeaves]
    exact (first trivial).append (rest trivial)
  | noAttributes => simp [Task.leaves, Task.ownLeaves, leavesOfAttributes]
  | @nextAttribute _ attr _ _ others v fields left _ _ _ _ _ taken _ _ first rest =>
    simp only [Task.Distinct, List.map_cons, List.nodup_cons] at once
    obtain ⟨u, found, same⟩ := Option.map_eq_some_iff.1 taken
    obtain ⟨rfl, rfl⟩ := Prod.mk.inj same
    have here : fieldLeaves fields attr = u.leaves := by simp [fieldLeaves, found]
    -- the field that was taken is none of those that are still asked for
    have there : ∀ other ∈ others.map (·.1),
        fieldLeaves fields other = fieldLeaves (blankField attr fields) other := by
      intro other hother
      have differs : attr ≠ other := fun same => once.1 (same ▸ hother)
      simp only [fieldLeaves, fieldValue?_blankField_of_ne differs]
    simp only [Task.leaves, Task.ownLeaves, leavesOfAttributes_cons taken, List.map_cons,
      List.flatMap_cons, here, List.flatMap_congr there]
    exact (first trivial).append (rest once.2)

/-! ## 2. The names of a fragment -/

/-- The names of a fragment are bound. -/
theorem Writes.exists_of_mem (h : Writes r task name leaves fragments leaves')
    (free : task.BindsOwn → leaves.params.get? name = none) {n : String}
    (hn : n ∈ Fragment.itemNames fragments) : ∃ v, leaves'.params.get? n = some v := by
  have leaf := List.mem_map_of_mem (f := leaves'.params.get?) hn
  rw [h.map_names free] at leaf
  obtain ⟨v, -, bound⟩ := List.mem_map.1 leaf
  exact ⟨v, bound.symm⟩

/-- Only the names of a fragment are bound. -/
theorem Writes.get?_of_not_mem (h : Writes r task name leaves fragments leaves') {n : String}
    (hn : n ∉ Fragment.itemNames fragments) : leaves'.params.get? n = leaves.params.get? n := by
  induction h with
  | scalar | enumeration =>
    apply get?_bind_of_ne
    simpa [Fragment.itemNames, Fragment.names] using hn
  | emptyArray | noItems | noAttributes => rfl
  | array _ ih | record _ _ _ ih =>
    apply ih
    simpa [Fragment.itemNames, Fragment.names] using hn
  | dynamic =>
    simp only [Fragment.itemNames, Fragment.names, List.append_nil, List.cons_append,
      List.nil_append, List.mem_cons, List.not_mem_nil, or_false, not_or] at hn
    rw [get?_bind_of_ne hn.2, get?_bind_of_ne hn.1]
  | nextItem _ _ first rest | nextAttribute _ _ _ first rest =>
    rw [itemNames_cons, List.mem_append, not_or] at hn
    rw [rest hn.2, first hn.1]

/-- Names of a later part were free when an earlier part was written, so they are none of its names. -/
theorem disjoint_names {one other : Task} {base later : String} {leaves₁ leaves₂ : Leaves}
    {fragment : Fragment} {others : List Fragment}
    (first : Writes r one (leaves.fresh base) leaves [fragment] leaves₁)
    (rest : Writes r other later leaves₁ others leaves₂) (unnamed : ¬ other.BindsOwn) :
    List.Disjoint (Fragment.itemNames [fragment]) (Fragment.itemNames others) := by
  intro n hfirst hrest
  obtain ⟨v, bound⟩ := first.exists_of_mem
    (fun _ => get?_of_not_taken (Leaves.fresh_not_taken _ _)) hfirst
  have free := (rest.free_of_mem hrest).resolve_right fun own => unnamed own.1
  rw [Leaves.taken_of_get? bound] at free
  cases free

/-- No name of a fragment is used twice. -/
theorem Writes.nodup_names (h : Writes r task name leaves fragments leaves') :
    (Fragment.itemNames fragments).Nodup := by
  induction h with
  | scalar | enumeration | emptyArray | noItems | noAttributes =>
    simp [Fragment.itemNames, Fragment.names]
  | array _ ih | record _ _ _ ih =>
    rw [itemNames_singleton, Fragment.names]
    exact ih
  | @dynamic _ _ _ name _ _ leaves =>
    simpa [Fragment.itemNames, Fragment.names] using fresh_tag_ne_payload leaves name
  | nextItem one others first rest =>
    rw [itemNames_cons]
    exact first.append rest (disjoint_names one others id)
  | nextAttribute _ one others first rest =>
    rw [itemNames_cons]
    exact first.append rest (disjoint_names one others id)

/-! ## 3. The names of a statement -/

variable {params : Params} {used done : List String} {w w' : Substitution}

/-- What is bound so far are the names of the fragments, each name in one place only. -/
structure Ledger (w : Substitution) : Prop where
  bound : ∀ {m : String} {u : Value}, w.leaves.params.get? m = some u →
    ∃ n f, entryValue? n w.fragments = some f ∧ m ∈ f.names
  once : ∀ {n : String} {f : Fragment}, entryValue? n w.fragments = some f → f.names.Nodup
  apart : ∀ {n n' : String} {f f' : Fragment}, n ≠ n' → entryValue? n w.fragments = some f →
    entryValue? n' w.fragments = some f' → List.Disjoint f.names f'.names

theorem ledger_start (params : Params) (used : List String) :
    Ledger ⟨[], params, ⟨used, .empty⟩⟩ where
  bound h := nomatch h
  once h := nomatch h
  apart _ h := nomatch h

/-- The names of a fragment of the account are bound. -/
theorem Account.exists_of_mem (h : Account r params used done w) {n m : String} {f : Fragment}
    (entry : entryValue? n w.fragments = some f) (hm : m ∈ f.names) :
    ∃ u, w.leaves.params.get? m = some u := by
  obtain ⟨-, v, -, -, bindings⟩ := h.fragments entry
  have leaf := List.mem_map_of_mem (f := w.leaves.params.get?) hm
  rw [bindings] at leaf
  obtain ⟨u, -, bound⟩ := List.mem_map.1 leaf
  exact ⟨u, bound.symm⟩

/-- A fragment that is written next has names of its own. -/
theorem Ledger.write (ledger : Ledger w) (account : Account r params used done w) {name : String}
    (inUse : name ∈ used) (new : name ∉ done) {v : Value} {fragment : Fragment}
    (written : Writes r (.value none false v) name w.leaves [fragment] leaves') :
    Ledger ⟨w.fragments ++ [(name, fragment)], w.params.erase name, leaves'⟩ := by
  obtain ⟨absent, free⟩ := account.get?_of_new inUse new
  have entry := entryValue?_concat absent fragment
  -- a name of the fragment was not bound before, and the names of the other fragments were
  have unbound : ∀ m ∈ fragment.names, w.leaves.params.get? m = none := by
    intro m hm
    rw [← itemNames_singleton] at hm
    rcases written.free_of_mem hm with untaken | ⟨-, rfl⟩
    · exact get?_of_not_taken untaken
    · exact free
  have apart : ∀ {n : String} {f : Fragment}, entryValue? n w.fragments = some f →
      List.Disjoint f.names fragment.names := by
    intro n f had m hm hm'
    obtain ⟨u, bound⟩ := account.exists_of_mem had hm
    rw [unbound m hm'] at bound
    cases bound
  refine ⟨?bound, ?once, ?apart⟩
  case bound =>
    intro m u bound
    by_cases hm : m ∈ fragment.names
    · exact ⟨name, fragment, by rw [entry, if_pos rfl], hm⟩
    · rw [written.get?_of_not_mem (by rwa [itemNames_singleton])] at bound
      obtain ⟨n, f, had, mem⟩ := ledger.bound bound
      refine ⟨n, f, ?_, mem⟩
      rw [entry, if_neg ?_]
      · exact had
      · rintro rfl
        simp [absent] at had
  case once =>
    intro n f had
    rw [entry] at had
    split at had
    · cases had
      rw [← itemNames_singleton]
      exact written.nodup_names
    · exact ledger.once had
  case apart =>
    intro n n' f f' differ had had'
    rw [entry] at had had'
    split at had
    · rename_i same
      cases had
      rw [if_neg fun same' => differ (same.symm.trans same')] at had'
      exact List.disjoint_symm (apart had')
    · split at had'
      · cases had'
        exact apart had
      · exact ledger.apart differ had had'

theorem Ledger.step (ledger : Ledger w) (account : Account r params used done w) {name : String}
    (inUse : name ∈ used) (new : name ∉ done) (step : Substitutes r params name w w') : Ledger w' := by
  cases step with
  | passed => exact ledger
  | written _ _ written => exact ledger.write account inUse new written

theorem ledger_of_substitution {sql : String} (ok : substitution r sql params = .ok w) :
    Ledger w := by
  refine (keeps_of_substitution (I := fun _ w => Ledger w) ok (ledger_start params _) ?_).2
  intro done w w' name within new account ledger step
  have mentioned := Query.mem_distinct.1 (within.subset List.mem_concat_self)
  exact ledger.step account (mem_usedNames mentioned) new step

/-! ## 4. Entries of an expansion -/

/-- The structured parameters that a statement mentions, each once. -/
def structuredNames (sql : String) (params : Params) : List String :=
  (Query.distinct (names (tokens sql))).filter (isStructured params)

theorem mem_structuredNames {sql n : String} :
    n ∈ structuredNames sql params ↔ n ∈ names (tokens sql) ∧ isStructured params n = true := by
  rw [structuredNames, List.mem_filter, Query.mem_distinct]

/-- The entries of an expansion, given the names minted for each structured parameter. -/
structure Conserves (sql : String) (params : Params) (e : Expanded) (minted : String → List String) :
    Prop where
  /-- All other parameters pass through, also structured ones that the statement does not mention. -/
  kept : ∀ {n : String} {v : Value}, params.get? n = some v → n ∉ structuredNames sql params →
    e.params.get? n = some v
  /-- A structured parameter that the statement mentions is taken out. -/
  removed : ∀ n ∈ structuredNames sql params, e.params.get? n = none
  /-- Each minted name stands for its own leaf. -/
  leaves : ∀ n ∈ structuredNames sql params, ∀ v, params.get? n = some v →
    (minted n).map e.params.get? = v.leaves.map some
  /-- No name is minted twice, for one parameter or for two. -/
  distinct : ((structuredNames sql params).flatMap minted).Nodup
  /-- Minted names are clear of the names of the caller and of the statement. -/
  clear : ∀ n ∈ structuredNames sql params, ∀ m ∈ minted n, m ∉ params.keys ∧ m ∉ names (tokens sql)
  /-- There are no other entries. -/
  complete : ∀ {m : String} {u : Value}, e.params.get? m = some u →
    (params.get? m = some u ∧ m ∉ structuredNames sql params)
      ∨ ∃ n ∈ structuredNames sql params, m ∈ minted n

/-- Names of values can be put in the order of another list of the same values. -/
theorem exists_perm_map_eq {α β : Type} {f : α → β} {xs : List α} {ys : List β}
    (h : (xs.map f).Perm ys) : ∃ xs' : List α, xs'.Perm xs ∧ xs'.map f = ys := by
  generalize same : xs.map f = zs at h
  induction h generalizing xs with
  | nil => exact ⟨xs, .refl _, same⟩
  | @cons y zs ys _ ih =>
    obtain ⟨x, rest, rfl, rfl, hrest⟩ := List.map_eq_cons_iff.1 same
    obtain ⟨rest', perm, mapped⟩ := ih hrest
    exact ⟨x :: rest', perm.cons x, by rw [List.map_cons, mapped]⟩
  | swap y z ys =>
    obtain ⟨x, rest, rfl, rfl, hrest⟩ := List.map_eq_cons_iff.1 same
    obtain ⟨x', rest', rfl, rfl, rfl⟩ := List.map_eq_cons_iff.1 hrest
    exact ⟨x' :: x :: rest', .swap x x' rest', rfl⟩
  | trans _ _ first second =>
    obtain ⟨xs', perm, mapped⟩ := first same
    obtain ⟨xs'', perm', mapped'⟩ := second mapped
    exact ⟨xs'', perm'.trans perm, mapped'⟩

/-- The fragment of a structured parameter has minted names only, that of a label its own name. -/
theorem Account.names_of_entry (h : Account r params used done w) {n : String} {f : Fragment}
    (entry : entryValue? n w.fragments = some f) :
    (isStructured params n = true ∧ ∀ m ∈ f.names, m ∉ used)
      ∨ (isStructured params n = false ∧ f.names = [n]) := by
  obtain ⟨-, v, value, ⟨asks, leaves, leaves', reserved, written⟩, -⟩ := h.fragments entry
  rw [isStructured_of_get? value]
  cases needs : v.needsExpansion with
  | true =>
    refine .inl ⟨rfl, fun m hm inUse => ?_⟩
    rw [← itemNames_singleton] at hm
    -- a structured value has no name of its own, so every name was free
    rcases written.free_of_mem hm with free | ⟨own, -⟩
    · simp [Leaves.taken, reserved, inUse] at free
    · simp [Task.BindsOwn, needs] at own
  | false =>
    refine .inr ⟨rfl, ?_⟩
    cases written with
    | scalar plain => simp [plain] at asks
    | enumeration => rfl
    | emptyArray | array | record | dynamic => cases needs

/-- A parameter that the statement does not mention is passed through. -/
theorem Account.get?_of_unmentioned (h : Account r params used done w) {n : String}
    (inUse : n ∈ used) (unmet : n ∉ done) :
    (w.leaves.params.get? n).or (w.params.get? n) = params.get? n := by
  obtain ⟨absent, free⟩ := h.get?_of_new inUse unmet
  simp [free, h.rest n, absent]

/-- An expansion with the substitution that it comes from. -/
structure Expands (r : Registry) (sql : String) (params : Params) (w : Substitution) (e : Expanded) :
    Prop where
  account : Account r params (usedNames sql params) (Query.distinct (names (tokens sql))) w
  ledger : Ledger w
  values : ∀ n, e.params.get? n = (w.leaves.params.get? n).or (w.params.get? n)

theorem expands_of_expand {sql : String} {e : Expanded} (ok : expand r sql params = .ok e) :
    ∃ w, Expands r sql params w e := by
  obtain ⟨w, found, -, values⟩ := substitution_of_expand ok
  exact ⟨w, account_of_substitution found, ledger_of_substitution found, values⟩

namespace Expands

variable {sql : String} {e : Expanded}

/-- Every structured parameter that is mentioned has its fragment. -/
theorem exists_fragment (h : Expands r sql params w e) {n : String}
    (hn : n ∈ structuredNames sql params) :
    ∃ v f, params.get? n = some v ∧ entryValue? n w.fragments = some f
      ∧ MintedFor r sql params e n v (mintedNames w.fragments n) := by
  obtain ⟨mentioned, structured⟩ := mem_structuredNames.1 hn
  obtain ⟨v, value, needs⟩ := exists_of_isStructured structured
  have met := Query.mem_distinct.2 mentioned
  obtain ⟨f, entry⟩ := h.account.complete met value (isSubstituted_of_needsExpansion needs)
  exact ⟨v, f, value, entry, h.account.mintedFor h.values met value needs⟩

/-- The names minted for a parameter can be put in the order of its leaves. -/
theorem exists_ordered (h : Expands r sql params w e) (distinct : r.DistinctAttributes) (n : String) :
    ∃ minted : List String, minted.Perm (mintedNames w.fragments n) ∧
      ∀ v, n ∈ structuredNames sql params → params.get? n = some v →
        minted.map e.params.get? = v.leaves.map some := by
  by_cases hn : n ∈ structuredNames sql params
  · obtain ⟨v, f, value, -, mintedFor⟩ := h.exists_fragment hn
    obtain ⟨leaves, leaves', f, -, written, -⟩ := mintedFor.written
    have perm : (leavesOf r v).Perm v.leaves := (writes_iff.2 written).leaves_perm distinct trivial
    obtain ⟨minted, same, mapped⟩ := exists_perm_map_eq (mintedFor.bound ▸ perm.map some)
    refine ⟨minted, same, fun u _ hu => ?_⟩
    obtain rfl : v = u := Option.some.inj (value.symm.trans hu)
    exact mapped
  · exact ⟨mintedNames w.fragments n, .refl _, fun v hn' => absurd hn' hn⟩

/-- What is not structured, or not mentioned, keeps its value. -/
theorem get?_of_kept (h : Expands r sql params w e) {n : String} {v : Value}
    (value : params.get? n = some v) (hn : n ∉ structuredNames sql params) :
    e.params.get? n = some v := by
  have inUse : n ∈ usedNames sql params := List.mem_append_left _ (Dict.mem_keys_of_get? value)
  rw [h.values n, ← value]
  by_cases mentioned : n ∈ names (tokens sql)
  · apply h.account.get?_of_kept inUse
    by_contra structured
    exact hn (mem_structuredNames.2 ⟨mentioned, by simpa using structured⟩)
  · exact h.account.get?_of_unmentioned inUse fun met => mentioned (Query.mem_distinct.1 met)

/-- The name of a structured parameter that is mentioned stands for nothing. -/
theorem get?_of_structured (h : Expands r sql params w e) {n : String}
    (hn : n ∈ structuredNames sql params) : e.params.get? n = none := by
  obtain ⟨mentioned, structured⟩ := mem_structuredNames.1 hn
  obtain ⟨v, f, -, entry, -⟩ := h.exists_fragment hn
  have unbound : w.leaves.params.get? n = none := by
    by_contra bound
    obtain ⟨u, bound⟩ := Option.ne_none_iff_exists'.1 bound
    obtain ⟨n', f', entry', hm⟩ := h.ledger.bound bound
    -- minted names are not in use, and a label is bound under no name but its own
    rcases h.account.names_of_entry entry' with ⟨-, unused⟩ | ⟨kept, own⟩
    · exact unused n hm (mem_usedNames mentioned)
    · rw [own, List.mem_singleton] at hm
      rw [← hm, structured] at kept
      cases kept
  simp [h.values n, unbound, h.account.rest n, entry]

/-- No name is minted twice. -/
theorem nodup_mintedNames (h : Expands r sql params w e) :
    ((structuredNames sql params).flatMap (mintedNames w.fragments)).Nodup := by
  refine List.nodup_flatMap.2 ⟨fun n hn => ?_, ?_⟩
  · obtain ⟨v, f, -, entry, -⟩ := h.exists_fragment hn
    rw [mintedNames_of_entry entry]
    exact h.ledger.once entry
  · refine ((Query.nodup_distinct _).filter _).pairwise_of_forall_ne fun n hn n' hn' differ => ?_
    obtain ⟨v, f, -, entry, -⟩ := h.exists_fragment hn
    obtain ⟨v', f', -, entry', -⟩ := h.exists_fragment hn'
    simp only [Function.onFun, mintedNames_of_entry entry, mintedNames_of_entry entry']
    exact h.ledger.apart differ entry entry'

/-- Every entry was passed through or stands under a minted name. -/
theorem kept_or_minted (h : Expands r sql params w e) {m : String} {u : Value}
    (hm : e.params.get? m = some u) :
    (params.get? m = some u ∧ m ∉ structuredNames sql params)
      ∨ ∃ n ∈ structuredNames sql params, m ∈ mintedNames w.fragments n := by
  rw [h.values m] at hm
  cases bound : w.leaves.params.get? m with
  | some u' =>
    obtain rfl : u' = u := by simpa [bound] using hm
    obtain ⟨n, f, entry, mem⟩ := h.ledger.bound bound
    have mentioned : n ∈ names (tokens sql) := Query.mem_distinct.1 (h.account.fragments entry).1
    rcases h.account.names_of_entry entry with ⟨structured, -⟩ | ⟨kept, own⟩
    · refine .inr ⟨n, mem_structuredNames.2 ⟨mentioned, structured⟩, ?_⟩
      rwa [mintedNames_of_entry entry]
    · -- a label is bound to itself again
      rw [own, List.mem_singleton] at mem
      subst mem
      refine .inl ⟨(h.account.own (mem_usedNames mentioned) bound).1, fun hm => ?_⟩
      rw [(mem_structuredNames.1 hm).2] at kept
      cases kept
  | none =>
    rw [bound, Option.none_or, h.account.rest m] at hm
    split at hm
    · cases hm
    · rename_i absent
      refine .inl ⟨hm, fun structured => absent ?_⟩
      obtain ⟨v, f, -, entry, -⟩ := h.exists_fragment structured
      simp [entry]

end Expands

/-- **Expansion never captures, overwrites, drops or invents a parameter.** Where no type has two
attributes of one name, the entries of an expansion are the parameters that were passed through, and one
for each leaf of each structured parameter that the statement mentions, under a name of its own. -/
theorem expand_conserves (distinct : r.DistinctAttributes) {sql : String} {e : Expanded}
    (ok : expand r sql params = .ok e) : ∃ minted, Conserves sql params e minted := by
  obtain ⟨w, h⟩ := expands_of_expand ok
  choose minted perm leaves using h.exists_ordered distinct
  have same : ∀ n m, m ∈ minted n ↔ m ∈ mintedNames w.fragments n := fun n _ => (perm n).mem_iff
  refine ⟨minted, ?_⟩
  constructor
  case kept => exact fun value hn => h.get?_of_kept value hn
  case removed => exact fun n hn => h.get?_of_structured hn
  case leaves => exact fun n hn v value => leaves n v hn value
  case distinct =>
    have together := List.Perm.flatMap_left (structuredNames sql params) fun n _ => perm n
    exact together.nodup_iff.2 h.nodup_mintedNames
  case clear =>
    intro n hn m hm
    obtain ⟨v, f, -, -, mintedFor⟩ := h.exists_fragment hn
    simpa [usedNames] using mintedFor.unused m ((same n m).1 hm)
  case complete =>
    intro m u hm
    simpa only [same] using h.kept_or_minted hm

theorem distinctAttributes_spots : spots.DistinctAttributes := fun name d found =>
  (plain_spots.composites name d found).2.1

/-- Two spots among parameters whose names might be minted for them. -/
theorem expand_conserves_amongOthers :
    spots.DistinctAttributes ∧ ∃ e, expand spots amongOthers clashing = .ok e
      ∧ ∃ minted, Conserves amongOthers clashing e minted := by
  have succeeds : (expand spots amongOthers clashing).toOption.isSome = true := by cbv
  refine ⟨distinctAttributes_spots, ?_⟩
  cases ok : expand spots amongOthers clashing with
  | error error =>
    rw [ok] at succeeds
    cases succeeds
  | ok e => exact ⟨e, rfl, expand_conserves distinctAttributes_spots ok⟩

end Expansion

end TypedStore
