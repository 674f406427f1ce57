/-
Which names expansion mints. The search for a name tries the base, then the base with 2, 3 and so on
behind it, and ends with the first that is free (`Leaves.firstFree_fresh`). The components of a value lie
along paths, which are the bases that writing tries; only leaves take a name. So as long as no path is in
use from the start and none is that of an earlier leaf, every base is free when it is tried, and each leaf
is bound under its own path, in the statement as well as among the parameters (`names_minted`).
-/
import TypedStore.Proofs.Expansion.Conservation

set_option autoImplicit false

namespace TypedStore

open TypedStore.Text TypedStore.Statement

/-! ## 1. The search -/

namespace Leaves

variable {leaves : Leaves} {base name other : String} {j k : Nat}

/-- The search for a name from its `k`-th try on: behind a candidate in use comes the next one, and a
candidate that is free ends the search. -/
inductive Search (leaves : Leaves) (base : String) : Nat → String → Prop where
  | found {k : Nat} (free : leaves.taken (candidate base k) = false) :
      Search leaves base k (candidate base k)
  | next {k : Nat} {name : String} (used : leaves.taken (candidate base k) = true)
      (rest : Search leaves base (k + 1) name) : Search leaves base k name

/-- Candidates in use are passed. The induction is on their number. -/
theorem Search.of_used {n : Nat} (used : ∀ i < n, leaves.taken (candidate base (k + i)) = true)
    (rest : leaves.Search base (k + n) name) : leaves.Search base k name := by
  induction n generalizing k with
  | zero => exact rest
  | succ n ih =>
    refine .next (used 0 (Nat.succ_pos n)) (ih (fun i hi => ?_) ?_)
    · have passed := used (i + 1) (by omega)
      rwa [show k + (i + 1) = k + 1 + i by omega] at passed
    · rwa [show k + (n + 1) = k + 1 + n by omega] at rest

theorem Search.unique (h : leaves.Search base k name) (h' : leaves.Search base k other) :
    name = other := by
  induction h with
  | found free =>
    cases h' with
    | found => rfl
    | next used =>
      rw [free] at used
      cases used
  | next used _ ih =>
    cases h' with
    | found free =>
      rw [free] at used
      cases used
    | next _ rest => exact ih rest

/-- A name is the first free one for a base: the search for a name ends, and with this one. It is the
base, if that is free, and else the base with the least number from two on that makes it free; fewer
candidates are in use than there are names in use. -/
structure FirstFree (leaves : Leaves) (base name : String) : Prop where
  ends : ∀ other, leaves.Search base 0 other ↔ other = name
  own : leaves.taken base = false → name = base
  numbered : leaves.taken base = true → ∃ k, 2 ≤ k ∧ k ≤ leaves.reserved.length + leaves.params.size + 1
    ∧ name = base ++ "_" ++ natText k ∧ leaves.taken name = false
    ∧ ∀ j, 2 ≤ j → j < k → leaves.taken (base ++ "_" ++ natText j) = true

theorem firstFree_fresh (leaves : Leaves) (base : String) :
    leaves.FirstFree base (leaves.fresh base) := by
  obtain ⟨k, few, same, free, before⟩ := leaves.fresh_least base
  have search : leaves.Search base 0 (leaves.fresh base) := by
    rw [same]
    refine Search.of_used (n := k) (fun i hi => ?_) ?_
    · rw [Nat.zero_add]
      exact before i hi
    · rw [Nat.zero_add]
      exact .found free
  refine ⟨fun other => ⟨fun h => h.unique search, fun h => h ▸ search⟩, fun own => ?_, fun used => ?_⟩
  · -- the base itself is the first candidate
    by_cases first : k = 0
    · rw [same, first, candidate]
    · have taken := before 0 (by omega)
      rw [candidate, own] at taken
      cases taken
  · have later : k ≠ 0 := by
      rintro rfl
      rw [candidate, used] at free
      cases free
    obtain ⟨m, rfl⟩ : ∃ m, k = m + 1 := ⟨k - 1, by omega⟩
    refine ⟨m + 2, by omega, by omega, same, same ▸ free, fun j two least => ?_⟩
    have passed := before (j - 1) (by omega)
    rwa [show j - 1 = (j - 2) + 1 by omega, candidate, show j - 2 + 2 = j by omega] at passed

theorem fresh_of_free (h : leaves.taken base = false) : leaves.fresh base = base :=
  (leaves.firstFree_fresh base).own h

end Leaves

namespace Expansion

/-! ## 2. Paths -/

mutual

/-- The components of a value that stands under a name, each with its path, depth first: items are numbered
from one, fields are called by their attributes, and a self describing value has a tag and a document. -/
def components (r : Registry) (name : String) (value : Value) : List (String × Value) :=
  match value with
  | .array items => itemComponents r name 0 items
  | .record typeName fields =>
    match r.composites.get? typeName with
    | some definition => attributeComponents r name definition.attributes fields
    | none => []
  | .dynamic tag (.payload document) =>
    [(attributePath name dynamicTagAttribute, .text tag),
      (attributePath name dynamicPayloadAttribute, .document document)]
  | _ => []
termination_by (value.weight, 0)
decreasing_by
  all_goals simp only [Prod.lex_def, Value.weight]; omega

/-- The items of an array from an index on, each before its components. -/
def itemComponents (r : Registry) (name : String) (index : Nat) (items : List Value) :
    List (String × Value) :=
  match items with
  | [] => []
  | v :: rest =>
    (itemPath name index, v) :: components r (itemPath name index) v
      ++ itemComponents r name (index + 1) rest
termination_by (Value.itemsWeight items, 0)
decreasing_by
  all_goals simp only [Prod.lex_def, Value.itemsWeight]; omega

/-- The fields of a record in the order of the attributes, each before its components. -/
def attributeComponents (r : Registry) (name : String) (attributes : List (String × String))
    (fields : List (String × Value)) : List (String × Value) :=
  match attributes with
  | [] => []
  | (attr, _) :: others =>
    match _taken : takeField? attr fields with
    | none => []
    | some (v, left) =>
      (attributePath name attr, v) :: components r (attributePath name attr) v
        ++ attributeComponents r name others left
termination_by (Value.fieldsWeight fields, attributes.length)
decreasing_by
  all_goals
    have := weight_takeField? _taken
    simp only [Prod.lex_def, List.length_cons]
    omega

end

/-- Whether a component is a leaf. -/
def isLeaf (c : String × Value) : Bool := !c.2.needsExpansion

/-- The leaves of a value that stands under a name, each with its path. -/
def leavesByPath (r : Registry) (name : String) (v : Value) : List (String × Value) :=
  ((name, v) :: components r name v).filter isLeaf

/-- The components of what there is to write. -/
def Task.components (r : Registry) (name : String) : Task → List (String × Value)
  | .value _ _ v => Expansion.components r name v
  | .items _ index vs => itemComponents r name index vs
  | .attributes _ listed fields => attributeComponents r name listed fields

/-- The leaves of what there is to write. -/
def Task.leavesByPath (r : Registry) (name : String) : Task → List (String × Value)
  | .value _ _ v => Expansion.leavesByPath r name v
  | .items _ index vs => (itemComponents r name index vs).filter isLeaf
  | .attributes _ listed fields => (attributeComponents r name listed fields).filter isLeaf

section Paths

variable {r : Registry} {name : String} {v : Value}

theorem components_scalar (r : Registry) (name : String) (plain : v.needsExpansion = false) :
    components r name v = [] := by
  cases v with
  | array | record | dynamic => cases plain
  | _ => rw [components] <;> simp

theorem components_array (r : Registry) (name : String) (vs : List Value) :
    components r name (.array vs) = itemComponents r name 0 vs := by rw [components]

theorem components_record {typeName : String} {definition : CompositeDefinition}
    (known : r.compositeDefinition typeName = .ok definition) (fields : List (String × Value)) :
    components r name (.record typeName fields)
      = attributeComponents r name definition.attributes fields := by
  rw [components, compositeDefinition_eq_ok known]

theorem components_dynamic (r : Registry) (name tag : String) {content : DynamicContent}
    {document : Document} (carried : content.document = .ok document) :
    components r name (.dynamic tag content)
      = [(attributePath name dynamicTagAttribute, .text tag),
        (attributePath name dynamicPayloadAttribute, .document document)] := by
  cases content with
  | payload d =>
    cases carried
    rw [components]
  | failure message => cases carried

theorem itemComponents_cons (r : Registry) (name : String) (index : Nat) (v : Value) (vs : List Value) :
    itemComponents r name index (v :: vs)
      = (itemPath name index, v) :: components r (itemPath name index) v
        ++ itemComponents r name (index + 1) vs := by rw [itemComponents]

theorem attributeComponents_cons {attr attrType : String} {others : List (String × String)}
    {fields left : List (String × Value)} (taken : takeField? attr fields = some (v, left)) :
    attributeComponents r name ((attr, attrType) :: others) fields
      = (attributePath name attr, v) :: components r (attributePath name attr) v
        ++ attributeComponents r name others left := by
  rw [attributeComponents]
  split
  · rename_i none
    rw [taken] at none
    cases none
  · rename_i found
    rw [taken] at found
    cases found
    rfl

theorem leavesByPath_scalar (r : Registry) (name : String) (plain : v.needsExpansion = false) :
    leavesByPath r name v = [(name, v)] := by
  simp [leavesByPath, components_scalar r name plain, isLeaf, plain]

theorem leavesByPath_structured (r : Registry) (name : String) (needs : v.needsExpansion = true) :
    leavesByPath r name v = (components r name v).filter isLeaf := by
  simp [leavesByPath, isLeaf, needs]

theorem leavesByPath_array (r : Registry) (name : String) (vs : List Value) :
    leavesByPath r name (.array vs) = (itemComponents r name 0 vs).filter isLeaf := by
  rw [leavesByPath_structured r name rfl, components_array]

theorem leavesByPath_record {typeName : String} {definition : CompositeDefinition}
    (known : r.compositeDefinition typeName = .ok definition) (fields : List (String × Value)) :
    leavesByPath r name (.record typeName fields)
      = (attributeComponents r name definition.attributes fields).filter isLeaf := by
  rw [leavesByPath_structured r name rfl, components_record known]

theorem leavesByPath_dynamic (r : Registry) (name tag : String) {content : DynamicContent}
    {document : Document} (carried : content.document = .ok document) :
    leavesByPath r name (.dynamic tag content)
      = [(attributePath name dynamicTagAttribute, .text tag),
        (attributePath name dynamicPayloadAttribute, .document document)] := by
  rw [leavesByPath_structured r name rfl, components_dynamic r name tag carried]
  rfl

/-- The leaves of a component and of those behind it. -/
theorem filter_isLeaf_append (r : Registry) (path : String) (v : Value) (later : List (String × Value)) :
    ((path, v) :: components r path v ++ later).filter isLeaf
      = leavesByPath r path v ++ later.filter isLeaf := List.filter_append ..

end Paths

/-! ## 3. Writing names leaves by their paths -/

variable {r : Registry} {task : Task} {name : String} {leaves leaves' : Leaves}
  {fragments : List Fragment}

/-- Writing meets the leaves that lie along the paths, whatever name it starts from. -/
theorem Writes.map_snd_leavesByPath (h : Writes r task name leaves fragments leaves') (base : String) :
    (task.leavesByPath r base).map (·.2) = task.leaves r := by
  induction h generalizing base with
  | scalar plain =>
    have scalar := needsExpansion_of_not_isSubstituted plain
    rw [Task.leavesByPath, Task.leaves, leavesByPath_scalar r base scalar, leavesOf_scalar r scalar,
      List.map_singleton]
  | enumeration =>
    rw [Task.leavesByPath, Task.leaves, leavesByPath_scalar r base rfl, leavesOf_scalar r rfl,
      List.map_singleton]
  | emptyArray =>
    rw [Task.leavesByPath, Task.leaves, leavesByPath_array, leavesOf_array, itemComponents,
      leavesOfItems, List.filter_nil, List.map_nil]
  | array _ ih =>
    rw [Task.leavesByPath, Task.leaves, leavesByPath_array, leavesOf_array]
    exact ih base
  | record known _ _ ih =>
    rw [Task.leavesByPath, Task.leaves, leavesByPath_record known, leavesOf_record known]
    exact ih base
  | dynamic _ carried =>
    rw [Task.leavesByPath, Task.leaves, leavesByPath_dynamic r base _ carried,
      leavesOf_dynamic r _ carried, List.map_cons, List.map_singleton]
  | noItems =>
    rw [Task.leavesByPath, Task.leaves, itemComponents, leavesOfItems, List.filter_nil, List.map_nil]
  | nextItem _ _ first rest =>
    rw [Task.leavesByPath, Task.leaves, itemComponents_cons, leavesOfItems_cons, filter_isLeaf_append,
      List.map_append]
    exact congrArg₂ _ (first _) (rest base)
  | noAttributes =>
    rw [Task.leavesByPath, Task.leaves, attributeComponents, leavesOfAttributes, List.filter_nil,
      List.map_nil]
  | nextAttribute taken _ _ first rest =>
    rw [Task.leavesByPath, Task.leaves, attributeComponents_cons taken, leavesOfAttributes_cons taken,
      filter_isLeaf_append, List.map_append]
    exact congrArg₂ _ (first _) (rest base)

/-- No path is that of a leaf before it. -/
def Unrepeated (paths : List (String × Value)) : Prop :=
  paths.Pairwise fun c later => isLeaf c = true → c.1 ≠ later.1

/-- Writing takes the names of its fragments only. -/
theorem Writes.taken_of_not_mem (h : Writes r task name leaves fragments leaves') {n : String}
    (hn : n ∉ Fragment.itemNames fragments) : leaves'.taken n = leaves.taken n :=
  taken_congr h.reserved (h.get?_of_not_mem hn)

/-- A part that is written under its path leaves the paths behind it free, as its leaves are not repeated
there. -/
theorem free_behind {path : String} {v : Value} {later : List (String × Value)}
    (written : Writes r task name leaves fragments leaves')
    (names : Fragment.itemNames fragments = (leavesByPath r path v).map (·.1))
    (free : ∀ c ∈ later, leaves.taken c.1 = false)
    (apart : ∀ c ∈ (path, v) :: components r path v, ∀ l ∈ later, isLeaf c = true → c.1 ≠ l.1) :
    ∀ c ∈ later, leaves'.taken c.1 = false := by
  intro c hc
  rw [written.taken_of_not_mem, free c hc]
  rw [names]
  intro mem
  obtain ⟨leaf, hleaf, same⟩ := List.mem_map.1 mem
  obtain ⟨component, isLeaf⟩ := List.mem_filter.1 hleaf
  exact apart leaf component c hc isLeaf same

/-- Where the paths are free and none is that of an earlier leaf, the names of a fragment are the paths of
the leaves. The induction is on the derivation: each base is free when it is tried, so it is the name
under which its part is written. -/
theorem Writes.names_eq (h : Writes r task name leaves fragments leaves')
    (free : ∀ c ∈ task.components r name, leaves.taken c.1 = false)
    (once : Unrepeated (task.components r name)) :
    Fragment.itemNames fragments = (task.leavesByPath r name).map (·.1) := by
  induction h with
  | scalar plain =>
    have scalar := needsExpansion_of_not_isSubstituted plain
    rw [itemNames_singleton, Fragment.names, Task.leavesByPath, leavesByPath_scalar r _ scalar,
      List.map_singleton]
  | enumeration =>
    rw [itemNames_singleton, Fragment.names, Task.leavesByPath, leavesByPath_scalar r _ rfl,
      List.map_singleton]
  | emptyArray =>
    rw [itemNames_singleton, Fragment.names, Task.leavesByPath, leavesByPath_array, itemComponents,
      List.filter_nil, List.map_nil]
  | array _ ih =>
    rw [Task.components, components_array] at free once
    rw [itemNames_singleton, Fragment.names, Task.leavesByPath, leavesByPath_array]
    exact ih free once
  | record known _ _ ih =>
    rw [Task.components, components_record known] at free once
    rw [itemNames_singleton, Fragment.names, Task.leavesByPath, leavesByPath_record known]
    exact ih free once
  | @dynamic _ _ _ name _ _ leaves _ _ carried =>
    rw [Task.components, components_dynamic r name _ carried] at free
    have tag := Leaves.fresh_of_free (free _ List.mem_cons_self)
    have payload := Leaves.fresh_of_free (free _ (List.mem_cons_of_mem _ List.mem_cons_self))
    rw [tag, payload, Task.leavesByPath, leavesByPath_dynamic r name _ carried]
    rfl
  | noItems =>
    rw [Task.leavesByPath, itemComponents, List.filter_nil, List.map_nil, Fragment.itemNames]
  | nextItem one _ first rest =>
    rw [Task.components, itemComponents_cons] at free once
    obtain ⟨onceFirst, onceRest, apart⟩ := List.pairwise_append.1 once
    obtain ⟨own, freeFirst⟩ := List.forall_mem_cons.1 fun c hc => free c (List.mem_append_left _ hc)
    rw [Leaves.fresh_of_free own] at one first
    have names := first freeFirst (List.pairwise_cons.1 onceFirst).2
    have freeRest := free_behind one names (fun c hc => free c (List.mem_append_right _ hc)) apart
    rw [itemNames_cons, names, rest freeRest onceRest, Task.leavesByPath, Task.leavesByPath,
      Task.leavesByPath, itemComponents_cons, filter_isLeaf_append, List.map_append]
  | noAttributes =>
    rw [Task.leavesByPath, attributeComponents, List.filter_nil, List.map_nil, Fragment.itemNames]
  | nextAttribute taken one _ first rest =>
    rw [Task.components, attributeComponents_cons taken] at free once
    obtain ⟨onceFirst, onceRest, apart⟩ := List.pairwise_append.1 once
    obtain ⟨own, freeFirst⟩ := List.forall_mem_cons.1 fun c hc => free c (List.mem_append_left _ hc)
    rw [Leaves.fresh_of_free own] at one first
    have names := first freeFirst (List.pairwise_cons.1 onceFirst).2
    have freeRest := free_behind one names (fun c hc => free c (List.mem_append_right _ hc)) apart
    rw [itemNames_cons, names, rest freeRest onceRest, Task.leavesByPath, Task.leavesByPath,
      Task.leavesByPath, attributeComponents_cons taken, filter_isLeaf_append, List.map_append]

/-! ## 4. Statements -/

/-- The components of the parameter of a name, none where there is no such parameter. -/
def pathsOf (r : Registry) (params : Params) (n : String) : List (String × Value) :=
  ((params.get? n).map (components r n)).getD []

/-- The components of the parameters that a statement mentions, in the order of its names. -/
def paths (r : Registry) (sql : String) (params : Params) : List (String × Value) :=
  (Query.distinct (names (tokens sql))).flatMap (pathsOf r params)

/-- No path is a name in use, and none is that of an earlier leaf. -/
structure PathsFree (used : List String) (paths : List (String × Value)) : Prop where
  unused : ∀ c ∈ paths, c.1 ∉ used
  unrepeated : Unrepeated paths

theorem PathsFree.of_nodup {used : List String} {paths : List (String × Value)}
    (distinct : (paths.map (·.1)).Nodup) (unused : ∀ path ∈ paths.map (·.1), path ∉ used) :
    PathsFree used paths := by
  constructor
  · intro c hc
    exact unused c.1 (List.mem_map_of_mem hc)
  · refine (List.pairwise_map.1 distinct).imp ?_
    intro c later differ _
    exact differ

variable {params : Params} {used done : List String} {w w' : Substitution}

theorem pathsOf_of_get? {n : String} {v : Value} (value : params.get? n = some v) :
    pathsOf r params n = components r n v := by
  rw [pathsOf, value]
  rfl

/-- The names in a fragment are the paths of the leaves of its parameter. -/
def NamedByPath (r : Registry) (params : Params) (w : Substitution) : Prop :=
  ∀ ⦃n : String⦄ ⦃f : Fragment⦄ ⦃v : Value⦄, entryValue? n w.fragments = some f →
    params.get? n = some v → f.names = (leavesByPath r n v).map (·.1)

/-- Where names in fragments are paths, a name that has not been met finds its own paths free. -/
theorem NamedByPath.free (named : NamedByPath r params w) (account : Account r params used done w)
    (ledger : Ledger w) (known : ∀ n ∈ done, n ∈ used) {later : List (String × Value)}
    (unused : ∀ l ∈ later, l.1 ∉ used)
    (apart : ∀ c ∈ done.flatMap (pathsOf r params), ∀ l ∈ later, isLeaf c = true → c.1 ≠ l.1) :
    ∀ l ∈ later, w.leaves.taken l.1 = false := by
  intro l hl
  have clear : w.leaves.reserved.contains l.1 = false := by
    simpa [account.reserved] using unused l hl
  cases bound : w.leaves.params.get? l.1 with
  | none => rw [Leaves.taken, clear, Dict.contains, bound, Option.isSome_none, Bool.or_false]
  | some u =>
    exfalso
    obtain ⟨n, f, entry, mem⟩ := ledger.bound bound
    obtain ⟨met, v, value, -, -⟩ := account.fragments entry
    rw [named entry value] at mem
    obtain ⟨leaf, hleaf, same⟩ := List.mem_map.1 mem
    obtain ⟨component, isLeaf⟩ := List.mem_filter.1 hleaf
    rcases List.mem_cons.1 component with rfl | component
    · -- a label is bound under its own name, which is in use
      exact unused l hl (same ▸ known n met)
    · rw [← pathsOf_of_get? value] at component
      exact apart leaf (List.mem_flatMap.2 ⟨n, met, component⟩) l hl isLeaf same

theorem NamedByPath.step (named : NamedByPath r params w) (account : Account r params used done w)
    {name : String} (inUse : name ∈ used) (new : name ∉ done)
    (free : ∀ c ∈ pathsOf r params name, w.leaves.taken c.1 = false)
    (once : Unrepeated (pathsOf r params name)) (step : Substitutes r params name w w') :
    NamedByPath r params w' := by
  cases step with
  | passed => exact named
  | written value asks written =>
    obtain ⟨absent, -⟩ := account.get?_of_new inUse new
    intro n f u entry given
    rw [entryValue?_concat absent] at entry
    split at entry
    · rename_i own
      subst own
      cases entry
      rw [pathsOf_of_get? value] at free once
      rw [← itemNames_singleton, ← Option.some.inj (value.symm.trans given)]
      exact written.names_eq free once
    · exact named entry given

/-- Where paths are free, the names of a substitution are paths. Account and ledger tell which names the
earlier fragments have taken. -/
theorem namedByPath_of_substitution {sql : String}
    (free : PathsFree (usedNames sql params) (paths r sql params))
    (ok : substitution r sql params = .ok w) : NamedByPath r params w := by
  refine (keeps_of_substitution (I := fun _ w => Ledger w ∧ NamedByPath r params w) ok
    ⟨ledger_start params _, fun _ _ _ entry => nomatch entry⟩ ?_).2.2
  rintro done w w' name ⟨rest, parts⟩ new account ⟨ledger, named⟩ step
  have known : ∀ n ∈ done ++ [name], n ∈ usedNames sql params := by
    intro n hn
    apply mem_usedNames
    apply Query.mem_distinct.1
    rw [← parts]
    exact List.mem_append_left _ hn
  have inUse := known name List.mem_concat_self
  refine ⟨ledger.step account inUse new step, ?_⟩
  obtain ⟨unused, order⟩ := free
  rw [paths, ← parts, List.flatMap_append, List.flatMap_append, List.flatMap_singleton] at unused order
  -- the paths of this name are behind those of the names before it
  obtain ⟨met, -, -⟩ := List.pairwise_append.1 order
  obtain ⟨-, once, apart⟩ := List.pairwise_append.1 met
  have untaken := named.free account ledger (fun n hn => known n (List.mem_append_left _ hn))
    (fun c hc => unused c (List.mem_append_left _ (List.mem_append_right _ hc))) apart
  exact named.step account inUse new untaken once step

/-- Every leaf is bound under its path. -/
structure BoundByPath (r : Registry) (sql : String) (params : Params) (e : Expanded) : Prop where
  /-- The leaves of each parameter that the statement mentions stand under their paths. -/
  leaves : ∀ n ∈ names (tokens sql), ∀ v, params.get? n = some v →
    ∀ leaf ∈ leavesByPath r n v, e.params.get? leaf.1 = some leaf.2
  /-- All other entries are those of parameters that pass through. -/
  complete : ∀ m u, e.params.get? m = some u →
    (params.get? m = some u ∧ m ∉ structuredNames sql params)
      ∨ ∃ n ∈ structuredNames sql params, ∃ v, params.get? n = some v ∧ (m, u) ∈ leavesByPath r n v
  /-- In the statement, each structured parameter gives way to a fragment over these paths. -/
  text : ∃ fragments, e.sql = String.ofList ((tokens sql).flatMap (replaced fragments))
    ∧ ∀ n ∈ structuredNames sql params, ∀ v, params.get? n = some v →
      ∃ f, entryValue? n fragments = some f ∧ f.names = (leavesByPath r n v).map (·.1)

namespace Expands

variable {sql : String} {e : Expanded}

/-- The leaves of a structured parameter stand under the paths that are the names of its fragment. -/
theorem leaves_of_named (h : Expands r sql params w e) (named : NamedByPath r params w) {n : String}
    (hn : n ∈ structuredNames sql params) {v : Value} (value : params.get? n = some v) :
    mintedNames w.fragments n = (leavesByPath r n v).map (·.1)
      ∧ ∀ leaf ∈ leavesByPath r n v, e.params.get? leaf.1 = some leaf.2 := by
  obtain ⟨u, f, given, entry, minted⟩ := h.exists_fragment hn
  obtain rfl : v = u := Option.some.inj (value.symm.trans given)
  have names : mintedNames w.fragments n = (leavesByPath r n v).map (·.1) := by
    rw [mintedNames_of_entry entry, named entry value]
  obtain ⟨leaves, leaves', fragment, -, written, -⟩ := minted.written
  have values : (leavesByPath r n v).map (·.2) = leavesOf r v :=
    (writes_of_write written).map_snd_leavesByPath n
  -- names and leaves are met in one order
  have bound := minted.bound
  rw [names, ← values, List.map_map, List.map_map] at bound
  exact ⟨names, List.map_inj_left.1 bound⟩

theorem boundByPath (h : Expands r sql params w e) (named : NamedByPath r params w)
    (text : e.sql = String.ofList ((tokens sql).flatMap (replaced w.fragments))) :
    BoundByPath r sql params e := by
  refine ⟨fun n hn v value leaf hleaf => ?_, fun m u bound => ?_, w.fragments, text,
    fun n hn v value => ?_⟩
  · cases needs : v.needsExpansion with
    | true =>
      have structured : n ∈ structuredNames sql params :=
        mem_structuredNames.2 ⟨hn, by rw [isStructured_of_get? value, needs]⟩
      exact (h.leaves_of_named named structured value).2 leaf hleaf
    | false =>
      -- a scalar is its only leaf and keeps its name
      rw [leavesByPath_scalar r n needs, List.mem_singleton] at hleaf
      subst hleaf
      refine h.get?_of_kept value fun structured => ?_
      have claims := (mem_structuredNames.1 structured).2
      rw [isStructured_of_get? value, needs] at claims
      cases claims
  · rcases h.kept_or_minted bound with kept | ⟨n, hn, minted⟩
    · exact .inl kept
    · obtain ⟨v, f, value, -, -⟩ := h.exists_fragment hn
      obtain ⟨names, leaves⟩ := h.leaves_of_named named hn value
      rw [names] at minted
      obtain ⟨leaf, hleaf, rfl⟩ := List.mem_map.1 minted
      obtain rfl : leaf.2 = u := Option.some.inj ((leaves leaf hleaf).symm.trans bound)
      exact .inr ⟨n, hn, v, value, hleaf⟩
  · obtain ⟨u, f, given, entry, -⟩ := h.exists_fragment hn
    exact ⟨f, entry, named entry value⟩

end Expands

/-- **Minted names are the least that are free, and paths where paths are free.** The search for a name
ends for every base, with the base or with its least number that makes it free. So where no path of a
component is a name in use or that of an earlier leaf, an expansion binds every leaf under its path. -/
theorem names_minted (r : Registry) :
    (∀ (leaves : Leaves) (base : String), leaves.FirstFree base (leaves.fresh base)) ∧
      ∀ (sql : String) (params : Params) (e : Expanded), expand r sql params = .ok e →
        PathsFree (usedNames sql params) (paths r sql params) → BoundByPath r sql params e := by
  refine ⟨Leaves.firstFree_fresh, fun sql params e ok free => ?_⟩
  obtain ⟨w, found, text, values⟩ := substitution_of_expand ok
  have h : Expands r sql params w e := ⟨account_of_substitution found, ledger_of_substitution found, values⟩
  exact h.boundByPath (namedByPath_of_substitution free found) text

/-- Two spots under a name of which nothing else is made. -/
def alone : Params := Dict.ofList [("x", twoSpots), ("y", .enumeration "mood" "wild")]

/-- The leaves of two spots, the second of which is unknown. -/
theorem names_minted_alone :
    PathsFree (usedNames "SELECT :x, :y" alone) (paths spots "SELECT :x, :y" alone)
      ∧ ∃ e, expand spots "SELECT :x, :y" alone = .ok e
        ∧ e.params.entries.map (·.1) = ["x_p1_label", "x_p1_moods_p1", "x_p1_moods_p2", "x_p2", "y"]
        ∧ BoundByPath spots "SELECT :x, :y" alone e := by
  have free : PathsFree (usedNames "SELECT :x, :y" alone) (paths spots "SELECT :x, :y" alone) := by
    have listed : (paths spots "SELECT :x, :y" alone).map (·.1)
        = ["x_p1", "x_p1_label", "x_p1_moods", "x_p1_moods_p1", "x_p1_moods_p2", "x_p2"] := by cbv
    have used : usedNames "SELECT :x, :y" alone = ["x", "y", "x", "y"] := by decide +kernel
    refine .of_nodup ?_ ?_
    · rw [listed]
      decide
    · rw [listed, used]
      decide
  refine ⟨free, ?_⟩
  have succeeds : (expand spots "SELECT :x, :y" alone).toOption.map (fun e => e.params.entries.map (·.1))
      = some ["x_p1_label", "x_p1_moods_p1", "x_p1_moods_p2", "x_p2", "y"] := by cbv
  cases ok : expand spots "SELECT :x, :y" alone with
  | error error =>
    rw [ok] at succeeds
    cases succeeds
  | ok e =>
    rw [ok] at succeeds
    exact ⟨e, rfl, Option.some.inj succeeds, (names_minted spots).2 _ _ e ok free⟩

end Expansion

end TypedStore
