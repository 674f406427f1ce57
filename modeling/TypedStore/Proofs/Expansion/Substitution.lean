/-
What expansion hands on. Going over the names of a statement keeps an account (`Account`): which names
have a fragment, from which value it was written, that its leaves are bound, and that nothing else
changed. Whatever else a step over a new name keeps, given the account, holds when all names are met
(`keeps_of_substitution`). From the account follow the text of the expanded statement and the value of
every parameter.
-/
import TypedStore.Proofs.Expansion.Leaves
import TypedStore.Proofs.Statement.Numbering

set_option autoImplicit false

namespace TypedStore

open TypedStore.Text TypedStore.Statement

/-- An entry behind others that have not its key. -/
theorem entryValue?_concat {α : Type} {key : String} {entries : List (String × α)}
    (absent : entryValue? key entries = none) (value : α) (other : String) :
    entryValue? other (entries ++ [(key, value)])
      = if key = other then some value else entryValue? other entries := by
  rw [entryValue?_append, entryValue?, entryValue?]
  by_cases same : key = other
  · rw [if_pos same, if_pos same, ← same, absent, Option.none_or]
  · rw [if_neg same, if_neg same, Option.or_none]

namespace Expansion

/-! ## 1. The account -/

/-- A fragment was written for a value under a name, clear of the names in use. -/
structure WrittenFor (r : Registry) (used : List String) (name : String) (v : Value)
    (fragment : Fragment) : Prop where
  substituted : isSubstituted v = true
  written : ∃ leaves leaves', leaves.reserved = used
    ∧ Writes r (.value none false v) name leaves [fragment] leaves'

/-- The account of a substitution of `params` after the names in `done`. -/
structure Account (r : Registry) (params : Params) (used done : List String)
    (w : Substitution) : Prop where
  reserved : w.leaves.reserved = used
  /-- Every fragment was written for the parameter of its name, and its leaves are bound. -/
  fragments : ∀ {n : String} {f : Fragment}, entryValue? n w.fragments = some f →
    n ∈ done ∧ ∃ v, params.get? n = some v ∧ WrittenFor r used n v f
      ∧ f.names.map w.leaves.params.get? = (leavesOf r v).map some
  /-- Every parameter that asks for it has its fragment. -/
  complete : ∀ {n : String} {v : Value}, n ∈ done → params.get? n = some v →
    isSubstituted v = true → ∃ f, entryValue? n w.fragments = some f
  /-- Parameters with a fragment are taken out, the others are there. -/
  rest : ∀ n, w.params.get? n
    = if (entryValue? n w.fragments).isSome then none else params.get? n
  /-- A name that was in use is bound, if at all, to its own value again. -/
  own : ∀ {n : String} {v : Value}, n ∈ used → w.leaves.params.get? n = some v →
    params.get? n = some v ∧ (entryValue? n w.fragments).isSome = true
  /-- Leaves come from fragments. -/
  leafless : w.fragments = [] → w.leaves.params = .empty

variable {r : Registry} {params : Params} {used done : List String} {w w' : Substitution}

theorem account_start (r : Registry) (params : Params) (used : List String) :
    Account r params used [] ⟨[], params, ⟨used, .empty⟩⟩ where
  reserved := rfl
  fragments h := nomatch h
  complete h := nomatch h
  rest _ := rfl
  own _ h := nomatch h
  leafless _ := rfl

/-- A name in use that was not met has neither a fragment nor a leaf. -/
theorem Account.get?_of_new (h : Account r params used done w) {name : String}
    (inUse : name ∈ used) (new : name ∉ done) :
    entryValue? name w.fragments = none ∧ w.leaves.params.get? name = none := by
  have absent : entryValue? name w.fragments = none := by
    cases had : entryValue? name w.fragments with
    | none => rfl
    | some f => exact absurd (h.fragments had).1 new
  refine ⟨absent, ?_⟩
  cases bound : w.leaves.params.get? name with
  | none => rfl
  | some v =>
    have had := (h.own inUse bound).2
    rw [absent] at had
    cases had

/-- A parameter that asks for no fragment changes nothing. -/
theorem Account.skip (h : Account r params used done w) {name : String}
    (plain : ∀ v, params.get? name = some v → isSubstituted v = false) :
    Account r params used (done ++ [name]) w where
  reserved := h.reserved
  fragments found := ⟨List.mem_append_left _ (h.fragments found).1, (h.fragments found).2⟩
  complete := by
    intro n v hn found asks
    rcases List.mem_append.1 hn with hn | hn
    · exact h.complete hn found asks
    · rw [List.mem_singleton.1 hn] at found
      rw [plain v found] at asks
      cases asks
  rest := h.rest
  own := h.own
  leafless := h.leafless

/-- The name of a statement's placeholder is bound to its own value or not at all. -/
theorem bound_own {slot? : Option String} {nested : Bool} {v u : Value} {name : String}
    {leaves leaves' : Leaves} {fragments : List Fragment}
    (written : Writes r (.value slot? nested v) name leaves fragments leaves')
    (taken : leaves.taken name = true) (free : leaves.params.get? name = none)
    (asks : isSubstituted v = true) (bound : leaves'.params.get? name = some u) : u = v := by
  cases needs : v.needsExpansion with
  | true =>
    -- a structured value binds only minted names, of which this is none
    have other : (Task.value slot? nested v).BindsOwn → name ≠ name := by
      intro own
      rw [Task.BindsOwn, needs] at own
      cases own
    rw [written.get?_of_taken taken other, free] at bound
    cases bound
  | false =>
    cases written with
    | scalar plain =>
      -- a scalar asks for no fragment, so only a label binds the name itself
      rw [plain] at asks
      cases asks
    | enumeration =>
      rw [get?_bind_self] at bound
      exact (Option.some.inj bound).symm
    | emptyArray | array | record | dynamic => cases needs

/-- A parameter is written. Names in use keep what they stand for, and leaves bound before stay. -/
theorem Account.write (h : Account r params used done w) {name : String} (inUse : name ∈ used)
    (new : name ∉ done) {v : Value} (found : params.get? name = some v)
    (asks : isSubstituted v = true) {fragment : Fragment} {leaves' : Leaves}
    (written : Writes r (.value none false v) name w.leaves [fragment] leaves') :
    Account r params used (done ++ [name])
      ⟨w.fragments ++ [(name, fragment)], w.params.erase name, leaves'⟩ := by
  obtain ⟨absent, free⟩ := h.get?_of_new inUse new
  have entry := entryValue?_concat absent fragment
  -- what is written now leaves the leaves of other fragments bound
  have keeps : ∀ n u, w.leaves.params.get? n = some u → leaves'.params.get? n = some u :=
    fun n u => written.get?_of_bound fun _ => free
  refine ⟨written.reserved.trans h.reserved, ?fragments, ?complete, ?rest, ?own, ?leafless⟩
  case fragments =>
    intro n f had
    rw [entry] at had
    split at had
    · rename_i same
      cases had
      refine ⟨List.mem_append_right _ (List.mem_singleton.2 same.symm), v, same ▸ found, ?_, ?_⟩
      · exact same ▸ ⟨asks, w.leaves, leaves', h.reserved, written⟩
      · rw [← itemNames_singleton]
        exact written.map_names fun _ => free
    · obtain ⟨before, u, value, source, leaves⟩ := h.fragments had
      refine ⟨List.mem_append_left _ before, u, value, source, ?_⟩
      have noMore : ([] : List String).map leaves'.params.get? = ([] : List Value).map some := rfl
      have both := map_names_append keeps leaves noMore
      rwa [List.append_nil, List.append_nil] at both
  case complete =>
    intro n u hn value needs
    rw [entry]
    by_cases same : name = n
    · exact ⟨fragment, if_pos same⟩
    · rw [if_neg same]
      refine h.complete ((List.mem_append.1 hn).resolve_right fun last => same ?_) value needs
      exact (List.mem_singleton.1 last).symm
  case rest =>
    intro n
    rw [Dict.get?_erase, entry, h.rest n]
    by_cases same : name = n
    · rw [if_pos same, if_pos same, Option.isSome_some, if_pos rfl]
    · rw [if_neg same, if_neg same]
  case own =>
    intro n u hn bound
    rw [entry]
    by_cases same : name = n
    · rw [if_pos same]
      refine ⟨?_, rfl⟩
      subst same
      have taken : w.leaves.taken name = true := by
        rw [Leaves.taken, h.reserved, List.contains_iff_mem.2 inUse, Bool.true_or]
      rw [found, ← bound_own written taken free asks bound]
    · rw [if_neg same]
      have taken : w.leaves.taken n = true := by
        rw [Leaves.taken, h.reserved, List.contains_iff_mem.2 hn, Bool.true_or]
      rw [written.get?_of_taken taken fun _ => Ne.symm same] at bound
      exact h.own hn bound
  case leafless =>
    intro none
    exact absurd (List.append_eq_nil_iff.1 none).2 (List.cons_ne_nil _ _)

/-! ## 2. Steps -/

/-- What a step over a name does: it passes a parameter that asks for no fragment, or writes one. -/
inductive Substitutes (r : Registry) (params : Params) (name : String) (w : Substitution) :
    Substitution → Prop where
  | passed (plain : ∀ v, params.get? name = some v → isSubstituted v = false) :
      Substitutes r params name w w
  | written {v : Value} {fragment : Fragment} {leaves' : Leaves} (value : params.get? name = some v)
      (asks : isSubstituted v = true)
      (written : Writes r (.value none false v) name w.leaves [fragment] leaves') :
      Substitutes r params name w ⟨w.fragments ++ [(name, fragment)], w.params.erase name, leaves'⟩

/-- A name that was not met is still there with the value the caller gave it. -/
theorem Account.substitutes (h : Account r params used done w) {name : String} (inUse : name ∈ used)
    (new : name ∉ done) (ok : substituteName r w name = .ok w') : Substitutes r params name w w' := by
  obtain ⟨absent, -⟩ := h.get?_of_new inUse new
  have same : w.params.get? name = params.get? name := by
    rw [h.rest name, absent]
    rfl
  unfold substituteName at ok
  rw [same] at ok
  cases found : params.get? name with
  | none =>
    rw [found] at ok
    cases ok
    exact .passed fun v hv => by rw [found] at hv; cases hv
  | some v =>
    rw [found] at ok
    cases asks : isSubstituted v with
    | false =>
      simp only [asks] at ok
      cases ok
      refine .passed fun u hu => ?_
      rw [found] at hu
      cases hu
      exact asks
    | true =>
      simp only [asks, if_true] at ok
      obtain ⟨⟨fragment, leaves'⟩, written, ok⟩ := bind_eq_ok_iff.1 ok
      cases ok
      exact .written found asks (writes_of_write written)

/-- The account is kept by every name of a statement that has not been met. -/
theorem Account.step (h : Account r params used done w) {name : String} (inUse : name ∈ used)
    (new : name ∉ done) (step : Substitutes r params name w w') :
    Account r params used (done ++ [name]) w' := by
  cases step with
  | passed plain => exact h.skip plain
  | written value asks written => exact h.write inUse new value asks written

/-- Whatever a step over a new name keeps, given the account, a walk over distinct names keeps beside the
account. The induction is on the names that are left. -/
theorem Account.walk {I : List String → Substitution → Prop} {all left : List String}
    (inUse : ∀ n ∈ all, n ∈ used) (distinct : all.Nodup)
    (keeps : ∀ {done : List String} {w w' : Substitution} {name : String}, done ++ [name] <+: all →
      name ∉ done → Account r params used done w → I done w → Substitutes r params name w w' →
      I (done ++ [name]) w')
    (parts : done ++ left = all) (h : Account r params used done w) (holds : I done w)
    (ok : left.foldlM (substituteName r) w = .ok w') :
    Account r params used all w' ∧ I all w' := by
  induction left generalizing done w with
  | nil =>
    cases ok
    rw [List.append_nil] at parts
    exact parts ▸ ⟨h, holds⟩
  | cons name rest ih =>
    rw [List.foldlM_cons] at ok
    obtain ⟨w₁, one, ok⟩ := bind_eq_ok_iff.1 ok
    have parts' : done ++ [name] ++ rest = all := by rwa [List.append_assoc]
    have own : name ∈ used := inUse name (parts ▸ List.mem_append_right _ List.mem_cons_self)
    have new : name ∉ done := by
      intro met
      rw [← parts] at distinct
      exact (List.nodup_append.1 distinct).2.2 name met name List.mem_cons_self rfl
    have step := h.substitutes own new one
    exact ih parts' (h.step own new step) (keeps ⟨rest, parts'⟩ new h holds step) ok

/-! ## 3. Expanded statements -/

/-- The names that minted ones stay clear of. -/
def usedNames (sql : String) (params : Params) : List String := params.keys ++ names (tokens sql)

theorem mem_usedNames {sql n : String} (hn : n ∈ names (tokens sql)) : n ∈ usedNames sql params :=
  List.mem_append_right _ hn

/-- Whatever a step over a new name keeps, given the account, holds of a substitution. -/
theorem keeps_of_substitution {I : List String → Substitution → Prop} {sql : String}
    (ok : substitution r sql params = .ok w)
    (start : I [] ⟨[], params, ⟨usedNames sql params, .empty⟩⟩)
    (keeps : ∀ {done : List String} {w w' : Substitution} {name : String},
      done ++ [name] <+: Query.distinct (names (tokens sql)) → name ∉ done →
      Account r params (usedNames sql params) done w → I done w → Substitutes r params name w w' →
      I (done ++ [name]) w') :
    Account r params (usedNames sql params) (Query.distinct (names (tokens sql))) w
      ∧ I (Query.distinct (names (tokens sql))) w :=
  Account.walk (fun _ hn => mem_usedNames (Query.mem_distinct.1 hn)) (Query.nodup_distinct _) keeps (List.nil_append _)
    (account_start r params _) start ok

theorem account_of_substitution {sql : String} (ok : substitution r sql params = .ok w) :
    Account r params (usedNames sql params) (Query.distinct (names (tokens sql))) w :=
  (keeps_of_substitution (I := fun _ _ => True) ok trivial fun _ _ _ _ _ => trivial).1

theorem flatMap_replaced_nil (ts : List Token) :
    ts.flatMap (replaced []) = ts.flatMap (·.text) := by
  have same : replaced [] = fun t : Token => t.text := by
    funext t
    unfold replaced
    cases t.name? <;> rfl
  rw [same]

/-- An expanded statement is the statement with fragments in the place of placeholders, and a name
stands for the leaf bound to it, or else for the parameter that was passed through. -/
theorem substitution_of_expand {sql : String} {e : Expanded} (ok : expand r sql params = .ok e) :
    ∃ w, substitution r sql params = .ok w
      ∧ e.sql = String.ofList ((tokens sql).flatMap (replaced w.fragments))
      ∧ ∀ n, e.params.get? n = (w.leaves.params.get? n).or (w.params.get? n) := by
  obtain ⟨w, found, ok⟩ := bind_eq_ok_iff.1 ok
  have account := account_of_substitution found
  refine ⟨w, found, ?_⟩
  split at ok
  · rename_i none
    cases ok
    -- without fragments the statement and its parameters are handed on as they are
    have empty := List.isEmpty_iff.1 none
    rw [empty, flatMap_replaced_nil, tokens, flatMap_text_tokensAfter, String.ofList_toList]
    refine ⟨rfl, fun n => ?_⟩
    rw [account.leafless empty, account.rest n, empty]
    rfl
  · cases ok
    exact ⟨rfl, fun n => Dict.get?_insertAll _ w.leaves.params.rise n⟩

@[inherit_doc substitution_of_expand]
theorem account_of_expand {sql : String} {e : Expanded} (ok : expand r sql params = .ok e) :
    ∃ w, Account r params (usedNames sql params) (Query.distinct (names (tokens sql))) w
      ∧ e.sql = String.ofList ((tokens sql).flatMap (replaced w.fragments))
      ∧ ∀ n, e.params.get? n = (w.leaves.params.get? n).or (w.params.get? n) := by
  obtain ⟨w, found, text, values⟩ := substitution_of_expand ok
  exact ⟨w, account_of_substitution found, text, values⟩

end Expansion

end TypedStore
