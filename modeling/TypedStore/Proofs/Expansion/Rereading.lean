/-
Expanded statements are read again. The placeholders that numbering finds in an expanded statement are
to be those of the statement, each structured one replaced by the names minted for its leaves
(`ReadBack`); what is bound to them is flat then (`BindsFlat`). This asks for attributes made of word
characters, so that words are minted, and for no constructor right behind a placeholder that stays: given
inert types, and neither escapes nor a dollar marker right behind a structured placeholder, a statement
is read back exactly then (`readBack_expand`). Without any of these it may fail
(`readBack_expand_fails`).
-/
import Mathlib
import TypedStore.Plan.Execution
import TypedStore.Proofs.Expansion.Inversion
import TypedStore.Proofs.Expansion.Splicing
import TypedStore.Wire.Encode

set_option autoImplicit false

namespace TypedStore

open TypedStore.Text TypedStore.Statement

variable {r : Registry} {Q : String → Prop} {params : Params} {used done : List String}
  {w : Expansion.Substitution}

namespace Expansion

/-! ## 1. The fragments of an expansion -/

theorem exists_of_isStructured {params : Params} {n : String} (h : isStructured params n = true) :
    ∃ v, params.get? n = some v ∧ v.needsExpansion = true := by
  cases value : params.get? n with
  | none =>
    rw [isStructured, value] at h
    cases h
  | some v =>
    rw [isStructured, value, Option.any_some] at h
    exact ⟨v, rfl, h⟩

theorem isStructured_of_get? {params : Params} {n : String} {v : Value}
    (h : params.get? n = some v) : isStructured params n = v.needsExpansion := by
  rw [isStructured, h, Option.any_some]

theorem isSubstituted_of_needsExpansion {v : Value} (h : v.needsExpansion = true) :
    isSubstituted v = true := by
  cases v with
  | array | record | dynamic | enumeration => rfl
  | _ => cases h

/-- The fragments of an account are what its parameters ask for, provided that words are minted. -/
theorem Account.splices (account : Account r params used done w)
    (spelled : r.Spelled (fun _ => True) Q)
    (words : ∀ n ∈ done, isStructured params n = true →
      ∀ m ∈ mintedNames w.fragments n, IsWord m) : Splices Q params done w.fragments where
  kept := by
    intro n f kept entry
    obtain ⟨-, v, value, ⟨asks, leaves, leaves', -, written⟩, -⟩ := account.fragments entry
    rw [isStructured_of_get? value] at kept
    cases written with
    | scalar plain =>
      rw [plain] at asks
      cases asks
    | enumeration => rfl
    | emptyArray | array | record | dynamic => cases kept
  structured := by
    intro n hn structured
    obtain ⟨v, value, needs⟩ := exists_of_isStructured structured
    obtain ⟨f, entry⟩ := account.complete hn value (isSubstituted_of_needsExpansion needs)
    obtain ⟨-, v', value', ⟨asks, leaves, leaves', -, written⟩, -⟩ := account.fragments entry
    obtain rfl : v = v' := Option.some.inj (value.symm.trans value')
    -- a placeholder of the statement takes no place of a known type
    have slots : (Task.value none false v).Slots (fun _ => True) Q := by
      intro slot hs
      cases hs
    have typed := (written.all grows_any spelled trivial slots).1
    have minted := words n hn structured
    rw [mintedNames_of_entry entry] at minted
    refine ⟨f, entry, typed.of_names f minted, ?_⟩
    rw [value]
    cases written with
    | scalar plain =>
      rw [plain] at asks
      cases asks
    | enumeration => cases needs
    | emptyArray => exact .inl ⟨rfl, rfl⟩
    | array | record | dynamic => exact .inr ⟨rfl, rfl⟩

/-- A name in use keeps its value, unless the value is structured. -/
theorem Account.get?_of_kept (account : Account r params used done w) {n : String} (inUse : n ∈ used)
    (kept : isStructured params n = false) :
    (w.leaves.params.get? n).or (w.params.get? n) = params.get? n := by
  cases bound : w.leaves.params.get? n with
  | some v => rw [Option.some_or, (account.own inUse bound).1]
  | none =>
    rw [Option.none_or, account.rest]
    cases entry : entryValue? n w.fragments with
    | none => rfl
    | some f =>
      -- only an enumeration has a fragment here, and then its own name is bound
      obtain ⟨-, v, value, ⟨asks, leaves, leaves', -, written⟩, bindings⟩ := account.fragments entry
      rw [isStructured_of_get? value] at kept
      cases written with
      | scalar plain =>
        rw [plain] at asks
        cases asks
      | enumeration =>
        rw [Fragment.names, List.map_singleton, bound, leavesOf_scalar r rfl] at bindings
        cases bindings
      | emptyArray | array | record | dynamic => cases kept

/-! ## 2. Binding -/

end Expansion

theorem Query.missing_of_ofNamed {sql : String} {params : Params} {error : Error}
    (h : Query.ofNamed sql params = .error error) :
    ∃ n ∈ names (tokens sql), params.get? n = none ∧ error = .missingParameter n := by
  have failed : Query.valuesOf params (order sql) = .error error := by
    rw [ofNamed_eq] at h
    cases values : Query.valuesOf params (order sql) with
    | ok vs =>
      rw [values] at h
      cases h
    | error e =>
      rw [values] at h
      cases h
      rfl
  obtain ⟨n, found, rfl⟩ := Query.valuesOf_eq_error.1 failed
  have absent := List.find?_some found
  rw [Bool.not_eq_true', Dict.contains, Option.isSome_eq_false_iff, Option.isNone_iff_eq_none] at absent
  refine ⟨n, ?_, absent, rfl⟩
  rw [← map_name_placeholders, ← Query.mem_distinct]
  exact List.mem_of_find?_eq_some found

theorem Query.get?_of_mem_ofNamed {sql : String} {params : Params} {q : Query}
    (h : Query.ofNamed sql params = .ok q) {v : Value} (hv : v ∈ q.params) :
    ∃ n ∈ names (tokens sql), params.get? n = some v := by
  have numbers := numbers_of_ofNamed h
  obtain ⟨n, hn, found⟩ := List.mem_map.1 (numbers.values ▸ List.mem_map_of_mem hv)
  obtain ⟨p, hp, rfl⟩ := numbers.mem.1 hn
  exact ⟨p.name, map_name_placeholders sql ▸ List.mem_map_of_mem hp, found⟩

/-- Flat values can be sent, whatever type the server asks for. -/
theorem Wire.encode_of_flat {v : Value} (flat : v.needsExpansion = false) (t : WireType) :
    ∃ bytes, Wire.encode t v = .ok bytes := by
  cases v with
  | array | record | dynamic => cases flat
  | _ => exact ⟨_, rfl⟩

/-- What is bound for a session or a plan is the expanded statement. -/
theorem perform_bindQuery {σ : Type} {sql : String} {e : Expansion.Expanded}
    (ok : Expansion.expand r sql params = .ok e) (j : Journal σ) :
    ((bindQuery r sql params).perform j).1 = Query.ofNamed e.sql e.params := by
  have known : ∀ (answer : Except Error Query) (j : Journal σ),
      ((Action.ofExcept answer).perform j).1 = answer := by
    intro answer j
    cases answer <;> rfl
  unfold bindQuery
  rw [ok]
  exact known (Query.ofNamed e.sql e.params) _

/-! ## 3. Reading again -/

namespace Expansion

/-- The names minted for a structured parameter: those of the fragment that was written for its value.
They are clear of the names in use, and stand for the leaves of the value in order. -/
structure MintedFor (r : Registry) (sql : String) (params : Params) (e : Expanded) (n : String)
    (v : Value) (minted : List String) : Prop where
  written : ∃ leaves leaves' f, leaves.reserved = usedNames sql params
    ∧ write r n none false leaves v = .ok (f, leaves') ∧ f.names = minted
  unused : ∀ m ∈ minted, m ∉ usedNames sql params
  bound : minted.map e.params.get? = (leavesOf r v).map some

/-- The names in a fragment of an account are minted for the value of its parameter. -/
theorem Account.mintedFor {sql : String} {e : Expanded}
    (account : Account r params (usedNames sql params) done w)
    (values : ∀ n, e.params.get? n = (w.leaves.params.get? n).or (w.params.get? n)) {n : String}
    {v : Value} (hn : n ∈ done) (value : params.get? n = some v) (needs : v.needsExpansion = true) :
    MintedFor r sql params e n v (mintedNames w.fragments n) := by
  obtain ⟨f, entry⟩ := account.complete hn value (isSubstituted_of_needsExpansion needs)
  obtain ⟨-, u, value', ⟨-, leaves, leaves', reserved, written⟩, bindings⟩ := account.fragments entry
  obtain rfl : v = u := Option.some.inj (value.symm.trans value')
  rw [mintedNames_of_entry entry]
  refine ⟨⟨leaves, leaves', f, reserved, ?_, rfl⟩, fun m hm used => ?_, ?_⟩
  · exact writes_iff.1 written
  · rw [← itemNames_singleton] at hm
    -- a name in use was taken from the start, and a structured value has no name of its own
    rcases written.free_of_mem hm with free | ⟨own, -⟩
    · rw [Leaves.taken, reserved, List.contains_iff_mem.2 used, Bool.true_or] at free
      cases free
    · rw [Task.BindsOwn, needs] at own
      cases own
  · rw [← bindings]
    refine List.map_congr_left fun m hm => ?_
    -- a leaf is bound, so nothing that was passed through stands behind its name
    have leaf := List.mem_map_of_mem (f := w.leaves.params.get?) hm
    rw [bindings] at leaf
    obtain ⟨u, -, bound⟩ := List.mem_map.1 leaf
    rw [values, ← bound, Option.some_or]

/-- Behind a placeholder of an expanded statement is a flat value, unless it stayed and the caller gave
it none. -/
theorem Account.flat_of_placed {sql : String} {e : Expanded}
    (account : Account r params (usedNames sql params) done w)
    (values : ∀ n, e.params.get? n = (w.leaves.params.get? n).or (w.params.get? n)) {n m : String}
    (inUse : n ∈ usedNames sql params) (hn : n ∈ done) (hm : m ∈ placed params w.fragments n) :
    (∃ u, e.params.get? m = some u ∧ u.needsExpansion = false)
      ∨ m = n ∧ params.get? n = none ∧ e.params.get? m = none := by
  rw [placed] at hm
  -- a placeholder that stays keeps its value, and a minted name has a leaf
  cases structured : isStructured params n with
  | false =>
    rw [structured, if_neg Bool.false_ne_true, List.mem_singleton] at hm
    subst hm
    have same := (values m).trans (account.get?_of_kept inUse structured)
    cases value : params.get? m with
    | none => exact .inr ⟨rfl, rfl, same.trans value⟩
    | some v =>
      rw [isStructured_of_get? value] at structured
      exact .inl ⟨v, same.trans value, structured⟩
  | true =>
    rw [structured, if_pos rfl] at hm
    obtain ⟨v, value, needs⟩ := exists_of_isStructured structured
    have minted := account.mintedFor values hn value needs
    obtain ⟨leaves, leaves', f, -, written, -⟩ := minted.written
    have leaf := List.mem_map_of_mem (f := e.params.get?) hm
    rw [minted.bound] at leaf
    obtain ⟨u, hu, bound⟩ := List.mem_map.1 leaf
    exact .inl ⟨u, bound.symm, (writes_iff.2 written).needsExpansion_of_mem hu⟩

/-- An expanded statement is read back: its placeholders are those of the statement, each structured
one replaced by the names minted for it. -/
def ReadBack (sql : String) (params : Params) (e : Expanded) (minted : String → List String) : Prop :=
  (placeholders e.sql).map (·.name)
    = ((placeholders sql).map (·.name)).flatMap fun n => if isStructured params n then minted n else [n]

/-- Binding an expanded statement fails for a placeholder that the caller gave no value only, and binds
flat values only, which can be sent. -/
structure BindsFlat (sql : String) (params : Params) (e : Expanded) : Prop where
  missing : ∀ error, Query.ofNamed e.sql e.params = .error error →
    ∃ n ∈ names (tokens sql), params.get? n = none ∧ error = .missingParameter n
  flat : ∀ q, Query.ofNamed e.sql e.params = .ok q → ∀ v ∈ q.params,
    v.needsExpansion = false ∧ ∀ t, ∃ bytes, Wire.encode t v = .ok bytes

theorem Account.bindsFlat {sql : String} {e : Expanded}
    (account : Account r params (usedNames sql params) (Query.distinct (names (tokens sql))) w)
    (values : ∀ n, e.params.get? n = (w.leaves.params.get? n).or (w.params.get? n))
    (read : ReadBack sql params e (mintedNames w.fragments)) : BindsFlat sql params e := by
  rw [ReadBack, map_name_placeholders, map_name_placeholders] at read
  -- every placeholder found was placed for one of the statement
  have behind : ∀ m ∈ names (tokens e.sql), ∃ n ∈ names (tokens sql),
      (∃ u, e.params.get? m = some u ∧ u.needsExpansion = false)
        ∨ m = n ∧ params.get? n = none ∧ e.params.get? m = none := by
    intro m hm
    rw [read] at hm
    obtain ⟨n, hn, hm⟩ := List.mem_flatMap.1 hm
    have inUse : n ∈ usedNames sql params := List.mem_append_right _ hn
    exact ⟨n, hn, account.flat_of_placed values inUse (Query.mem_distinct.2 hn) hm⟩
  constructor
  · intro error failed
    obtain ⟨m, hm, absent, rfl⟩ := Query.missing_of_ofNamed failed
    obtain ⟨n, hn, ⟨u, bound, -⟩ | ⟨rfl, none, -⟩⟩ := behind m hm
    · rw [absent] at bound
      cases bound
    · exact ⟨m, hn, none, rfl⟩
  · intro q bound v hv
    obtain ⟨m, hm, value⟩ := Query.get?_of_mem_ofNamed bound hv
    obtain ⟨n, hn, ⟨u, found, flat⟩ | ⟨-, -, absent⟩⟩ := behind m hm
    · obtain rfl : v = u := Option.some.inj (value.symm.trans found)
      exact ⟨flat, Wire.encode_of_flat flat⟩
    · rw [value] at absent
      cases absent

theorem isWord_of_mem_names {before cs : List Char} {n : String}
    (hn : n ∈ names (tokensAfter before cs)) : IsWord n := by
  obtain ⟨t, ht, name⟩ := List.mem_filterMap.1 hn
  exact ((text_of_mem_tokensAfter ht).2 n name).2

/-- **When an expanded statement is read back.** Where types are inert and structured placeholders are
followed by what does not depend on them, an expanded statement is read back exactly if every minted
name is a word and no placeholder that stays has a constructor right behind it. Then binding it fails
for placeholders without a value only, and binds flat values only; and this is what a session or a plan
binds. -/
theorem readBack_expand (typed : r.Spelled (fun _ => True) Q) (inert : ∀ t, Q t → Inert t.toList)
    {sql : String} (settled : AllSettled params (tokens sql)) {e : Expanded}
    (ok : expand r sql params = .ok e) :
    ∃ minted : String → List String,
      (∀ n ∈ names (tokens sql), ∀ v, params.get? n = some v → v.needsExpansion = true →
        MintedFor r sql params e n v (minted n))
      ∧ (ReadBack sql params e minted ↔
        (∀ n ∈ names (tokens sql), isStructured params n = true → ∀ m ∈ minted n, IsWord m)
          ∧ Apart params (tokens sql))
      ∧ (ReadBack sql params e minted → BindsFlat sql params e)
      ∧ ∀ (σ : Type) (j : Journal σ),
        ((bindQuery r sql params).perform j).1 = Query.ofNamed e.sql e.params := by
  obtain ⟨w, account, text, values⟩ := account_of_expand ok
  have met : ∀ n ∈ names (tokens sql), n ∈ Query.distinct (names (tokens sql)) := fun n hn =>
    Query.mem_distinct.2 hn
  -- given words, only lengthened placeholders are left to go wrong
  have exactly : (∀ n ∈ names (tokens sql), isStructured params n = true →
        ∀ m ∈ mintedNames w.fragments n, IsWord m) →
      (ReadBack sql params e (mintedNames w.fragments) ↔ Apart params (tokens sql)) := by
    intro words
    have splices := account.splices typed fun n hn => words n (Query.mem_distinct.1 hn)
    rw [ReadBack, map_name_placeholders, map_name_placeholders, text, tokens, String.toList_ofList]
    exact names_replaced_iff (fun {t} => inert t) splices [] sql.toList met settled []
      (.inl (.refl []))
  refine ⟨mintedNames w.fragments, fun n hn v value needs => ?_, ⟨fun read => ?_, ?_⟩, ?_, ?_⟩
  · exact account.mintedFor values (met n hn) value needs
  · -- what is found is a word, and every minted name is found
    have words : ∀ n ∈ names (tokens sql), isStructured params n = true →
        ∀ m ∈ mintedNames w.fragments n, IsWord m := by
      intro n hn structured m hm
      have found := read
      rw [ReadBack, map_name_placeholders, map_name_placeholders] at found
      have again : m ∈ names (tokens e.sql) := by
        rw [found]
        refine List.mem_flatMap.2 ⟨n, hn, ?_⟩
        rw [structured, if_pos rfl]
        exact hm
      exact isWord_of_mem_names again
    exact ⟨words, (exactly words).1 read⟩
  · rintro ⟨words, apart⟩
    exact (exactly words).2 apart
  · exact account.bindsFlat values
  · intro σ j
    exact perform_bindQuery ok j

/-- Where attributes are made of word characters, words are minted. -/
theorem MintedFor.isWord (spelled : r.Spelled WordChars Q) {sql : String} {e : Expanded} {n : String}
    {v : Value} {minted : List String} (h : MintedFor r sql params e n v minted) (word : IsWord n) :
    ∀ m ∈ minted, IsWord m := by
  obtain ⟨leaves, leaves', f, -, written, rfl⟩ := h.written
  have slots : (Task.value none false v).Slots WordChars Q := by
    intro slot hs
    cases hs
  exact Fragment.All.of_mem_names f ((writes_of_write written).all grows_isWord spelled word slots).1

/-- A structured parameter between others that have names which might be minted. -/
def amongOthers : String := "SELECT :x_p1, :x, :x_p1_label"

theorem readBack_expand_amongOthers :
    spots.Spelled (fun _ => True) IsWord ∧ (∀ t, IsWord t → Inert t.toList)
      ∧ AllSettled clashing (tokens amongOthers)
      ∧ ∃ e minted, expand spots amongOthers clashing = .ok e
        ∧ ReadBack amongOthers clashing e minted ∧ BindsFlat amongOthers clashing e := by
  have spelled := plain_spots.spelled built_spots.coherent
  have typed := spelled.imp fun _ _ => trivial
  have inert : ∀ t, IsWord t → Inert t.toList := fun t word =>
    inert_of_openers fun c hc => not_mem_openers_of_isWordChar (word.2 c hc)
  have settled : AllSettled clashing (tokens amongOthers) := by decide +kernel
  have apart : Apart clashing (tokens amongOthers) := by decide +kernel
  have succeeds : (expand spots amongOthers clashing).toOption.isSome = true := by cbv
  refine ⟨typed, inert, settled, ?_⟩
  cases ok : expand spots amongOthers clashing with
  | error error =>
    rw [ok] at succeeds
    cases succeeds
  | ok e =>
    -- the attributes of a spot are words, so the names minted for it are
    obtain ⟨minted, mintedFor, exactly, flat, -⟩ := readBack_expand typed inert settled ok
    have words : ∀ n ∈ names (tokens amongOthers), isStructured clashing n = true →
        ∀ m ∈ minted n, IsWord m := by
      intro n hn structured
      obtain ⟨v, value, needs⟩ := exists_of_isStructured structured
      exact (mintedFor n hn v value needs).isWord spelled (isWord_of_mem_names hn)
    have read := exactly.2 ⟨words, apart⟩
    exact ⟨e, minted, rfl, read, flat read⟩

/-! ## 4. Not read again -/

/-- A store with a record type that has an attribute of two words. -/
def addressBuilder : RegistryBuilder :=
  RegistryBuilder.empty.withCatalog
    ⟨[], [("address", [("street name", "text")]), ("owner's", [("name", "text")])], []⟩

def addresses : Registry := addressBuilder.start.withDynamicComposite.withArrays

/-- A value for each way to go wrong. -/
def unlucky : Params :=
  Dict.ofList [("home", .record "address" [("street name", .text "Elm")]), ("a", .int32 1),
    ("e", .array [.int32 2]), ("o", .record "owner's" [("name", .text "Ann")]),
    ("x", .array [.int32 3])]

/-- The names in a statement, and those found in it once it is expanded. -/
def namesTwice (sql : String) : List String × Option (List String) :=
  (names (tokens sql), (expand addresses sql unlucky).toOption.map fun e => names (tokens e.sql))

/-- Each condition is needed. An attribute of two words cuts the name minted from it short, so that a
placeholder is found that nobody gave a value; a constructor lengthens the name right in front of it;
escapes and a dollar marker come and go behind a structured placeholder; a quote in a type hides the
rest. -/
theorem readBack_expand_fails :
    addresses.Built
      ∧ (∃ e, expand addresses "SELECT :home" unlucky = .ok e
        ∧ Query.ofNamed e.sql e.params = .error (.missingParameter "home_street")
        ∧ ¬ BindsFlat "SELECT :home" unlucky e
        ∧ ∀ minted v, unlucky.get? "home" = some v →
          MintedFor addresses "SELECT :home" unlucky e "home" v (minted "home") →
          ¬ ReadBack "SELECT :home" unlucky e minted)
      ∧ namesTwice "SELECT :a:x" = (["a", "x"], some ["aARRAY", "x_p1"])
      ∧ namesTwice "SELECT :e'\\', :a'" = (["e"], some ["e_p1", "a"])
      ∧ namesTwice "SELECT :x$$, :a, $$" = (["x", "a"], some ["x_p1"])
      ∧ namesTwice "SELECT :o, :a" = (["o", "a"], some ["o_name"]) := by
  have built : addresses.Built := .of_catalog rfl rfl rfl (by decide +kernel)
  refine ⟨built, ?_, by cbv, by cbv, by cbv, by cbv⟩
  have found : (expand addresses "SELECT :home" unlucky).toOption.map (fun e => names (tokens e.sql))
      = some ["home_street"] := by cbv
  have missing : (expand addresses "SELECT :home" unlucky).bind
      (fun e => Query.ofNamed e.sql e.params) = .error (.missingParameter "home_street") := by cbv
  have original : names (tokens "SELECT :home") = ["home"] := by decide +kernel
  have structured : isStructured unlucky "home" = true := by decide +kernel
  cases ok : expand addresses "SELECT :home" unlucky with
  | error error =>
    rw [ok] at found
    cases found
  | ok e =>
    rw [ok] at found missing
    have again : names (tokens e.sql) = ["home_street"] := Option.some.inj found
    refine ⟨e, rfl, missing, fun flat => ?_, fun minted v value mintedFor read => ?_⟩
    · obtain ⟨n, hn, -, same⟩ := flat.missing _ missing
      cases same
      rw [original] at hn
      exact absurd hn (by decide)
    · -- if the statement were read back, the name that is missing would stand for a leaf
      obtain ⟨n, -, absent, same⟩ := Query.missing_of_ofNamed missing
      cases same
      rw [ReadBack, map_name_placeholders, map_name_placeholders, again, original,
        List.flatMap_singleton, structured, if_pos rfl] at read
      have bound := mintedFor.bound
      rw [← read, List.map_singleton, absent] at bound
      cases leaves : leavesOf addresses v with
      | nil =>
        rw [leaves] at bound
        cases bound
      | cons u us =>
        rw [leaves] at bound
        cases bound

end Expansion

end TypedStore
