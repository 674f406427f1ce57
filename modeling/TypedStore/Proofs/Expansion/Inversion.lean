/-
Extraction is the way back from expansion. A value that conforms to a store type is expanded, the
expanded text is read as the store reads it, and what is read is extracted under the type: the value
is there again. Expansion writes names and types, extraction looks only at the shape that is read, so
the two recursions meet in the meaning of a fragment (`Recovers`).
-/
import TypedStore.Proofs.Expansion.Reading
import TypedStore.Proofs.Expansion.Substitution
import TypedStore.Proofs.Extraction.Derivation
import TypedStore.Proofs.Registry.Built
import TypedStore.Proofs.Statement.Extents

set_option autoImplicit false

namespace TypedStore

open TypedStore.Text TypedStore.Statement TypedStore.Expansion TypedStore.Extraction

/-! ## 1. Values of a type -/

/-- A value conforms to a store type. NULL does everywhere, items of an array by the type that
extraction gives them, records with exactly the attributes of their type in order. -/
inductive Conforms (r : Registry) : String → Value → Prop where
  | null {t : String} : Conforms r t .null
  | scalar {t : String} {v : Value} (standard : r.category t = .standard)
      (plain : isSubstituted v = false) : Conforms r t v
  | enumeration {t label : String} {definition : EnumDefinition}
      (category : r.category t = .enumeration) (known : r.enumDefinition t = .ok definition)
      (listed : definition.hasLabel label = true) : Conforms r t (.enumeration t label)
  | dynamic {t tag host : String} {document : Document} (category : r.category t = .dynamic)
      (known : r.hostOfTag tag = .ok host) : Conforms r t (.dynamic tag (.payload document))
  | record {t : String} {definition : CompositeDefinition} {fields : List (String × Value)}
      (category : r.category t = .composite) (known : r.compositeDefinition t = .ok definition)
      (named : fields.map (·.1) = definition.attributes.map (·.1))
      (each : ∀ pair ∈ definition.attributes.zip fields, Conforms r pair.1.2 pair.2.2) :
      Conforms r t (.record t fields)
  | array {t element : String} {items : List Value} (category : r.category t = .array)
      (known : r.arrayElement? t = some element)
      (each : ∀ v ∈ items, Conforms r (itemType r t element v) v) : Conforms r t (.array items)

/-- What the store gives back for a bound value: a label perhaps as its text. -/
def returned (labelsAsText : Bool) : Value → Value
  | .enumeration typeName label =>
    if labelsAsText then .text label else .enumeration typeName label
  | v => v

theorem returned_of_plain (labelsAsText : Bool) {v : Value} (plain : isSubstituted v = false) :
    returned labelsAsText v = v := by
  cases v with
  | enumeration => cases plain
  | _ => rfl

/-- Types and attributes of a registry are words, and no type has two attributes of one name. -/
structure Registry.Plain (r : Registry) : Prop where
  dynamicType : IsWord r.dynamicType
  enums : r.enums.All fun name _ => IsWord name
  composites : r.composites.All fun name d => IsWord name ∧ (d.attributes.map (·.1)).Nodup
    ∧ ∀ a ∈ d.attributes, IsWord a.1 ∧ IsWord a.2
  arrays : r.arrays.All fun _ d => IsWord d.elementType

/-! ## 2. Fields by position -/

theorem fieldValue?_eq_none {name : String} {fields : List (String × Value)}
    (h : ∀ field ∈ fields, field.1 ≠ name) : fieldValue? name fields = none := by
  induction fields with
  | nil => rfl
  | cons field rest ih =>
    obtain ⟨k, v⟩ := field
    rw [fieldValue?, if_neg (h (k, v) List.mem_cons_self)]
    exact ih fun field hf => h field (List.mem_cons_of_mem _ hf)

/-- Taking the first field of a name leaves NULL in its place. -/
theorem takeField?_append {name : String} {v : Value} {before after : List (String × Value)}
    (first : ∀ field ∈ before, field.1 ≠ name) :
    takeField? name (before ++ (name, v) :: after) = some (v, before ++ (name, .null) :: after) := by
  induction before with
  | nil => rw [takeField?, List.nil_append, fieldValue?, if_pos rfl, blankField, if_pos rfl]; rfl
  | cons field rest ih =>
    obtain ⟨k, w⟩ := field
    have other : k ≠ name := first (k, w) List.mem_cons_self
    have taken := ih fun field hf => first field (List.mem_cons_of_mem _ hf)
    rw [takeField?, Option.map_eq_some_iff] at taken
    obtain ⟨u, found, same⟩ := taken
    obtain ⟨rfl, blanked⟩ := Prod.mk.inj same
    rw [takeField?, List.cons_append, fieldValue?, if_neg other, found, blankField, if_neg other,
      blanked]
    rfl

theorem blankAt_append (before : List (String × Value)) (name : String) (v : Value)
    (after : List (String × Value)) :
    blankAt before.length (before ++ (name, v) :: after) = before ++ (name, .null) :: after := by
  induction before with
  | nil => rfl
  | cons field rest ih => rw [List.cons_append, List.length_cons, blankAt, ih, List.cons_append]

/-- Fields without names are taken by position. -/
theorem takeFieldOrAt?_append (before : List (String × Value)) {name : String}
    (nonempty : name ≠ "") {v : Value} {after : List (String × Value)}
    (unnamed : ∀ field ∈ before ++ ("", v) :: after, field.1 = "") :
    takeFieldOrAt? name before.length (before ++ ("", v) :: after)
      = some (v, before ++ ("", .null) :: after) := by
  -- no field has a name to be found by
  have absent : takeField? name (before ++ ("", v) :: after) = none := by
    rw [takeField?, fieldValue?_eq_none fun field hf => (unnamed field hf).symm ▸ nonempty.symm]
    rfl
  have here : (before ++ ("", v) :: after)[before.length]? = some ("", v) := by
    rw [List.getElem?_append_right (Nat.le_refl _), Nat.sub_self]
    rfl
  rw [takeFieldOrAt?, absent]
  dsimp only
  rw [here, Option.map_some, blankAt_append]

/-! ## 3. Names of a plain registry -/

theorem elementByName?_isWord {name element : String} (word : IsWord name)
    (spelled : elementByName? name = some element) : IsWord element := by
  -- a bracket is no word character
  have noSuffix : withoutSuffix? "[]" name = none := by
    unfold withoutSuffix?
    refine if_neg fun suffix => ?_
    have mem : ']' ∈ name.toList := (List.isSuffixOf_iff_suffix.1 suffix).subset (by decide)
    have wordChar := word.2 ']' mem
    revert wordChar
    decide
  rw [elementByName?, noSuffix] at spelled
  dsimp only at spelled
  split at spelled
  · rename_i c rest chars
    cases spelled
    -- the element is the name behind its underscore
    refine ⟨fun empty => ?_, fun d hd => word.2 d ?_⟩
    · have none := congrArg String.toList empty
      rw [String.toList_ofList] at none
      cases none
    · rw [String.toList_ofList] at hd
      rw [chars]
      exact List.mem_cons_of_mem _ hd
  · cases spelled

theorem enumDefinition_eq_ok {r : Registry} {name : String} {d : EnumDefinition}
    (known : r.enumDefinition name = .ok d) : r.enums.get? name = some d := by
  unfold Registry.enumDefinition at known
  split at known
  · cases known
    assumption
  · cases known

theorem compositeDefinition_eq_ok {r : Registry} {name : String} {d : CompositeDefinition}
    (known : r.compositeDefinition name = .ok d) : r.composites.get? name = some d := by
  unfold Registry.compositeDefinition at known
  split at known
  · cases known
    assumption
  · cases known

theorem Registry.Plain.spelled {r : Registry} (plain : r.Plain) (coherent : r.Coherent) :
    r.Spelled WordChars IsWord where
  dynamicType := plain.dynamicType
  enums known := plain.enums _ _ (enumDefinition_eq_ok known)
  composites := by
    intro name d known
    have found := compositeDefinition_eq_ok known
    obtain ⟨word, -, attributes⟩ := plain.composites name d found
    exact ⟨coherent.composites name d found ▸ word, fun a ha =>
      ⟨(attributes a ha).1.wordChars, (attributes a ha).2⟩⟩
  elements := by
    intro name element word known
    unfold Registry.arrayElement? at known
    split at known
    · rename_i d found
      cases known
      exact plain.arrays name d found
    · exact elementByName?_isWord word known

/-! ## 4. There and back -/

/-- The placeholders of leaves have the values that the store gives back. -/
def Binds (labelsAsText : Bool) (leaves : Leaves) (bound : String → Option Value) : Prop :=
  ∀ n u, leaves.params.get? n = some u → bound n = some (returned labelsAsText u)

/-- A value read from the store is as deep as the one written. -/
def SameDepth (raw v : Value) : Prop :=
  ∀ (r : Registry) (t element : String), itemType r t element raw = itemType r t element v

/-- A value is recovered under a type: it can be written, and what its fragment stands for is
extracted as the value. -/
def Recovers (labelsAsText : Bool) (r : Registry) (t : String) (v : Value) : Prop :=
  ∀ (name : String) (slot? : Option String) (nested : Bool) (leaves : Leaves),
    leaves.params.get? name = none →
    ∃ fragment leaves', Writes r (.value slot? nested v) name leaves [fragment] leaves'
      ∧ ∀ bound, Binds labelsAsText leaves' bound →
        ∃ raw, fragment.meaning? bound = some raw ∧ extract r t raw = .ok v ∧ SameDepth raw v

variable {labelsAsText : Bool} {r : Registry}

theorem Binds.before {task : Task} {name : String} {leaves leaves' : Leaves}
    {fragments : List Fragment} {bound : String → Option Value}
    (binds : Binds labelsAsText leaves' bound) (h : Writes r task name leaves fragments leaves')
    (free : task.BindsOwn → leaves.params.get? name = none) : Binds labelsAsText leaves bound :=
  fun n u found => binds n u (h.get?_of_bound free found)

/-- The items of an array are recovered one by one. -/
theorem recovers_items {t element : String} {items : List Value}
    (each : ∀ v ∈ items, Recovers labelsAsText r (itemType r t element v) v)
    (element? : Option String) (index : Nat) (name : String) (leaves : Leaves) :
    ∃ fragments leaves', Writes r (.items element? index items) name leaves fragments leaves'
      ∧ ∀ bound, Binds labelsAsText leaves' bound →
        ∃ raws, Fragment.meanings? bound fragments = some raws
          ∧ extractItems r t element raws = .ok items := by
  induction items generalizing index leaves with
  | nil =>
    refine ⟨[], leaves, .noItems, fun bound binds => ⟨[], rfl, ?_⟩⟩
    rw [extractItems]
  | cons v vs ih =>
    have free := get?_of_not_taken (leaves.fresh_not_taken (itemPath name index))
    obtain ⟨fragment, leaves₁, first, recovered⟩ :=
      each v List.mem_cons_self _ element? true leaves free
    obtain ⟨fragments, leaves₂, rest, others⟩ :=
      ih (fun v hv => each v (List.mem_cons_of_mem _ hv)) (index + 1) leaves₁
    refine ⟨fragment :: fragments, leaves₂, .nextItem first rest, fun bound binds => ?_⟩
    -- leaves of the first item are still bound after the others are written
    obtain ⟨raw, value, extracted, depth⟩ := recovered bound (binds.before rest False.elim)
    obtain ⟨raws, values, extracteds⟩ := others bound binds
    refine ⟨raw :: raws, ?_, ?_⟩
    · rw [Fragment.meanings?, value, values]
      rfl
    · rw [extractItems, depth, extracted, extracteds]
      rfl

/-- The attributes of a record are recovered one by one. `done` are the fields that have been taken,
and `blank` those that have been read. -/
theorem recovers_attributes {definition : CompositeDefinition} {listed : List (String × String)}
    {fields : List (String × Value)} (done : List (String × Value)) (typeName : String)
    (named : fields.map (·.1) = listed.map (·.1)) (words : ∀ a ∈ listed, IsWord a.1)
    (distinct : (done.map (·.1) ++ listed.map (·.1)).Nodup)
    (each : ∀ pair ∈ listed.zip fields, Recovers labelsAsText r pair.1.2 pair.2.2)
    (name : String) (leaves : Leaves) :
    ∃ fragments leaves',
      Writes r (.attributes typeName listed (done ++ fields)) name leaves fragments leaves'
      ∧ ∀ bound, Binds labelsAsText leaves' bound →
        ∃ raws, Fragment.meanings? bound fragments = some raws ∧ raws.length = listed.length
          ∧ ∀ blank : List (String × Value), (∀ field ∈ blank, field.1 = "") →
            extractFields r definition blank.length listed (blank ++ raws.map fun v => ("", v))
              = .ok fields := by
  induction listed generalizing fields done leaves with
  | nil =>
    obtain rfl := List.map_eq_nil_iff.1 named
    refine ⟨[], leaves, .noAttributes, fun bound _ => ⟨[], rfl, rfl, fun blank _ => ?_⟩⟩
    rw [extractFields]
  | cons a others ih =>
    obtain ⟨attr, attrType⟩ := a
    obtain _ | ⟨⟨k, v⟩, rest⟩ := fields
    · cases named
    have key : k = attr := (List.cons.inj named).1
    have others' : rest.map (·.1) = others.map (·.1) := (List.cons.inj named).2
    subst key
    -- the field is taken, and stays behind as NULL
    have first : ∀ field ∈ done, field.1 ≠ k := by
      intro field hf same
      obtain ⟨-, -, apart⟩ := List.nodup_append.1 distinct
      exact apart field.1 (List.mem_map_of_mem hf) k List.mem_cons_self same
    have taken : takeField? k (done ++ (k, v) :: rest) = some (v, done ++ (k, .null) :: rest) :=
      takeField?_append first
    have free := get?_of_not_taken (leaves.fresh_not_taken (attributePath name k))
    obtain ⟨fragment, leaves₁, written, recovered⟩ :=
      each ((k, attrType), (k, v)) List.mem_cons_self _ (some attrType) true leaves free
    -- its name is now among those that are done
    have shifted : ((done ++ [(k, Value.null)]).map (·.1) ++ others.map (·.1)).Nodup := by
      rw [List.map_append, List.append_assoc]
      exact distinct
    obtain ⟨fragments, leaves₂, more, recovereds⟩ := ih (done ++ [(k, .null)]) others'
      (fun a ha => words a (List.mem_cons_of_mem _ ha)) shifted
      (fun pair hp => each pair (List.mem_cons_of_mem _ hp)) leaves₁
    rw [List.append_assoc, List.singleton_append] at more
    refine ⟨fragment :: fragments, leaves₂, .nextAttribute taken written more, fun bound binds => ?_⟩
    obtain ⟨raw, value, extracted, -⟩ := recovered bound (binds.before more False.elim)
    obtain ⟨raws, values, length, extracteds⟩ := recovereds bound binds
    refine ⟨raw :: raws, ?_, congrArg (· + 1) length, fun blank unnamed => ?_⟩
    · rw [Fragment.meanings?, value, values]
      rfl
    · have all : ∀ field ∈ blank ++ ("", raw) :: raws.map (fun v => ("", v)), field.1 = "" := by
        intro field hf
        rcases List.mem_append.1 hf with hf | hf
        · exact unnamed field hf
        · rcases List.mem_cons.1 hf with rfl | hf
          · rfl
          · obtain ⟨_, -, rfl⟩ := List.mem_map.1 hf
            rfl
      -- extraction takes the same field by its position
      have found := takeFieldOrAt?_append blank (words (k, attrType) List.mem_cons_self).1 all
      have behind := extracteds (blank ++ [("", .null)]) fun field hf =>
        (List.mem_append.1 hf).elim (unnamed field) fun last => by rw [List.mem_singleton.1 last]
      rw [List.length_append, List.length_singleton, List.append_assoc, List.singleton_append] at behind
      rw [List.map_cons, extractFields]
      split
      · rename_i none
        rw [found] at none
        cases none
      · rename_i w left here
        rw [found] at here
        cases here
        rw [extracted, behind]
        rfl

/-- A self describing value is read from the fields of its row by position. -/
theorem extractDynamic_row {tag host typeName : String} {document : Document}
    (known : r.hostOfTag tag = .ok host) :
    extractDynamic r (.record typeName [("", .text tag), ("", .document document)])
      = .ok (.dynamic tag (.payload document)) := by
  have first : takeFieldOrAt? dynamicTagAttribute 0 [("", .text tag), ("", .document document)]
      = some (.text tag, [("", .null), ("", .document document)]) :=
    takeFieldOrAt?_append [] (by decide) fun field hf => by
      rcases List.mem_cons.1 hf with rfl | hf
      · rfl
      · rw [List.mem_singleton.1 hf]
  have second : takeFieldOrAt? dynamicPayloadAttribute 1 [("", .null), ("", .document document)]
      = some (.document document, [("", .null), ("", .null)]) :=
    takeFieldOrAt?_append [("", .null)] (by decide) fun field hf => by
      rcases List.mem_cons.1 hf with rfl | hf
      · rfl
      · rw [List.mem_singleton.1 hf]
  rw [extractDynamic]
  simp only [tagAndPayload, first, second, documentOf, bind, Except.bind, pure, Except.pure, known]

/-- **Every conforming value is recovered.** The induction is on conformance; the parts of a value are
recovered by the lemmas on items and attributes. -/
theorem Conforms.recovers (labelsAsText : Bool) (plain : r.Plain) (coherent : r.Coherent)
    {t : String} {v : Value} (h : Conforms r t v) : Recovers labelsAsText r t v := by
  induction h with
  | null =>
    intro name slot? nested leaves _
    refine ⟨_, _, .scalar rfl, fun bound binds => ⟨.null, ?_, ?_, fun _ _ _ => rfl⟩⟩
    · exact binds name .null (get?_bind_self leaves name .null)
    · rw [extract]
      rfl
  | @scalar t v standard unsubstituted =>
    intro name slot? nested leaves _
    refine ⟨_, _, .scalar unsubstituted, fun bound binds => ⟨v, ?_, ?_, fun _ _ _ => rfl⟩⟩
    · rw [Fragment.meaning?, binds name v (get?_bind_self leaves name v),
        returned_of_plain _ unsubstituted]
    · rw [extract, standard]
      split <;> rfl
  | @enumeration t label definition category known listed =>
    intro name slot? nested leaves _
    refine ⟨_, _, .enumeration known listed, fun bound binds =>
      ⟨returned labelsAsText (.enumeration t label), ?_, ?_, ?_⟩⟩
    · exact binds name _ (get?_bind_self leaves name _)
    · -- a label comes back as itself or as text, and either is found in the type
      have own := coherent.enums t definition (enumDefinition_eq_ok known)
      cases labelsAsText with
      | true =>
        rw [extract_enumeration category rfl, extractEnum, known]
        simp only [returned, bind, Except.bind, pure, Except.pure, if_true, listed, own]
      | false =>
        rw [extract_enumeration category rfl, extractEnum, known]
        simp only [returned, bind, Except.bind, pure, Except.pure, Bool.false_eq_true, if_false,
          if_true, listed, own]
    · cases labelsAsText <;> exact fun _ _ _ => rfl
  | @dynamic t tag host document category known =>
    intro name slot? nested leaves _
    refine ⟨_, _, .dynamic known rfl, fun bound binds =>
      ⟨.record r.dynamicType [("", .text tag), ("", .document document)], ?_, ?_, fun _ _ _ => rfl⟩⟩
    · have tagBound := binds _ (.text tag) ((get?_bind_of_ne (fresh_tag_ne_payload leaves name)).trans
        (get?_bind_self leaves _ _))
      have payloadBound := binds _ (.document document) (get?_bind_self _ _ _)
      simp only [Fragment.meaning?, Fragment.meanings?, tagBound, payloadBound]
      rfl
    · rw [extract_dynamic category rfl, extractDynamic_row known]
  | @record t definition fields category known named each ih =>
    intro name slot? nested leaves _
    have found := compositeDefinition_eq_ok known
    obtain ⟨-, distinct, words⟩ := plain.composites t definition found
    -- names that agree are equally many
    have complete : fields.length = definition.attributes.length := by
      rw [← List.length_map (f := (·.1)), named, List.length_map]
    obtain ⟨fragments, leaves', written, recovered⟩ := recovers_attributes []
      definition.typeName named (fun a ha => (words a ha).1) distinct ih name leaves
    refine ⟨_, _, .record known complete written, fun bound binds => ?_⟩
    obtain ⟨raws, values, length, extracted⟩ := recovered bound binds
    refine ⟨.record definition.typeName (raws.map fun v => ("", v)), ?_, ?_, fun _ _ _ => rfl⟩
    · rw [Fragment.meaning?, values]
      rfl
    · have own := coherent.composites t definition found
      have all := extracted [] (fun field h => absurd h List.not_mem_nil)
      rw [extract_record category known ((List.length_map _).trans length) all, own]
  | @array t element items category known each ih =>
    intro name slot? nested leaves _
    cases items with
    | nil =>
      refine ⟨_, _, .emptyArray, fun bound _ => ⟨.array [], rfl, ?_, fun _ _ _ => rfl⟩⟩
      exact extract_array category known (by rw [extractItems])
    | cons v vs =>
      obtain ⟨fragments, leaves', written, recovered⟩ :=
        recovers_items ih (slot?.bind r.arrayElement?) 0 name leaves
      refine ⟨_, _, .array written, fun bound binds => ?_⟩
      obtain ⟨raws, values, extracted⟩ := recovered bound binds
      refine ⟨.array raws, ?_, extract_array category known extracted, fun _ _ _ => rfl⟩
      rw [Fragment.meaning?, values]
      rfl

/-! ## 5. Statements -/

/-- A text that is a placeholder is one token. -/
theorem tokens_placeholder {x : String} (word : IsWord x) :
    tokens (":" ++ x) = [⟨.placeholder, ':' :: x.toList⟩] := by
  have nonempty : x.toList ≠ [] := fun empty => word.1 (String.toList_inj.1 empty)
  have parts : (":" ++ x).toList = ':' :: (x.toList ++ []) := by
    rw [String.toList_append, List.append_nil]
    rfl
  have next : nextToken [] ':' (x.toList ++ []) = (.placeholder, x.toList.length) :=
    nextToken_of_word [] nonempty word.2 fun c hc => by cases hc
  rw [tokens, parts, tokensAfter_of_nextToken next, tokensAfter]

theorem names_placeholder {x : String} (word : IsWord x) : names (tokens (":" ++ x)) = [x] := by
  rw [tokens_placeholder word]
  show [String.ofList x.toList] = [x]
  rw [String.ofList_toList]

/-- A fragment takes the place of a statement's only placeholder. -/
theorem expand_placeholder {x : String} (word : IsWord x) {params : Params} {v : Value}
    (found : params.get? x = some v) {fragment : Fragment} {leaves' : Leaves}
    (written : Writes r (.value none false v) x ⟨usedNames (":" ++ x) params, .empty⟩ [fragment]
      leaves') :
    ∃ e, expand r (":" ++ x) params = .ok e ∧ e.sql = fragment.text
      ∧ ∀ n u, leaves'.params.get? n = some u → e.params.get? n = some u := by
  let start : Substitution := ⟨[], params, ⟨usedNames (":" ++ x) params, .empty⟩⟩
  have walk : substitution r (":" ++ x) params = substituteName r start x := by
    have one : Query.distinct (names (tokens (":" ++ x))) = [x] := by
      rw [names_placeholder word]
      rfl
    rw [substitution, one, List.foldlM_cons]
    exact bind_pure _
  -- a value that is substituted gives way to its fragment, any other is passed through
  cases asks : isSubstituted v with
  | true =>
    have step : substituteName r start x = .ok ⟨[(x, fragment)], params.erase x, leaves'⟩ := by
      rw [substituteName, found]
      dsimp only
      rw [if_pos asks, writes_iff.1 written]
      rfl
    have text : (tokens (":" ++ x)).flatMap (replaced [(x, fragment)]) = fragment.text.toList := by
      rw [tokens_placeholder word, List.flatMap_cons, List.flatMap_nil, List.append_nil, replaced]
      have entry : (Token.name? ⟨.placeholder, ':' :: x.toList⟩).bind
          (fun name => entryValue? name [(x, fragment)]) = some fragment := by
        show entryValue? (String.ofList x.toList) [(x, fragment)] = some fragment
        rw [String.ofList_toList, entryValue?, if_pos rfl]
      rw [entry]
    refine ⟨⟨_, _⟩, by rw [expand, walk, step]; rfl, ?_, fun n u bound => ?_⟩
    · rw [text, String.ofList_toList]
    · have leaf := Dict.get?_insertAll (params.erase x) leaves'.params.rise n
      exact leaf.trans (by rw [show entryValue? n leaves'.params.entries = some u from bound]; rfl)
  | false =>
    have step : substituteName r start x = .ok start := by
      rw [substituteName, found]
      dsimp only
      rw [asks, if_neg Bool.false_ne_true]
    refine ⟨⟨":" ++ x, params⟩, by rw [expand, walk, step]; rfl, ?_, fun n u bound => ?_⟩
    · cases written with
      | scalar => exact (String.append_empty).symm
      | _ => cases asks
    · cases written with
      | scalar =>
        rw [Leaves.bind, Dict.get?_insert] at bound
        split at bound
        · rename_i same
          cases bound
          exact same ▸ found
        · cases bound
      | _ => cases asks

/-- **Extraction inverts expansion.** -/
theorem extract_of_expand {r : Registry} (built : r.Built) (plain : r.Plain) {t : String} {v : Value}
    (conforms : Conforms r t v) {x : String} (word : IsWord x) {params : Params}
    (bound : params.get? x = some v) (labelsAsText : Bool) :
    ∃ e raw, expand r (":" ++ x) params = .ok e
      ∧ Reading.read? (fun n => (e.params.get? n).map (returned labelsAsText)) e.sql = some raw
      ∧ extract r t raw = .ok v := by
  obtain ⟨fragment, leaves', written, recovered⟩ := conforms.recovers labelsAsText
    plain built.coherent x none false ⟨usedNames (":" ++ x) params, .empty⟩ rfl
  obtain ⟨e, expanded, sql, kept⟩ := expand_placeholder word bound written
  obtain ⟨raw, value, extracted, -⟩ := recovered
    (fun n => (e.params.get? n).map (returned labelsAsText)) fun n u found =>
      congrArg (Option.map (returned labelsAsText)) (kept n u found)
  refine ⟨e, raw, expanded, ?_, extracted⟩
  -- the text is read, as it is made of words
  have slots : (Task.value none false v).Slots WordChars IsWord := by
    intro slot hs
    cases hs
  have words := (written.all grows_isWord (plain.spelled built.coherent) word slots).1
  have read : Reading.readValue? _ (fragment.text.toList ++ []) = some (raw, []) :=
    Reading.readValue?_text fragment words value nofun
  rw [List.append_nil] at read
  rw [Reading.read?, sql, read]

/-- A store with an enumeration and a record type that holds an array of it. -/
def spotBuilder : RegistryBuilder :=
  RegistryBuilder.empty.withCatalog
    ⟨[("mood", ["calm", "wild"])], [("spot", [("label", "text"), ("moods", "_mood")])], []⟩

def spots : Registry := spotBuilder.start.withDynamicComposite.withArrays

theorem built_spots : spots.Built := .of_catalog rfl rfl rfl (by decide +kernel)

theorem plain_spots : spots.Plain where
  dynamicType := by decide +kernel
  enums := Dict.all_of_entries (by decide +kernel)
  composites := Dict.all_of_entries (by decide +kernel)
  arrays := Dict.all_of_entries (by decide +kernel)

/-- Two spots, one of them unknown, the other with a label and moods. -/
def twoSpots : Value :=
  .array [.record "spot" [("label", .text "pier"), ("moods", .array [.enumeration "mood" "calm", .null])],
    .null]

theorem conforms_twoSpots : Conforms spots "_spot" twoSpots := by
  have calm : Conforms spots "mood" (.enumeration "mood" "calm") := by
    have known : spots.enumDefinition "mood" = .ok ⟨"mood", ["calm", "wild"], default, none, []⟩ := rfl
    exact .enumeration (by decide +kernel) known (by decide +kernel)
  have moods : Conforms spots "_mood" (.array [.enumeration "mood" "calm", .null]) := by
    have element : spots.arrayElement? "_mood" = some "mood" := by decide +kernel
    refine .array (by decide +kernel) element fun v hv => ?_
    rcases List.mem_cons.1 hv with rfl | hv
    · exact calm
    · rw [List.mem_singleton.1 hv]
      exact .null
  have spot : Conforms spots "spot" (.record "spot"
      [("label", .text "pier"), ("moods", .array [.enumeration "mood" "calm", .null])]) := by
    have known : spots.compositeDefinition "spot"
        = .ok ⟨"spot", [("label", "text"), ("moods", "_mood")], none⟩ := rfl
    refine .record (by decide +kernel) known rfl fun pair hp => ?_
    rcases List.mem_cons.1 hp with rfl | hp
    · exact .scalar (by decide +kernel) rfl
    · rw [List.mem_singleton.1 hp]
      exact moods
  have element : spots.arrayElement? "_spot" = some "spot" := by decide +kernel
  refine .array (by decide +kernel) element fun v hv => ?_
  rcases List.mem_cons.1 hv with rfl | hv
  · exact spot
  · rw [List.mem_singleton.1 hv]
    exact .null

/-- The names of the caller clash with names that would be minted. -/
def clashing : Params :=
  Dict.ofList [("x", twoSpots), ("x_p1", .text "mine"), ("x_p1_label", .null)]

theorem extract_of_expand_twoSpots :
    spots.Built ∧ spots.Plain ∧ Conforms spots "_spot" twoSpots ∧ IsWord "x"
      ∧ clashing.get? "x" = some twoSpots
      ∧ ∃ e raw, Expansion.expand spots (":" ++ "x") clashing = .ok e
        ∧ Reading.read? (fun n => (e.params.get? n).map (returned true)) e.sql = some raw
        ∧ Extraction.extract spots "_spot" raw = .ok twoSpots := by
  have word : IsWord "x" := by decide
  have bound : clashing.get? "x" = some twoSpots := rfl
  exact ⟨built_spots, plain_spots, conforms_twoSpots, word, bound,
    extract_of_expand built_spots plain_spots conforms_twoSpots word bound true⟩

end TypedStore
