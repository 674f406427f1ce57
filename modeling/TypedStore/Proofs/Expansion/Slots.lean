/-
The types of slots. Expansion and extraction both thread the type of an array down to the values in it,
the one to cast what has no type of its own, NULL and arrays without items, the other to normalize what it
reads. Expansion goes on to the element type at every level; extraction does so only where that is an
array type again, and keeps the type of the array for its further dimensions. So both have one type for a
slot if every array around it stands where the element type is an array type, and only then
(`slots_agree_iff`).
-/
import TypedStore.Proofs.Extraction.Retraction

set_option autoImplicit false

namespace TypedStore

/-! ## 1. Places inside arrays -/

/-- The value at a path of indices through arrays. -/
def Value.at? (v : Value) : List Nat → Option Value
  | [] => some v
  | i :: path =>
    match v with
    | .array items => (items[i]?).bind (·.at? path)
    | _ => none

/-- The fragment at a path of indices through constructors. -/
def Fragment.at? (f : Fragment) : List Nat → Option Fragment
  | [] => some f
  | i :: path =>
    match f with
    | .array items | .row items _ => (items[i]?).bind (·.at? path)
    | _ => none

/-- A value that has no type of its own, so that it takes that of its slot. -/
def Value.isUntyped : Value → Bool
  | .null | .array [] => true
  | _ => false

/-- Where something is below an index, there is an array with an item there. -/
theorem exists_item {v u : Value} {i : Nat} {path : List Nat} (here : v.at? (i :: path) = some u) :
    ∃ items item, v = .array items ∧ items[i]? = some item ∧ item.at? path = some u := by
  cases v with
  | array items =>
    obtain ⟨item, found, below⟩ := Option.bind_eq_some_iff.1 here
    exact ⟨items, item, rfl, found, below⟩
  | _ => cases here

theorem at?_cons {items : List Value} {item : Value} {i : Nat} (found : items[i]? = some item)
    (path : List Nat) : (Value.array items).at? (i :: path) = item.at? path := by
  rw [Value.at?, found, Option.bind_some]

theorem forall₂_getElem? {α β : Type} {R : α → β → Prop} {xs : List α} {ys : List β}
    (h : List.Forall₂ R xs ys) {i : Nat} {x : α} (found : xs[i]? = some x) :
    ∃ y, ys[i]? = some y ∧ R x y := by
  obtain ⟨inRange, rfl⟩ := List.getElem?_eq_some_iff.1 found
  have inRange' : i < ys.length := h.length_eq ▸ inRange
  exact ⟨ys[i], List.getElem?_eq_getElem inRange', h.get inRange inRange'⟩

/-! ## 2. The casts of expansion -/

namespace Expansion

/-- The type of the slots at a depth inside a slot, as expansion threads it. -/
def slotType? (r : Registry) (slot? : Option String) : Nat → Option String
  | 0 => slot?
  | depth + 1 => slotType? r (slot?.bind r.arrayElement?) depth

theorem slotType?_none (r : Registry) (depth : Nat) : slotType? r none depth = none := by
  induction depth with
  | zero => rfl
  | succ depth ih => exact ih

/-- A fragment for an untyped value with the cast of its slot. -/
inductive CastTo (slot? : Option String) : Value → Fragment → Prop where
  | null {name : String} : CastTo slot? .null (.parameter name slot?)
  | emptyArray : CastTo slot? (.array []) (.emptyArray slot?)

variable {r : Registry} {name : String} {leaves leaves' : Leaves} {fragments : List Fragment}

/-- A fragment was written for a value in a slot. -/
def WrittenIn (r : Registry) (slot? : Option String) (v : Value) (f : Fragment) : Prop :=
  ∃ name leaves leaves', Writes r (.value slot? true v) name leaves [f] leaves'

/-- Every item of an array has the fragment at its place. -/
theorem Writes.items {element? : Option String} {index : Nat} {vs : List Value}
    (h : Writes r (.items element? index vs) name leaves fragments leaves') :
    List.Forall₂ (WrittenIn r element?) vs fragments := by
  generalize which : Task.items element? index vs = task at h
  induction h generalizing index vs with
  | noItems =>
    cases which
    exact .nil
  | nextItem first _ _ rest =>
    cases which
    exact .cons ⟨_, _, _, first⟩ (rest rfl)
  | _ => cases which

/-- What holds of the fields that other attributes have behind one that is taken holds of their fields
before. -/
theorem forall₂_blankField {P : String × String → Value → Fragment → Prop} {attr : String}
    {listed : List (String × String)} {fields : List (String × Value)} (apart : attr ∉ listed.map (·.1))
    (h : List.Forall₂ (fun a f => ∃ v, fieldValue? a.1 (blankField attr fields) = some v ∧ P a v f)
      listed fragments) :
    List.Forall₂ (fun a f => ∃ v, fieldValue? a.1 fields = some v ∧ P a v f) listed fragments := by
  induction h with
  | nil => exact .nil
  | cons first _ ih =>
    rw [List.map_cons, List.mem_cons, not_or] at apart
    rw [fieldValue?_blankField_of_ne apart.1] at first
    exact .cons first (ih apart.2)

/-- Every attribute of a record has the fragment of its field at its place. -/
theorem Writes.attributes {typeName : String} {listed : List (String × String)}
    {fields : List (String × Value)} (once : (listed.map (·.1)).Nodup)
    (h : Writes r (.attributes typeName listed fields) name leaves fragments leaves') :
    List.Forall₂ (fun a f => ∃ v, fieldValue? a.1 fields = some v ∧ WrittenIn r (some a.2) v f)
      listed fragments := by
  generalize which : Task.attributes typeName listed fields = task at h
  induction h generalizing listed fields with
  | noAttributes =>
    cases which
    exact .nil
  | nextAttribute taken first _ _ rest =>
    cases which
    rw [List.map_cons, List.nodup_cons] at once
    obtain ⟨v, found, same⟩ := Option.map_eq_some_iff.1 taken
    obtain ⟨rfl, rfl⟩ := Prod.mk.inj same
    exact .cons ⟨v, found, _, _, _, first⟩ (forall₂_blankField once.1 (rest once.2 rfl))
  | _ => cases which

/-- **The cast of an untyped value.** It is to the type of the slot at its depth. The induction is on the
path. -/
theorem WrittenIn.castTo {slot? : Option String} {v u : Value} {f : Fragment}
    (h : WrittenIn r slot? v f) {path : List Nat} (here : v.at? path = some u)
    (untyped : u.isUntyped = true) :
    ∃ g, f.at? path = some g ∧ CastTo (slotType? r slot? path.length) u g := by
  induction path generalizing slot? v f with
  | nil =>
    cases here
    obtain ⟨_, _, _, written⟩ := h
    cases written with
    | scalar plain =>
      cases u with
      | null => exact ⟨_, rfl, .null⟩
      | _ => first | cases untyped | cases plain
    | emptyArray => exact ⟨_, rfl, .emptyArray⟩
    | _ => cases untyped
  | cons i path ih =>
    obtain ⟨items, item, rfl, found, below⟩ := exists_item here
    obtain ⟨_, _, _, written⟩ := h
    cases written with
    | scalar plain => cases plain
    | emptyArray => cases found
    | array each =>
      obtain ⟨g, there, part⟩ := forall₂_getElem? each.items found
      obtain ⟨leaf, at_, cast⟩ := ih part below
      exact ⟨leaf, by rw [Fragment.at?, there, Option.bind_some, at_], cast⟩

end Expansion

/-! ## 3. The types of extraction -/

namespace Extraction

/-- The type under which the value at a path is extracted, none where extraction does not get there. -/
def slotType? (r : Registry) (t : String) (v : Value) : List Nat → Option String
  | [] => some t
  | i :: path =>
    match v with
    | .array items =>
      if r.category t = .array then
        (r.arrayElement? t).bind fun element =>
          (items[i]?).bind fun item => slotType? r (itemType r t element item) item path
      else none
    | _ => none

variable {r : Registry} {t s element : String} {v w u : Value} {path : List Nat}

theorem exists_element (category : r.category t = .array) :
    ∃ element, r.arrayElement? t = some element := by
  unfold Registry.category at category
  split at category <;> try cases category
  split at category <;> try cases category
  split at category <;> try cases category
  split at category
  · exact Option.isSome_iff_exists.1 ‹_›
  · cases category

theorem slotType?_cons {items : List Value} {item : Value} {i : Nat} (found : items[i]? = some item)
    (category : r.category t = .array) (known : r.arrayElement? t = some element) (path : List Nat) :
    slotType? r t (.array items) (i :: path) = slotType? r (itemType r t element item) item path := by
  rw [slotType?, if_pos category, known, Option.bind_some, found, Option.bind_some]

/-- An array inside an array is extracted under an array type. -/
theorem category_itemType (category : r.category t = .array) (nested : isArray v = true) :
    r.category (itemType r t element v) = .array := by
  cases v with
  | array items =>
    rw [itemType]
    split
    · assumption
    · exact category
  | _ => cases nested

/-- Only an array that stands where the element type is none keeps the type of the array around it. -/
theorem itemType_eq (deeper : isArray v = true → r.category element = .array) :
    itemType r t element v = element := by
  cases v with
  | array items => rw [itemType, if_pos (deeper rfl)]
  | _ => rfl

/-- Extraction gets to every place inside the arrays of an array type, and meets the arrays there under
array types. -/
theorem exists_slotType (top : isArray v = true → r.category t = .array)
    (here : v.at? path = some u) :
    ∃ s, slotType? r t v path = some s ∧ (isArray u = true → r.category s = .array) := by
  induction path generalizing t v with
  | nil =>
    cases here
    exact ⟨t, rfl, top⟩
  | cons i path ih =>
    obtain ⟨items, item, rfl, found, below⟩ := exists_item here
    obtain ⟨element, known⟩ := exists_element (top rfl)
    rw [slotType?_cons found (top rfl) known]
    exact ih (category_itemType (top rfl)) below

/-- Every item of an array is extracted under its type. -/
theorem Extracts.items {vs ws : List Value} (h : Extracts r (.items t element vs) ws) :
    List.Forall₂ (fun v w => extract r (itemType r t element v) v = .ok w) vs ws := by
  generalize which : Raw.items t element vs = raw at h
  induction h generalizing vs with
  | noItems =>
    cases which
    exact .nil
  | nextItem first _ _ rest =>
    cases which
    exact .cons (extracts_iff.1 first) (rest rfl)
  | _ => cases which

/-- The extraction of a value has at every place the extraction of what stands there under the type of
the place. -/
theorem extract_at (ok : extract r t v = .ok w) (reached : slotType? r t v path = some s)
    (here : v.at? path = some u) : ∃ u', w.at? path = some u' ∧ extract r s u = .ok u' := by
  induction path generalizing t v w with
  | nil =>
    cases reached
    cases here
    exact ⟨w, rfl, ok⟩
  | cons i path ih =>
    obtain ⟨items, item, rfl, found, below⟩ := exists_item here
    rw [slotType?] at reached
    split at reached
    · rename_i category
      obtain ⟨element, known⟩ := exists_element category
      rw [known, Option.bind_some, found, Option.bind_some] at reached
      cases extracts_of_extract ok with
      | array category' known' each =>
        obtain rfl := Option.some.inj (known.symm.trans known')
        obtain ⟨item', there, first⟩ := forall₂_getElem? each.items found
        rw [at?_cons there]
        exact ih first reached below
      | standard other | enumeration other | dynamic other =>
        rw [category] at other
        cases other
    · cases reached

end Extraction

/-! ## 4. Agreement -/

/-- Every array on the way to a place, and at the place, stands where expansion has an array type. -/
def Layered (r : Registry) (t : String) (v : Value) (path : List Nat) : Prop :=
  ∀ way, way <+: path → ∀ items, v.at? way = some (.array items) →
    ∃ s, Expansion.slotType? r (some t) way.length = some s ∧ r.category s = .array

/-- Only arrays have elements: no type of another category has an element type by its name or by the
listing of the store. -/
def Registry.ArraysApart (r : Registry) : Prop :=
  ∀ name, (r.arrayElement? name).isSome = true → r.category name = .array

variable {r : Registry} {t : String} {v u : Value} {path : List Nat}

open Extraction (isArray itemType itemType_eq slotType?_cons exists_element exists_slotType)

theorem Layered.item {items : List Value} {item : Value} {element : String} {i : Nat}
    (h : Layered r t (.array items) (i :: path)) (found : items[i]? = some item)
    (known : r.arrayElement? t = some element) : Layered r element item path := by
  intro way before inner here
  have deeper := h (i :: way) ((List.prefix_cons_inj i).2 before) inner (by rw [at?_cons found, here])
  rwa [List.length_cons, Expansion.slotType?, Option.bind_some, known] at deeper

/-- Where all arrays around stand in slots of array types, extraction has the type of expansion. The
induction is on the path. -/
theorem Layered.agree (top : isArray v = true → r.category t = .array) (here : v.at? path = some u)
    (h : Layered r t v path) :
    Expansion.slotType? r (some t) path.length = Extraction.slotType? r t v path := by
  induction path generalizing t v with
  | nil => rfl
  | cons i path ih =>
    obtain ⟨items, item, rfl, found, below⟩ := exists_item here
    obtain ⟨element, known⟩ := exists_element (top rfl)
    have inside := h.item found known
    -- an item that is an array stands in a slot of the element type
    have deeper : isArray item = true → r.category element = .array := by
      intro array
      cases item with
      | array inner =>
        obtain ⟨s, own, category⟩ := inside [] (List.nil_prefix) inner rfl
        cases own
        exact category
      | _ => cases array
    rw [slotType?_cons found (top rfl) known, itemType_eq deeper, List.length_cons, Expansion.slotType?,
      Option.bind_some, known]
    exact ih deeper below inside

/-- Where extraction has the type of expansion, all arrays around stand in slots of array types. The
induction is on the path: below a type without elements expansion has no type at all. -/
theorem layered_of_agree (apart : r.ArraysApart) (top : isArray v = true → r.category t = .array)
    (here : v.at? path = some u)
    (agree : Expansion.slotType? r (some t) path.length = Extraction.slotType? r t v path) :
    Layered r t v path := by
  induction path generalizing t v with
  | nil =>
    intro way before items array
    rw [List.prefix_nil.1 before] at array ⊢
    cases array
    exact ⟨t, rfl, top rfl⟩
  | cons i path ih =>
    obtain ⟨items, item, rfl, found, below⟩ := exists_item here
    obtain ⟨element, known⟩ := exists_element (top rfl)
    rw [slotType?_cons found (top rfl) known, List.length_cons, Expansion.slotType?, Option.bind_some,
      known] at agree
    have deeper : isArray item = true → r.category element = .array := by
      intro nested
      by_contra flat
      cases item with
      | array inner =>
        rw [itemType, if_neg flat] at agree
        cases path with
        | nil =>
          obtain rfl := Option.some.inj agree
          exact flat (top rfl)
        | cons j path =>
          have none : r.arrayElement? element = none :=
            Option.not_isSome_iff_eq_none.1 fun has => flat (apart element has)
          rw [List.length_cons, Expansion.slotType?, Option.bind_some, none,
            Expansion.slotType?_none] at agree
          obtain ⟨s, reached, -⟩ := exists_slotType (fun _ => top rfl) below
          rw [← agree] at reached
          cases reached
      | _ => cases nested
    rw [itemType_eq deeper] at agree
    intro way before inner array
    cases way with
    | nil => exact ⟨t, rfl, top rfl⟩
    | cons j way =>
      obtain ⟨rfl, inside⟩ := List.cons_prefix_cons.1 before
      rw [at?_cons found] at array
      have deep := ih deeper below agree way inside inner array
      rwa [List.length_cons, Expansion.slotType?, Option.bind_some, known]

/-- **When both sides have one type for a slot.** An attribute of a record is declared with an array type,
and the field of its name has NULL or an array without items at a path of indices. Expansion casts that to
the type of the slot at its depth, and extraction of the field gets there under a type, which is an array
type for an array. The two types are the same if every array around, and the one at the place itself,
stands where expansion has an array type; and where only arrays have elements, they are the same in no
other case. -/
theorem slots_agree_iff (distinct : r.DistinctAttributes) {name typeName attr : String}
    {slot? : Option String} {nested : Bool} {leaves leaves' : Leaves} {fields : List (String × Value)}
    {f : Fragment} {definition : CompositeDefinition} {position : Nat}
    (known : r.compositeDefinition typeName = .ok definition)
    (written : Expansion.write r name slot? nested leaves (.record typeName fields) = .ok (f, leaves'))
    (declared : definition.attributes[position]? = some (attr, t)) (category : r.category t = .array)
    (bound : fieldValue? attr fields = some v) (here : v.at? path = some u)
    (untyped : u.isUntyped = true) :
    ∃ g s, f.at? (position :: path) = some g
      ∧ Expansion.CastTo (Expansion.slotType? r (some t) path.length) u g
      ∧ Extraction.slotType? r t v path = some s ∧ (isArray u = true → r.category s = .array)
      ∧ (∀ w, Extraction.extract r t v = .ok w →
          ∃ u', w.at? path = some u' ∧ Extraction.extract r s u = .ok u')
      ∧ (Layered r t v path → Expansion.slotType? r (some t) path.length = some s)
      ∧ (r.ArraysApart → Expansion.slotType? r (some t) path.length = some s → Layered r t v path) := by
  have top : isArray v = true → r.category t = .array := fun _ => category
  obtain ⟨s, reached, array⟩ := exists_slotType top here
  -- the fragment of the record, and in it that of the attribute
  have derived := Expansion.writes_iff.2 written
  cases derived with
  | scalar plain => cases plain
  | record known' _ each =>
    rename_i fragments definition'
    obtain rfl := Except.ok.inj (known.symm.trans known')
    have once := distinct typeName definition (compositeDefinition_eq_ok known)
    obtain ⟨part, there, v', found, own⟩ := forall₂_getElem? (each.attributes once) declared
    obtain rfl := Option.some.inj (bound.symm.trans found)
    obtain ⟨g, inside, cast⟩ := own.castTo here untyped
    refine ⟨g, s, by rw [Fragment.at?, there, Option.bind_some, inside], cast, reached, array,
      fun w ok => Extraction.extract_at ok reached here, fun layered => ?_, fun apart agree => ?_⟩
    · rw [layered.agree top here, reached]
    · exact layered_of_agree apart top here (agree.trans reached.symm)

/-- A spot with two moods, one of them unknown. -/
def moody : List (String × Value) :=
  [("label", .text "pier"), ("moods", .array [.enumeration "mood" "calm", .null])]

/-- The unknown mood is cast to the type that it is extracted under. -/
theorem slots_agree_iff_moody :
    spots.DistinctAttributes ∧ ∃ f leaves' g,
      Expansion.write spots "x" none false ⟨["x"], .empty⟩ (.record "spot" moody) = .ok (f, leaves')
        ∧ f.at? [1, 1] = some g ∧ Expansion.CastTo (some "mood") .null g
        ∧ Extraction.slotType? spots "_mood" (.array [.enumeration "mood" "calm", .null]) [1]
          = some "mood" := by
  have succeeds : (Expansion.write spots "x" none false ⟨["x"], .empty⟩
      (.record "spot" moody)).toOption.isSome = true := by cbv
  have known : spots.compositeDefinition "spot"
      = .ok ⟨"spot", [("label", "text"), ("moods", "_mood")], none⟩ := rfl
  have type : Expansion.slotType? spots (some "_mood") 1 = some "mood" := by decide +kernel
  have category : spots.category "_mood" = .array := by decide +kernel
  refine ⟨Expansion.distinctAttributes_spots, ?_⟩
  cases ok : Expansion.write spots "x" none false ⟨["x"], .empty⟩ (.record "spot" moody) with
  | error e =>
    rw [ok] at succeeds
    cases succeeds
  | ok written =>
    have declared : [("label", "text"), ("moods", "_mood")][1]? = some ("moods", "_mood") := rfl
    have here : (Value.array [.enumeration "mood" "calm", .null]).at? [1] = some .null := rfl
    obtain ⟨g, s, there, cast, reached, -, -, agree, -⟩ :=
      slots_agree_iff Expansion.distinctAttributes_spots known ok declared category rfl here rfl
    have layered : Layered spots "_mood" (.array [.enumeration "mood" "calm", .null]) [1] := by
      intro way before items array
      rcases List.prefix_cons_iff.1 before with rfl | ⟨rest, rfl, inside⟩
      · exact ⟨"_mood", rfl, category⟩
      · rw [List.prefix_nil.1 inside] at array
        cases array
    obtain rfl := Option.some.inj (type.symm.trans (agree layered))
    exact ⟨written.1, written.2, g, rfl, there, type ▸ cast, reached⟩

/-- A store with a record type that holds an array of numbers. -/
def boards : Registry :=
  (RegistryBuilder.empty.withCatalog ⟨[], [("board", [("cells", "_int4")])], []⟩).start
    |>.withDynamicComposite |>.withArrays

/-- The statement that a board of some cells is expanded into. -/
def placedBoard (cells : Value) : Option String :=
  (Expansion.expand boards "SELECT :g" (Dict.ofList [("g", .record "board" [("cells", cells)])])).toOption.map
    (·.sql)

/-- An array without items in the second dimension is cast to the type of an element, and NULL there to no
type at all. Extraction has the type of the array for the one, and that of an element for the other. -/
theorem slots_disagree :
    boards.Built ∧ boards.DistinctAttributes
      ∧ boards.category "_int4" = .array ∧ boards.category "int4" = .standard
      ∧ placedBoard (.array [.array []]) = some "SELECT ROW(ARRAY['\x7b\x7d'::int4])::board"
      ∧ Extraction.slotType? boards "_int4" (.array [.array []]) [0] = some "_int4"
      ∧ placedBoard (.array [.array [.null, .int32 1]])
        = some "SELECT ROW(ARRAY[ARRAY[:g_cells_p1_p1, :g_cells_p1_p2]])::board"
      ∧ Extraction.slotType? boards "_int4" (.array [.array [.null, .int32 1]]) [0, 0] = some "int4" :=
  ⟨.of_catalog rfl rfl rfl (by decide +kernel), Dict.all_of_entries (by decide +kernel),
    by decide +kernel, by decide +kernel, by cbv, by decide +kernel, by cbv, by decide +kernel⟩

end TypedStore
