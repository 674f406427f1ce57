/-
Where extraction fails. The cells that extraction meets are listed depth first, items in order and
attributes as they are registered (`Raw.nodes`), each with its store type and with the composite types of
the records around it. A cell may be at fault by itself (`Node.fault?`), whatever its parts are. Extraction
fails exactly if some cell is at fault, and what it reports is the fault of the first such cell, once for
each record around the cell (`extract_error_iff`).
-/
import TypedStore.Proofs.Extraction.Failing

set_option autoImplicit false

namespace TypedStore.Extraction

/-! ## 1. Cells and their faults -/

/-- A cell with its store type and the types of the records around it, outermost first. -/
structure Node where
  around : List CompositeDefinition
  typeName : String
  value : Value

/-- A failure as it is reported for a record that it happened in. -/
def reportedIn (definition : CompositeDefinition) (e : Error) : Error :=
  .objectMappingFailed (targetOf definition) definition.typeName e

/-- A failure as it is reported for the records around it, outermost first. -/
def reportedThrough (around : List CompositeDefinition) (e : Error) : Error :=
  around.foldr reportedIn e

/-- What is wrong with the label of an enumeration: it is not listed, or the cell has none. -/
def enumFault? (r : Registry) (typeName : String) (v : Value) : Option Error :=
  match r.enumDefinition typeName, v.asText? with
  | .error e, _ => some e
  | .ok _, none => some (.valueConversionFailed HostPath.enumValue v.diagnostic)
  | .ok definition, some label =>
    if definition.hasLabel label then none
    else some (.enumConversionFailed definition.typeName label)

/-- What is wrong with the document of a self describing value. NULL is one. -/
def documentFault? : Value → Option Error
  | .document _ | .null => none
  | .text s => if (Document.ofText? s).isSome then none else some (.serialization none)
  | v => some (.valueConversionFailed HostPath.document v.diagnostic)

/-- What is wrong with the tag of a self describing value. -/
def tagFault? (r : Registry) (tag : String) : Option Error :=
  if r.tagHosts.contains tag then none else some (.dynamicTypeNotFound tag)

/-- What is wrong with a self describing value, from a cell of its own or from a record of a text and a
document. A document that cannot be read comes before a tag that is unknown. A record that is wrong is
shown as it is left, with NULL in the place of what was taken out. -/
def dynamicFault? (r : Registry) : Value → Option Error
  | .dynamic tag _ => tagFault? r tag
  | .record typeName fields =>
    let (tag, left) := attributeCell dynamicTagAttribute 0 fields
    match tag, takeFieldOrAt? dynamicPayloadAttribute 1 left with
    | .text tag, some (payload, _) => (documentFault? payload).or (tagFault? r tag)
    | _, some (_, left) =>
      some (.valueConversionFailed HostPath.dynamicValue (Value.record typeName left).diagnostic)
    | _, none =>
      some (.valueConversionFailed HostPath.dynamicValue (Value.record typeName left).diagnostic)
  | v => some (.valueConversionFailed HostPath.dynamicValue v.diagnostic)

/-- What is wrong with a cell, whatever its items or fields are. -/
def Node.fault? (r : Registry) (n : Node) : Option Error :=
  if n.value.isNull then none
  else
    match r.category n.typeName with
    | .standard => none
    | .enumeration => enumFault? r n.typeName n.value
    | .dynamic => dynamicFault? r n.value
    | .composite =>
      match r.compositeDefinition n.typeName, n.value with
      | .error e, _ => some e
      | .ok definition, .record _ fields =>
        if fields.length = definition.attributes.length then none
        else
          some (.wrongFieldNumberInComposite definition.typeName definition.attributes.length
            fields.length)
      | .ok _, v => some (.valueConversionFailed HostPath.record v.diagnostic)
    | .array =>
      match n.value with
      | .array _ => none
      | v => some (.valueConversionFailed (HostPath.list HostPath.value) v.diagnostic)

/-- What is reported of a cell. -/
def Node.report? (r : Registry) (n : Node) : Option Error :=
  (n.fault? r).map (reportedThrough n.around)

/-- Weight of what there is to extract. -/
def Raw.weight : Raw → Nat
  | .value _ v => v.weight
  | .items _ _ vs => Value.itemsWeight vs
  | .attributes _ _ fields => Value.fieldsWeight fields

/-- Number of the attributes to extract. -/
def Raw.width : Raw → Nat
  | .attributes _ listed _ => listed.length
  | _ => 0

/-- The cells of raw cells, depth first: a cell comes before its items, which are in order, and before its
fields, which are in the order of the attributes. A record with a wrong number of fields has no cells. -/
def Raw.nodes (r : Registry) (around : List CompositeDefinition) (raw : Raw) : List Node :=
  match raw with
  | .value t (.record name fields) =>
    ⟨around, t, .record name fields⟩ ::
      if r.category t = .composite then
        match r.compositeDefinition t with
        | .error _ => []
        | .ok definition =>
          if fields.length = definition.attributes.length then
            Raw.nodes r (around ++ [definition]) (.attributes 0 definition.attributes fields)
          else []
      else []
  | .value t (.array vs) =>
    ⟨around, t, .array vs⟩ ::
      if r.category t = .array then
        match r.arrayElement? t with
        | none => []
        | some element => Raw.nodes r around (.items t element vs)
      else []
  | .value t v => [⟨around, t, v⟩]
  | .items _ _ [] => []
  | .items t element (v :: rest) =>
    Raw.nodes r around (.value (itemType r t element v) v)
      ++ Raw.nodes r around (.items t element rest)
  | .attributes _ [] _ => []
  | .attributes position ((attr, attrType) :: listed) fields =>
    match _taken : takeFieldOrAt? attr position fields with
    | none => ⟨around, attrType, .null⟩ :: Raw.nodes r around (.attributes (position + 1) listed fields)
    | some (v, left) =>
      Raw.nodes r around (.value attrType v)
        ++ Raw.nodes r around (.attributes (position + 1) listed left)
termination_by (raw.weight, raw.width)
decreasing_by
  all_goals simp only [Raw.weight, Raw.width, Prod.lex_def]
  · rw [Value.weight]
    omega
  · rw [Value.weight]
    omega
  · rw [Value.itemsWeight]
    omega
  · rw [Value.itemsWeight]
    omega
  · simp
  all_goals
    have := weight_takeFieldOrAt? _taken
    simp only [List.length_cons]
    omega

/-! ## 2. Checks of single cells -/

/-- What a step fails with. -/
def failureOf {α : Type} : Except Error α → Option Error
  | .ok _ => none
  | .error e => some e

theorem failureOf_eq_some {α : Type} {x : Except Error α} {e : Error} :
    failureOf x = some e ↔ x = .error e := by
  cases x with
  | ok a => constructor <;> nofun
  | error e' => exact ⟨fun h => congrArg _ (Option.some.inj h), fun h => congrArg _ (Except.error.inj h)⟩

theorem failureOf_bind {α β : Type} (x : Except Error α) (next : α → Except Error β) :
    failureOf (x >>= next) = match x with
      | .ok a => failureOf (next a)
      | .error e => some e := by
  cases x <;> rfl

/-- What is wrong with a label is what reading it fails with. -/
theorem enumFault?_eq (r : Registry) (t : String) (v : Value) :
    enumFault? r t v = failureOf (extractEnum r t v) := by
  rw [enumFault?, extractEnum, failureOf_bind]
  cases r.enumDefinition t with
  | error e => rfl
  | ok definition =>
    cases v with
    | enumeration _ label | text label =>
      simp only [Value.asText?, pure_bind]
      split <;> rfl
    | _ => rfl

theorem documentFault?_eq (v : Value) : documentFault? v = failureOf (documentOf v) := by
  cases v with
  | text s =>
    rw [documentFault?, documentOf]
    cases Document.ofText? s <;> rfl
  | _ => rfl

theorem tagFault?_eq (r : Registry) (tag : String) : tagFault? r tag = failureOf (r.hostOfTag tag) := by
  rw [tagFault?, Registry.hostOfTag, Dict.contains]
  cases r.tagHosts.get? tag <;> rfl

/-- Tag and document are taken out one after the other. Where they are not what they should be, what is
left of the record is shown. -/
theorem tagAndPayload_eq (typeName : String) (fields : List (String × Value)) :
    tagAndPayload typeName fields
      = match attributeCell dynamicTagAttribute 0 fields with
        | (tag, left) =>
          match tag, takeFieldOrAt? dynamicPayloadAttribute 1 left with
          | .text tag, some (payload, _) => .ok (tag, payload)
          | _, some (_, left) => wrongKind HostPath.dynamicValue (.record typeName left)
          | _, none => wrongKind HostPath.dynamicValue (.record typeName left) := by
  unfold tagAndPayload attributeCell
  rcases takeFieldOrAt? dynamicTagAttribute 0 fields with _ | ⟨tag, left⟩
  · dsimp only [Option.getD_none]
    rcases takeFieldOrAt? dynamicPayloadAttribute 1 fields with _ | ⟨payload, rest⟩ <;> rfl
  · dsimp only [Option.getD_some]
    rcases takeFieldOrAt? dynamicPayloadAttribute 1 left with _ | ⟨payload, rest⟩ <;> cases tag <;> rfl

/-- What is wrong with a self describing value is what its turning fails with: the record is taken apart,
then the document is read, and then the tag is looked up. -/
theorem dynamicFault?_eq (r : Registry) (v : Value) :
    dynamicFault? r v = failureOf (extractDynamic r v) := by
  have tagged : ∀ tag content, failureOf (do
      let _ ← r.hostOfTag tag
      pure (.dynamic tag content) : Except Error Value) = tagFault? r tag := by
    intro tag content
    rw [tagFault?_eq, failureOf_bind]
    cases r.hostOfTag tag <;> rfl
  cases v with
  | dynamic tag content => exact (tagged tag content).symm
  | record typeName fields =>
    rw [dynamicFault?, extractDynamic, failureOf_bind, tagAndPayload_eq]
    rcases attributeCell dynamicTagAttribute 0 fields with ⟨cell, left⟩
    dsimp only
    split
    · rename_i tag payload _ _
      rw [documentFault?_eq]
      dsimp only
      rw [failureOf_bind]
      cases documentOf payload with
      | error e => rfl
      | ok document => exact (tagged tag (.payload document)).symm
    · rfl
    · rfl
  | _ => rfl

/-! ## 3. The cells of each kind of value -/

variable {r : Registry} {around : List CompositeDefinition} {t : String} {v : Value}

/-- Only types of records and arrays have cells in their cells. -/
theorem nodes_leaf (noRecord : r.category t ≠ .composite) (noArray : r.category t ≠ .array) :
    Raw.nodes r around (.value t v) = [⟨around, t, v⟩] := by
  cases v with
  | record name fields => rw [Raw.nodes, if_neg noRecord]
  | array items => rw [Raw.nodes, if_neg noArray]
  | _ => rw [Raw.nodes] <;> nofun

theorem nodes_null : Raw.nodes r around (.value t .null) = [⟨around, t, .null⟩] := by
  rw [Raw.nodes] <;> nofun

/-- A cell comes before its own cells. -/
theorem nodes_self (r : Registry) (around : List CompositeDefinition) (t : String) (v : Value) :
    ∃ parts, Raw.nodes r around (.value t v) = ⟨around, t, v⟩ :: parts := by
  cases v <;> rw [Raw.nodes] <;> first | exact ⟨_, rfl⟩ | nofun

theorem nodes_record {name : String} {fields : List (String × Value)} {definition : CompositeDefinition}
    (category : r.category t = .composite) (known : r.compositeDefinition t = .ok definition)
    (complete : fields.length = definition.attributes.length) :
    Raw.nodes r around (.value t (.record name fields))
      = ⟨around, t, .record name fields⟩
        :: Raw.nodes r (around ++ [definition]) (.attributes 0 definition.attributes fields) := by
  rw [Raw.nodes, if_pos category, known]
  simp only [complete, if_true]

theorem nodes_array {element : String} {items : List Value} (category : r.category t = .array)
    (known : r.arrayElement? t = some element) :
    Raw.nodes r around (.value t (.array items))
      = ⟨around, t, .array items⟩ :: Raw.nodes r around (.items t element items) := by
  rw [Raw.nodes, if_pos category, known]

/-- An attribute has the cells of its own cell, whether it has a field or not. -/
theorem nodes_attributes {attr attrType : String} {position : Nat} {listed : List (String × String)}
    {fields left : List (String × Value)} (cell : attributeCell attr position fields = (v, left)) :
    Raw.nodes r around (.attributes position ((attr, attrType) :: listed) fields)
      = Raw.nodes r around (.value attrType v)
        ++ Raw.nodes r around (.attributes (position + 1) listed left) := by
  conv => lhs; rw [Raw.nodes]
  split
  · rename_i absent
    rw [attributeCell_of_none absent] at cell
    obtain ⟨rfl, rfl⟩ := Prod.mk.inj cell
    rw [nodes_null, List.singleton_append]
  · rename_i taken
    rw [attributeCell_of_some taken] at cell
    obtain ⟨rfl, rfl⟩ := Prod.mk.inj cell
    rfl

/-! ## 4. The first fault -/

/-- What is reported of the first cell that is at fault. -/
def firstReport (r : Registry) (around : List CompositeDefinition) (raw : Raw) : Option Error :=
  (raw.nodes r around).findSome? (Node.report? r)

theorem report?_of_fault? {own : Error} (fault : Node.fault? r ⟨around, t, v⟩ = some own) :
    Node.report? r ⟨around, t, v⟩ = some (reportedThrough around own) := by
  rw [Node.report?, fault, Option.map_some]

theorem report?_eq_none (sound : Node.fault? r ⟨around, t, v⟩ = none) :
    Node.report? r ⟨around, t, v⟩ = none := by
  rw [Node.report?, sound, Option.map_none]

/-- Where the step of a single cell is all that is done with it, its failure is the first one. -/
theorem firstReport_leaf (noRecord : r.category t ≠ .composite) (noArray : r.category t ≠ .array) :
    firstReport r around (.value t v) = Node.report? r ⟨around, t, v⟩ := by
  rw [firstReport, nodes_leaf noRecord noArray, List.findSome?_singleton]

/-- A cell comes first of its cells. -/
theorem firstReport_self {own : Error} (fault : Node.fault? r ⟨around, t, v⟩ = some own) :
    firstReport r around (.value t v) = some (reportedThrough around own) := by
  obtain ⟨parts, first⟩ := nodes_self r around t v
  rw [firstReport, first, List.findSome?_cons, report?_of_fault? fault]

theorem firstReport_append_of_none {xs ys : List Node} (none : xs.findSome? (Node.report? r) = none) :
    (xs ++ ys).findSome? (Node.report? r) = ys.findSome? (Node.report? r) := by
  rw [List.findSome?_append, none, Option.none_or]

/-- Cells that are extracted are not at fault. The induction is on the derivation. -/
theorem Extracts.firstReport_eq {raw : Raw} {values : List Value} (h : Extracts r raw values)
    (around : List CompositeDefinition) : firstReport r around raw = none := by
  induction h generalizing around with
  | null =>
    rw [firstReport, nodes_null]
    rfl
  | standard category =>
    rw [firstReport_leaf (by rw [category]; nofun) (by rw [category]; nofun)]
    refine report?_eq_none ?_
    simp only [Node.fault?, category, ite_self]
  | enumeration category notNull read =>
    rw [firstReport_leaf (by rw [category]; nofun) (by rw [category]; nofun)]
    refine report?_eq_none ?_
    simp [Node.fault?, category, notNull, enumFault?_eq, read, failureOf]
  | dynamic category notNull read =>
    rw [firstReport_leaf (by rw [category]; nofun) (by rw [category]; nofun)]
    refine report?_eq_none ?_
    simp [Node.fault?, category, notNull, dynamicFault?_eq, read, failureOf]
  | record category known complete each ih =>
    rw [firstReport, nodes_record category known complete, List.findSome?_cons, report?_eq_none]
    · exact ih _
    · simp [Node.fault?, category, known, complete, Value.isNull]
  | array category known each ih =>
    rw [firstReport, nodes_array category known, List.findSome?_cons, report?_eq_none]
    · exact ih _
    · simp [Node.fault?, category, Value.isNull]
  | noItems =>
    rw [firstReport, Raw.nodes]
    rfl
  | nextItem _ _ first others =>
    rw [firstReport, Raw.nodes, firstReport_append_of_none (first around)]
    exact others around
  | noAttributes =>
    rw [firstReport, Raw.nodes]
    rfl
  | nextAttribute cell _ _ first others =>
    rw [firstReport, nodes_attributes cell, firstReport_append_of_none (first around)]
    exact others around

/-- What a cell fails with is what is reported of the first one at fault. The induction is on the
derivation of the failure; a record around adds itself to what is around its fields. -/
theorem Fails.firstReport_eq {raw : Raw} {e : Error} (h : Fails r raw e)
    (around : List CompositeDefinition) :
    firstReport r around raw = some (reportedThrough around e) := by
  induction h generalizing around with
  | enumeration category notNull refused =>
    refine firstReport_self ?_
    simp [Node.fault?, category, notNull, enumFault?_eq, refused, failureOf]
  | dynamic category notNull refused =>
    refine firstReport_self ?_
    simp [Node.fault?, category, notNull, dynamicFault?_eq, refused, failureOf]
  | @noRecord t v category notNull other =>
    obtain ⟨definition, known⟩ := Registry.exists_compositeDefinition category
    refine firstReport_self ?_
    cases v with
    | record name fields => exact absurd rfl (other name fields)
    | null => cases notNull
    | _ => simp [Node.fault?, category, known, Value.isNull]
  | fieldCount category known different =>
    refine firstReport_self ?_
    simp [Node.fault?, category, known, different, Value.isNull]
  | @field t _ definition _ _ category known complete _ ih =>
    rw [firstReport, nodes_record category known complete, List.findSome?_cons, report?_eq_none]
    · -- the record is reported last of what is around its fields
      have within := ih (around ++ [definition])
      rwa [firstReport, reportedThrough, List.foldr_append] at within
    · simp [Node.fault?, category, known, complete, Value.isNull]
  | @noArray t v category notNull other =>
    refine firstReport_self ?_
    cases v with
    | array items => exact absurd rfl (other items)
    | null => cases notNull
    | _ => simp [Node.fault?, category, Value.isNull]
  | item category known _ ih =>
    rw [firstReport, nodes_array category known, List.findSome?_cons, report?_eq_none]
    · exact ih _
    · simp [Node.fault?, category, Value.isNull]
  | firstItem _ ih =>
    have first := ih around
    rw [firstReport] at first
    rw [firstReport, Raw.nodes, List.findSome?_append, first, Option.some_or]
  | laterItem first _ ih =>
    have none := (extracts_of_extract first).firstReport_eq around
    rw [firstReport, Raw.nodes, firstReport_append_of_none none]
    exact ih around
  | firstAttribute cell _ ih =>
    have first := ih around
    rw [firstReport] at first
    rw [firstReport, nodes_attributes cell, List.findSome?_append, first, Option.some_or]
  | laterAttribute cell first _ ih =>
    have none := (extracts_of_extract first).firstReport_eq around
    rw [firstReport, nodes_attributes cell, firstReport_append_of_none none]
    exact ih around

/-! ## 5. Failing -/

/-- What is reported of the first cell at fault is what extraction fails with. -/
theorem firstReport_eq_some {e : Error} :
    firstReport r [] (.value t v) = some e ↔ extract r t v = .error e := by
  cases extracted : extract r t v with
  | ok w =>
    rw [(extracts_of_extract extracted).firstReport_eq []]
    constructor <;> nofun
  | error cause =>
    rw [(fails_of_extract extracted).firstReport_eq []]
    constructor
    · rintro ⟨⟩
      rfl
    · rintro ⟨⟩
      rfl

/-- What a cell is at fault with is a failure of a single cell: no type is missing, and no record is
reported. -/
theorem ofCell_of_fault? {n : Node} {own : Error} (fault : n.fault? r = some own) : own.OfCell := by
  obtain ⟨around, t, v⟩ := n
  unfold Node.fault? at fault
  dsimp only at fault
  split at fault
  · cases fault
  · cases category : r.category t with
    | standard =>
      rw [category] at fault
      cases fault
    | enumeration =>
      obtain ⟨definition, known⟩ := Registry.exists_enumDefinition category
      rw [category] at fault
      dsimp only at fault
      rw [enumFault?_eq, failureOf_eq_some] at fault
      exact ofCell_of_extractEnum known fault
    | dynamic =>
      rw [category] at fault
      dsimp only at fault
      rw [dynamicFault?_eq, failureOf_eq_some] at fault
      exact ofCell_of_extractDynamic fault
    | composite =>
      obtain ⟨definition, known⟩ := Registry.exists_compositeDefinition category
      rw [category, known] at fault
      cases v with
      | record name fields =>
        dsimp only at fault
        split at fault
        · cases fault
        · cases fault
          exact .fieldCount _ _ _
      | _ =>
        cases fault
        exact .wrongKind _ _
    | array =>
      rw [category] at fault
      cases v with
      | array items => cases fault
      | _ =>
        cases fault
        exact .wrongKind _ _

/-- **Failures keep their place.** Extraction fails exactly if some cell is at fault by itself: a value of
the wrong kind, a text that is no label, a record with a wrong number of fields, a tag that is unknown, or
a document that cannot be read. What it fails with is the fault of the first such cell, depth first,
reported once for each record around the cell with its type and its host type, the outermost record
outermost; arrays and self describing values around it add nothing. -/
theorem extract_error_iff {e : Error} :
    extract r t v = .error e
      ↔ ∃ before node after own, Raw.nodes r [] (.value t v) = before ++ node :: after
        ∧ (∀ n ∈ before, n.fault? r = none) ∧ node.fault? r = some own ∧ own.OfCell
        ∧ e = reportedThrough node.around own := by
  rw [← firstReport_eq_some, firstReport, List.findSome?_eq_some_iff]
  constructor
  · rintro ⟨before, node, after, split, report, sound⟩
    obtain ⟨own, fault, rfl⟩ := Option.map_eq_some_iff.1 report
    refine ⟨before, node, after, own, split, fun n hn => ?_, fault, ofCell_of_fault? fault, rfl⟩
    exact Option.map_eq_none_iff.1 (sound n hn)
  · rintro ⟨before, node, after, own, split, sound, fault, -, rfl⟩
    refine ⟨before, node, after, split, ?_, fun n hn => ?_⟩
    · rw [Node.report?, fault, Option.map_some]
    · rw [Node.report?, sound n hn, Option.map_none]

end TypedStore.Extraction
