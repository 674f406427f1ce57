/-
Who says that a step is missing. Only the resolution of references looks for the results of other steps,
so only it fails because a step comes later or is unknown: expansion, binding, normalization of cells
and typed conversion never do (`NoMiss`), and what a store says about a statement is reported as a
failure of the statement.
-/
import TypedStore.Plan.Execution
import TypedStore.Proofs.Extraction.Failing

set_option autoImplicit false

namespace TypedStore

/-! ## 1. Answers -/

/-- A failure that says that the step of a reference has left nothing: it comes later, or there is no
such step. -/
def Error.IsMiss : Error → Prop
  | .dependencyOnFutureStep _ | .unknownHandle _ => True
  | _ => False

/-- An answer that does not say that the step of a reference is missing. -/
def NoMiss {α : Type} (answer : Except Error α) : Prop := ∀ e, answer = .error e → ¬ e.IsMiss

section Answers

variable {α β : Type}

@[simp] theorem noMiss_ok (a : α) : NoMiss (.ok a) := by
  intro e h
  cases h

@[simp] theorem noMiss_pure (a : α) : NoMiss (pure a : Except Error α) := noMiss_ok a

@[simp] theorem noMiss_error {e : Error} : NoMiss (.error e : Except Error α) ↔ ¬ e.IsMiss := by
  constructor
  · intro h
    exact h e rfl
  · intro h e' same
    cases same
    exact h

theorem NoMiss.bind {answer : Except Error α} {next : α → Except Error β} (first : NoMiss answer)
    (rest : ∀ a, NoMiss (next a)) : NoMiss (answer >>= next) := by
  cases answer with
  | ok a => exact rest a
  | error e =>
    intro e' same
    cases same
    exact first e rfl

theorem NoMiss.map {answer : Except Error α} {f : α → β} (h : NoMiss answer) :
    NoMiss (answer.map f) := by
  cases answer with
  | ok a => simp [Except.map]
  | error e => simpa [Except.map] using h

theorem NoMiss.mapM {f : α → Except Error β} {l : List α} (h : ∀ a, NoMiss (f a)) :
    NoMiss (l.mapM f) := by
  induction l with
  | nil => exact noMiss_pure []
  | cons a rest ih =>
    rw [List.mapM_cons]
    exact (h a).bind fun _ => ih.bind fun _ => noMiss_pure _

end Answers

/-! ## 2. Registries and documents -/

theorem Registry.noMiss_enumDefinition (r : Registry) (name : String) :
    NoMiss (r.enumDefinition name) := by
  unfold enumDefinition
  split <;> simp [Error.IsMiss]

theorem Registry.noMiss_compositeDefinition (r : Registry) (name : String) :
    NoMiss (r.compositeDefinition name) := by
  unfold compositeDefinition
  split <;> simp [Error.IsMiss]

theorem Registry.noMiss_hostOfTag (r : Registry) (tag : String) : NoMiss (r.hostOfTag tag) := by
  unfold hostOfTag
  split <;> simp [Error.IsMiss]

theorem noMiss_document (content : DynamicContent) : NoMiss content.document := by
  unfold DynamicContent.document
  split <;> simp [Error.IsMiss]

/-! ## 3. Expansion and binding -/

namespace Expansion

theorem noMiss_writeDynamic (r : Registry) (name tag : String) (content : DynamicContent)
    (leaves : Leaves) : NoMiss (writeDynamic r name tag content leaves) :=
  (r.noMiss_hostOfTag tag).bind fun _ => (noMiss_document content).bind fun _ => noMiss_pure _

theorem noMiss_writeEnum (r : Registry) (name typeName label : String) (nested : Bool)
    (leaves : Leaves) : NoMiss (writeEnum r name typeName label nested leaves) := by
  refine (r.noMiss_enumDefinition typeName).bind fun definition => ?_
  split <;> simp [Error.IsMiss]

mutual

theorem noMiss_write (r : Registry) (name : String) (slot? : Option String) (nested : Bool)
    (leaves : Leaves) (v : Value) : NoMiss (write r name slot? nested leaves v) := by
  match v with
  | .enumeration typeName label =>
    rw [write]
    exact noMiss_writeEnum r name typeName label nested leaves
  | .array [] =>
    rw [write]
    exact noMiss_ok _
  | .array (v :: vs) =>
    rw [write]
    · exact (noMiss_writeItems r name _ 0 leaves (v :: vs)).bind fun _ => noMiss_pure _
    · intro empty
      cases empty
  | .record typeName fields =>
    rw [write]
    refine (r.noMiss_compositeDefinition typeName).bind fun definition => ?_
    split
    · simp [Error.IsMiss]
    · exact (noMiss_writeAttributes r name _ leaves _ fields).bind fun _ => noMiss_pure _
  | .dynamic tag content =>
    rw [write]
    exact noMiss_writeDynamic r name tag content leaves
  | .null | .boolean _ | .int16 _ | .int32 _ | .int64 _ | .float32 _ | .float64 _ | .decimal _
  | .text _ | .blob _ | .date _ | .time _ | .timestamp _ | .zoned _ | .uuid _ | .document _ =>
    simp [write]
termination_by (v.weight, 0)
decreasing_by
  all_goals simp only [Prod.lex_def, Value.weight]; omega

theorem noMiss_writeItems (r : Registry) (name : String) (element? : Option String) (index : Nat)
    (leaves : Leaves) (vs : List Value) : NoMiss (writeItems r name element? index leaves vs) := by
  match vs with
  | [] =>
    rw [writeItems]
    exact noMiss_ok _
  | v :: vs =>
    rw [writeItems]
    exact (noMiss_write r _ _ _ leaves v).bind fun written =>
      (noMiss_writeItems r name element? (index + 1) written.2 vs).bind fun _ => noMiss_pure _
termination_by (Value.itemsWeight vs, 0)
decreasing_by
  all_goals simp only [Prod.lex_def, Value.itemsWeight]; omega

theorem noMiss_writeAttributes (r : Registry) (name typeName : String) (leaves : Leaves)
    (listed : List (String × String)) (fields : List (String × Value)) :
    NoMiss (writeAttributes r name typeName leaves listed fields) := by
  match listed with
  | [] =>
    rw [writeAttributes]
    exact noMiss_ok _
  | (attr, attrType) :: others =>
    rw [writeAttributes]
    split
    · simp [Error.IsMiss]
    · rename_i v left taken
      exact (noMiss_write r _ _ _ leaves v).bind fun written =>
        (noMiss_writeAttributes r name typeName written.2 others left).bind fun _ => noMiss_pure _
termination_by (Value.fieldsWeight fields, listed.length)
decreasing_by
  all_goals
    have := weight_takeField? ‹takeField? _ _ = some _›
    simp only [Prod.lex_def, List.length_cons]
    omega

end

theorem noMiss_expand (r : Registry) (sql : String) (params : Params) :
    NoMiss (expand r sql params) := by
  -- names are substituted one after the other
  have folds : ∀ (found : List String) (w : Substitution),
      NoMiss (found.foldlM (substituteName r) w) := by
    intro found
    induction found with
    | nil => exact fun w => noMiss_pure w
    | cons name rest ih =>
      intro w
      rw [List.foldlM_cons]
      refine NoMiss.bind ?_ ih
      unfold substituteName
      split
      · exact noMiss_ok w
      · split
        · exact (noMiss_write r name none false w.leaves _).bind fun _ => noMiss_pure _
        · exact noMiss_ok w
  refine (folds _ _).bind fun w => ?_
  split <;> exact noMiss_pure _

end Expansion

theorem Query.noMiss_ofNamed (sql : String) (params : Params) : NoMiss (Query.ofNamed sql params) := by
  have values : ∀ order, NoMiss (valuesOf params order) := by
    intro order
    induction order with
    | nil => exact noMiss_ok []
    | cons name rest ih =>
      unfold valuesOf
      split
      · simp [Error.IsMiss]
      · exact ih.map
  exact (values _).bind fun _ => noMiss_pure _

/-! ## 4. Normalization of cells -/

namespace Extraction

/-- A single cell does not fail because a step is missing, and neither does what is around it. -/
theorem noMiss_extract (r : Registry) (typeName : String) (v : Value) :
    NoMiss (extract r typeName v) := by
  intro e failed miss
  have cell := ofCell_of_extract failed
  cases e <;> first
    | exact miss
    | cases cell

theorem noMiss_extractRow (r : Registry) (row : Row) : NoMiss (extractRow r row) := by
  -- the failure of a row is that of one of its cells
  have cells : ∀ (values : List Value) (position : Nat) (e : Nat × Error),
      extractCells r row.types position values = .error e → ¬ e.2.IsMiss := by
    intro values
    induction values with
    | nil =>
      intro position e h
      cases h
    | cons v rest ih =>
      intro position e h
      -- behind a cell that was turned, a cell further on fails
      have behind : ∀ first : Value, (do
          let others ← extractCells r row.types (position + 1) rest
          pure (first :: others)) = .error e → ¬ e.2.IsMiss := by
        intro first h
        rcases bind_eq_error h with h | ⟨others, -, h⟩
        · exact ih (position + 1) e h
        · cases h
      rw [extractCells] at h
      dsimp only at h
      split at h
      · exact behind v h
      · split at h
        · exact behind _ h
        · rename_i failure failed
          cases h
          exact noMiss_extract r _ v failure failed
  unfold extractRow
  split
  · exact noMiss_ok _
  · rename_i position e failed
    rw [noMiss_error]
    exact cells _ _ _ failed

end Extraction

/-! ## 5. Typed conversion -/

namespace ScalarType

@[simp] theorem noMiss_refuse {α : Type} (s : ScalarType) (shown : String) :
    NoMiss (s.refuse shown : Except Error α) := by
  simp [refuse, Error.IsMiss]

/-- A number that is narrowed where it is in range misses nothing. -/
@[simp] theorem noMiss_narrowed {within : Prop} [Decidable within] (s : ScalarType) (narrowed : Value)
    (shown : String) : NoMiss (if within then .ok narrowed else s.refuse shown) := by
  split <;> simp

theorem noMiss_accept (s : ScalarType) (v : Value) : NoMiss (s.accept v) := by
  unfold accept narrow16 narrow32
  split <;> first
    | simp
    | (split <;> simp)

end ScalarType

theorem HostType.noMiss_refuse {α : Type} (t : HostType) (v : Value) :
    NoMiss (t.refuse v : Except Error α) := by
  simp [refuse, Error.IsMiss]

theorem EnumDeclaration.noMiss_convert (d : EnumDeclaration) (v : Value) : NoMiss (d.convert v) := by
  unfold convert
  split
  -- a label is looked up alike wherever it comes from
  all_goals
    refine NoMiss.bind ?_ fun label => by
      dsimp only
      split <;> simp [Error.IsMiss]
  · exact noMiss_pure _
  · exact noMiss_pure _
  · exact HostType.noMiss_refuse _ _

theorem DynamicDeclaration.noMiss_ofPayload (d : DynamicDeclaration) (tag : String)
    (document : Document) : NoMiss (d.ofPayload tag document) := by
  unfold ofPayload
  split
  · simp [Error.IsMiss]
  · split <;> simp [Error.IsMiss]

theorem noMiss_requiredField (typeName attr : String) (s : ScalarType)
    (fields : List (String × Value)) : NoMiss (requiredField typeName attr s fields) := by
  unfold requiredField
  split
  · exact (s.noMiss_accept _).bind fun _ => noMiss_pure _
  · simp [Error.IsMiss]

theorem DynamicDeclaration.noMiss_convert (d : DynamicDeclaration) (v : Value) :
    NoMiss (d.convert v) := by
  unfold convert
  split
  · exact (noMiss_document _).bind fun _ => d.noMiss_ofPayload _ _
  · refine (noMiss_requiredField _ _ _ _).bind ?_
    rintro ⟨tag, left⟩
    refine (noMiss_requiredField _ _ _ _).bind ?_
    rintro ⟨document, rest⟩
    dsimp only
    split
    · exact d.noMiss_ofPayload _ _
    · exact HostType.noMiss_refuse _ _
  · exact HostType.noMiss_refuse _ _

namespace Declarations

mutual

theorem noMiss_convert (ds : Declarations) (t : HostType) (v : Value) : NoMiss (ds.convert t v) := by
  match t with
  | .scalar s =>
    rw [convert]
    exact (s.noMiss_accept v).map
  | .optional inner =>
    rw [convert]
    split
    · exact noMiss_ok _
    · exact (noMiss_convert ds inner v).map
  | .list item =>
    cases shape : v with
    | array items =>
      rw [convert]
      exact (noMiss_convertItems ds item items).map
    | _ =>
      simp only [convert]
      exact HostType.noMiss_refuse _ _
  | .declared path =>
    rw [convert]
    split
    · exact EnumDeclaration.noMiss_convert _ v
    · exact DynamicDeclaration.noMiss_convert _ v
    · -- whatever the failure of a field is, it is reported as one of the record
      split
      · split <;> simp [Error.IsMiss]
      · exact HostType.noMiss_refuse _ _
    · exact HostType.noMiss_refuse _ _
termination_by (v.weight, sizeOf t)
decreasing_by
  · simp [Prod.lex_def]
  · subst shape
    simp only [Prod.lex_def, Value.weight]
    omega

theorem noMiss_convertItems (ds : Declarations) (item : HostType) (items : List Value) :
    NoMiss (ds.convertItems item items) := by
  match items with
  | [] =>
    rw [convertItems]
    exact noMiss_ok _
  | v :: rest =>
    rw [convertItems]
    exact (noMiss_convert ds item v).bind fun _ =>
      (noMiss_convertItems ds item rest).bind fun _ => noMiss_pure _
termination_by (Value.itemsWeight items, 0)
decreasing_by
  all_goals simp only [Prod.lex_def, Value.itemsWeight]; omega

end

theorem noMiss_convertColumns (ds : Declarations) (target : String)
    (declared : List FieldDeclaration) (row : Row) :
    NoMiss (ds.convertColumns target declared row) := by
  induction declared generalizing row with
  | nil =>
    rw [convertColumns]
    exact noMiss_ok _
  | cons f others ih =>
    rw [convertColumns]
    split
    · exact (noMiss_convert ds _ _).bind fun _ => (ih _).bind fun _ => noMiss_pure _
    · -- a column that is not there has a default, is absent or fails
      have behind : ∀ first : HostValue, NoMiss (do
          let rest ← ds.convertColumns target others row
          pure ((f.name, first) :: rest)) := fun first => (ih row).bind fun _ => noMiss_pure _
      dsimp only
      split
      · exact behind _
      · split
        · exact behind _
        · exact NoMiss.bind (by simp [Error.IsMiss]) behind

end Declarations

theorem RowTarget.noMiss_ofRow (target : RowTarget) (ds : Declarations) (row : Row) :
    NoMiss (target.ofRow ds row) := by
  cases target with
  | labeled => exact noMiss_ok _
  | mapped d => exact (ds.noMiss_convertColumns _ _ row).map.map

theorem StepForm.noMiss_convert (ds : Declarations) (form : StepForm) (output : StepOutput) :
    NoMiss (form.convert ds output) := by
  unfold convert
  split
  · exact noMiss_ok _
  · exact noMiss_ok _
  · exact (NoMiss.mapM fun row => RowTarget.noMiss_ofRow _ ds row).map
  · exact noMiss_ok _
  · exact (RowTarget.noMiss_ofRow _ ds _).map
  · exact (ds.noMiss_convert _ _).map
  · exact (NoMiss.mapM fun v => ds.noMiss_convert _ v).map
  · exact noMiss_ok _
  · simp [Error.IsMiss]

end TypedStore
