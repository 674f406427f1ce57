/-
What references find. Steps leave outputs in the order of their plan, so a reference to the step at a
position finds the output at that position, fails because the step comes later where there is none yet,
and fails because there is no such step where the plan has none (`Plan.output_progress`). A step that
fails for one of these reasons fails in the resolution of its references, or because a conversion of
the program says so itself (`StepRun.blamed`).
-/
import TypedStore.Proofs.Plan.Atomicity
import TypedStore.Proofs.Plan.Failures
import TypedStore.Proofs.Plan.Handles

set_option autoImplicit false

namespace TypedStore

variable {σ τ : Type}

/-! ## 1. Entries under identities -/

/-- Where identities are distinct, the first entry of an identity is its only one. -/
theorem find?_entry {α : Type} {entries : List (StepId × α)} (distinct : (entries.map (·.1)).Nodup)
    {id : StepId} {x : α} :
    entries.find? (·.1 == id) = some (id, x) ↔ (id, x) ∈ entries := by
  induction entries with
  | nil => simp
  | cons entry rest ih =>
    rw [List.map_cons, List.nodup_cons] at distinct
    by_cases own : entry.1 = id
    · have absent : (id, x) ∉ rest := fun mem =>
        distinct.1 (own ▸ List.mem_map.2 ⟨(id, x), mem, rfl⟩)
      simp [own, absent, eq_comm]
    · have other : (id, x) ≠ entry := by
        rintro rfl
        exact own rfl
      simp [own, other, ih distinct.2]

theorem mem_zip_iff {α β : Type} {as : List α} {bs : List β} {a : α} {b : β} :
    (a, b) ∈ as.zip bs ↔ ∃ k : Nat, as[k]? = some a ∧ bs[k]? = some b := by
  simp only [List.mem_iff_getElem?, List.getElem?_zip_eq_some]

theorem nodup_keys_zip {α β : Type} {as : List α} (distinct : as.Nodup) (bs : List β) :
    ((as.zip bs).map (·.1)).Nodup := by
  have keys : (as.zip bs).map (·.1) = as.take bs.length := by
    clear distinct
    induction as generalizing bs with
    | nil => simp
    | cons a rest ih =>
      cases bs with
      | nil => simp
      | cons b bs => simp [ih]
  rw [keys]
  exact distinct.sublist (List.take_sublist _ _)

/-! ## 2. Outputs by position -/

namespace Plan

/-- Where a run stands once steps of a plan, from the first on, have left outputs. -/
def progress (p : Plan) (outputs : List StepOutput) : Progress :=
  (p.ids.zip outputs).foldl (fun progress left => progress.record left.1 left.2) ⟨p.ids, []⟩

theorem progress_eq (p : Plan) (outputs : List StepOutput) :
    p.progress outputs = ⟨p.ids, (p.ids.zip outputs).reverse⟩ := by
  have folds : ∀ (left : List (StepId × StepOutput)) (progress : Progress),
      left.foldl (fun progress left => progress.record left.1 left.2) progress
        = ⟨progress.planned, left.reverse ++ progress.outputs⟩ := by
    intro left
    induction left with
    | nil => simp
    | cons first rest ih =>
      intro progress
      rw [List.foldl_cons, ih]
      simp [Progress.record]
  simp [progress, folds]

theorem output?_progress {p : Plan} (distinct : p.ids.Nodup) (outputs : List StepOutput)
    (id : StepId) :
    (p.progress outputs).output? id = (p.position? id).bind fun k => outputs[k]? := by
  have keys : (((p.ids.zip outputs).reverse).map (·.1)).Nodup := by
    rw [List.map_reverse, List.nodup_reverse]
    exact nodup_keys_zip distinct outputs
  apply Option.ext
  intro x
  have found : (p.progress outputs).output? id = some x
      ↔ ((p.ids.zip outputs).reverse).find? (·.1 == id) = some (id, x) := by
    rw [Progress.output?, progress_eq, Option.map_eq_some_iff]
    constructor
    · rintro ⟨⟨id', x'⟩, here, rfl⟩
      rw [here]
      have same : id' = id := by simpa using List.find?_some here
      rw [same]
    · intro here
      exact ⟨(id, x), here, rfl⟩
  rw [found, find?_entry keys, List.mem_reverse, mem_zip_iff, Option.bind_eq_some_iff]
  simp only [position?_eq_some distinct]

/-- What a reference to a step finds: the output at the position of the step, or why there is none. -/
theorem output_progress {p : Plan} (distinct : p.ids.Nodup) (outputs : List StepOutput)
    (id : StepId) :
    (p.progress outputs).output id
      = match p.position? id with
        | some k =>
          match outputs[k]? with
          | some output => .ok output
          | none => .error (.dependencyOnFutureStep id)
        | none => .error (.unknownHandle id) := by
  have planned : (p.progress outputs).planned = p.ids := by rw [progress_eq]
  rw [Progress.output, output?_progress distinct, planned]
  rcases stands : p.position? id with _ | k
  · have unknown := position?_eq_none.1 stands
    simp [unknown]
  · have known : id ∈ p.ids := List.mem_of_getElem? ((position?_eq_some distinct).1 stands)
    rcases left : outputs[k]? with _ | output <;> simp [left, known]

end Plan

/-! ## 3. Who says that a step is missing -/

namespace StepOutput

theorem noMiss_selectRow (id : StepId) (list : List Row) (index : Nat) :
    NoMiss (selectRow id list index) := by
  unfold selectRow
  split <;> simp [Error.IsMiss]

theorem noMiss_cell (id : StepId) (r : Row) (column? : Option String) : NoMiss (cell id r column?) := by
  unfold cell
  dsimp only
  split <;> simp [Error.IsMiss]

theorem noMiss_readField (id : StepId) (output : StepOutput) (column? : Option String)
    (index : Nat) : NoMiss (readField id output column? index) := by
  unfold readField
  split
  · exact (noMiss_selectRow _ _ _).bind fun _ => noMiss_cell _ _ _
  · simp [Error.IsMiss]
  · split
    · simp [Error.IsMiss]
    · exact noMiss_cell _ _ _
  all_goals
    -- plain values are refused or read at once
    repeat' split
    all_goals simp [Error.IsMiss]

theorem noMiss_readColumn (id : StepId) (output : StepOutput) (column? : Option String) :
    NoMiss (readColumn id output column?) := by
  unfold readColumn
  split
  · exact NoMiss.mapM fun _ => noMiss_cell _ _ _
  · split <;> simp [Error.IsMiss]
  · simp [Error.IsMiss]
  · simp [Error.IsMiss]
  · simp [Error.IsMiss]

theorem noMiss_readRow (id : StepId) (output : StepOutput) (index : Nat) :
    NoMiss (readRow id output index) := by
  unfold readRow
  split
  · exact noMiss_selectRow _ _ _
  · simp [Error.IsMiss]
  · split <;> simp [Error.IsMiss]
  · simp [Error.IsMiss]
  · simp [Error.IsMiss]
  · simp [Error.IsMiss]

/-- Reading a part of an output can fail, but not because there is no output. -/
theorem noMiss_read (id : StepId) (output : StepOutput) (part : ResultPart) :
    NoMiss (output.read id part) := by
  cases part with
  | field column? index => exact (noMiss_readField id output column? index).map
  | column column? => exact (noMiss_readColumn id output column?).map
  | row index => exact (noMiss_readRow id output index).map

end StepOutput

namespace Plan

variable {p : Plan}

/-- What the resolution of a reference to a step does with what it finds. -/
theorem resolve_progress (distinct : p.ids.Nodup) (outputs : List StepOutput) (id : StepId)
    (part : ResultPart) :
    (p.progress outputs).resolve (.fromStep id part)
      = match p.position? id with
        | some k =>
          match outputs[k]? with
          | some output => output.read id part
          | none => .error (.dependencyOnFutureStep id)
        | none => .error (.unknownHandle id) := by
  rw [Progress.resolve, Plan.output_progress distinct]
  rcases p.position? id with _ | k
  · rfl
  · dsimp only
    rcases outputs[k]? with _ | output <;> rfl

theorem resolve_later_iff (distinct : p.ids.Nodup) {outputs : List StepOutput}
    {id id' : StepId} {part : ResultPart} :
    (p.progress outputs).resolve (.fromStep id part) = .error (.dependencyOnFutureStep id')
      ↔ id' = id ∧ ∃ k, p.position? id = some k ∧ outputs.length ≤ k := by
  rw [resolve_progress distinct]
  rcases stands : p.position? id with _ | k
  · simp
  · by_cases reached : k < outputs.length
    · -- an output that is there is read, and reading fails for other reasons
      have read : outputs[k].read id part ≠ .error (.dependencyOnFutureStep id') :=
        fun h => StepOutput.noMiss_read id _ part _ h trivial
      simp [reached, read]
    · simp [Nat.le_of_not_lt reached, eq_comm]

theorem resolve_unknown_iff (distinct : p.ids.Nodup) {outputs : List StepOutput}
    {id id' : StepId} {part : ResultPart} :
    (p.progress outputs).resolve (.fromStep id part) = .error (.unknownHandle id')
      ↔ id' = id ∧ p.position? id = none := by
  rw [resolve_progress distinct]
  rcases stands : p.position? id with _ | k
  · simp [eq_comm]
  · dsimp only
    rcases outputs[k]? with _ | output
    · simp
    · have read : output.read id part ≠ .error (.unknownHandle id') :=
        fun h => StepOutput.noMiss_read id _ part _ h trivial
      simp [read]

end Plan

/-- The conversions that a reference passes values through. -/
def Reference.conversions : Reference → List (Value → Except Error Value)
  | .value _ | .fromStep _ _ => []
  | .mapped source convert => source.conversions ++ [convert]

/-- The conversions that a step's references pass values through. -/
def Step.conversions (s : Step) : List (Value → Except Error Value) :=
  s.params.entries.flatMap fun entry => entry.2.conversions

/-- Where it comes from that a step is said to be missing: a step that is read from was looked up, or a
conversion of the program says so. -/
inductive Blamed (progress : Progress) (sources : List StepId)
    (conversions : List (Value → Except Error Value)) (e : Error) : Prop where
  | lookUp {id : StepId} (source : id ∈ sources) (failed : progress.output id = .error e)
  | conversion {convert : Value → Except Error Value} {v : Value} (passes : convert ∈ conversions)
      (failed : convert v = .error e)

theorem Blamed.mono {progress : Progress} {sources sources' : List StepId}
    {conversions conversions' : List (Value → Except Error Value)} {e : Error}
    (h : Blamed progress sources conversions e) (more : sources ⊆ sources')
    (more' : conversions ⊆ conversions') : Blamed progress sources' conversions' e := by
  cases h with
  | lookUp source failed => exact .lookUp (more source) failed
  | conversion passes failed => exact .conversion (more' passes) failed

namespace Progress

theorem of_mapColumns {convert : Value → Except Error Value} {columns : List (String × Value)}
    {e : Error} (h : mapColumns convert columns = .error e) : ∃ v, convert v = .error e := by
  induction columns with
  | nil => cases h
  | cons column rest ih =>
    rw [mapColumns] at h
    rcases bind_eq_error h with h | ⟨first, -, h⟩
    · exact ⟨column.2, h⟩
    · rcases bind_eq_error h with h | ⟨others, -, h⟩
      · exact ih h
      · cases h

/-- The induction is on the reference: a conversion fails with what its source fails with, or with what
the conversion says itself. -/
theorem blamed_of_resolve {progress : Progress} {r : Reference} {e : Error}
    (h : progress.resolve r = .error e) (miss : e.IsMiss) :
    Blamed progress r.sources r.conversions e := by
  induction r with
  | value v => cases h
  | fromStep id part =>
    rw [resolve] at h
    rcases bind_eq_error h with h | ⟨output, -, h⟩
    · exact .lookUp (List.mem_singleton.2 rfl) h
    · exact absurd miss (output.noMiss_read id part e h)
  | mapped source convert ih =>
    have last : convert ∈ source.conversions ++ [convert] :=
      List.mem_append_right _ (List.mem_singleton.2 rfl)
    rw [resolve] at h
    rcases bind_eq_error h with h | ⟨resolved, -, h⟩
    · exact (ih h).mono (List.Subset.refl _) (List.subset_append_left _ _)
    · cases resolved with
      | value v =>
        rcases failed : convert v with e' | v'
        · simp only [failed, Except.map, Except.error.injEq] at h
          exact .conversion last (h ▸ failed)
        · simp [failed, Except.map] at h
      | row columns =>
        rcases failed : mapColumns convert columns with e' | columns'
        · simp only [failed, Except.map, Except.error.injEq] at h
          obtain ⟨v, refused⟩ := of_mapColumns failed
          exact .conversion last (h ▸ refused)
        · simp [failed, Except.map] at h

theorem blamed_of_resolveAll {progress : Progress} {entries : List (String × Reference)} {e : Error}
    (h : progress.resolveAll entries = .error e) (miss : e.IsMiss) :
    Blamed progress (entries.flatMap fun entry => entry.2.sources)
      (entries.flatMap fun entry => entry.2.conversions) e := by
  induction entries with
  | nil => cases h
  | cons entry rest ih =>
    rw [resolveAll] at h
    rcases bind_eq_error h with h | ⟨first, -, h⟩
    · exact (blamed_of_resolve h miss).mono (List.subset_append_left _ _)
        (List.subset_append_left _ _)
    · rcases bind_eq_error h with h | ⟨others, -, h⟩
      · exact (ih h).mono (List.subset_append_right _ _) (List.subset_append_right _ _)
      · cases first <;> cases h

theorem blamed_of_resolveParams {progress : Progress} {params : StepParams} {e : Error}
    (h : progress.resolveParams params = .error e) (miss : e.IsMiss) :
    Blamed progress (params.entries.flatMap fun entry => entry.2.sources)
      (params.entries.flatMap fun entry => entry.2.conversions) e := by
  rcases bind_eq_error h with h | ⟨resolved, -, h⟩
  · exact blamed_of_resolveAll h miss
  · cases h

end Progress

theorem Query.noMiss_reported {α : Type} (q : Query) (answer : Except Error α) :
    NoMiss (answer.mapError q.reported) := by
  cases answer with
  | ok a => exact noMiss_ok a
  | error e =>
    simp only [Except.mapError, noMiss_error]
    unfold Query.reported
    split <;> simp [Error.IsMiss]

theorem Answered.noMiss {r : Registry} {t : τ} {q : Query} {strategy : Strategy} {call : Exchange τ}
    {output : Except Error StepOutput} (answered : Answered r t q strategy call output) :
    NoMiss output := by
  cases answered with
  | execute answer => exact (q.noMiss_reported answer).bind fun _ => noMiss_ok _
  | rows answer =>
    exact (q.noMiss_reported _).bind fun _ =>
      (NoMiss.mapM fun _ => Extraction.noMiss_extractRow r _).bind fun _ => noMiss_ok _
  | scalarColumn answer =>
    exact (q.noMiss_reported _).bind fun _ =>
      (NoMiss.mapM fun _ => Extraction.noMiss_extractRow r _).bind fun _ => noMiss_ok _
  | row answer =>
    refine (q.noMiss_reported _).bind fun found? => ?_
    cases found? with
    | none => exact noMiss_ok _
    | some found => exact (Extraction.noMiss_extractRow r found).bind fun _ => noMiss_ok _
  | scalar answer =>
    refine (q.noMiss_reported _).bind fun found? => ?_
    cases found? with
    | none => exact noMiss_ok _
    | some found => exact (Extraction.noMiss_extractRow r found).bind fun _ => noMiss_ok _

/-- A step that fails because a step is missing fails in the resolution of its references. -/
theorem StepRun.blamed {r : Registry} {ds : Declarations} {t : τ} {progress : Progress} {s : Step}
    {calls : List (Exchange τ)} {e : Error} (run : StepRun r ds t progress s calls (.error e))
    (miss : e.IsMiss) : Blamed progress s.sources s.conversions e := by
  -- the cases need an answer that is a variable
  generalize answered : (Except.error e : Except Error (StepOutput × StepResult)) = answer at run
  cases run with
  | unsent refused =>
    cases answered
    rcases bind_eq_error refused with h | ⟨params, -, h⟩
    · exact Progress.blamed_of_resolveParams h miss
    · rcases bind_eq_error h with h | ⟨expanded, -, h⟩
      · exact absurd miss (Expansion.noMiss_expand _ _ _ e h)
      · exact absurd miss (Query.noMiss_ofNamed _ _ e h)
  | sent bound call =>
    rcases bind_eq_error answered.symm with h | ⟨output, -, h⟩
    · exact absurd miss (call.noMiss e h)
    · rcases bind_eq_error h with h | ⟨typed, -, h⟩
      · exact absurd miss (s.form.noMiss_convert ds output e h)
      · cases h

end TypedStore
