/-
A plan is all or nothing. What a step asks of the store and what it leaves is a function of the answer
it gets (`StepRun`); steps run in order up to the first that fails (`StepsRun`); around them stand one
begin and one end, a commit when every step succeeded and else a rollback (`Execution`). Every execution
of a plan on any store makes these calls and no others, and where the store keeps its transactions, what
is durable afterwards is everything or nothing of what the steps did.
-/
import TypedStore.Proofs.Plan.Recording

set_option autoImplicit false

namespace TypedStore

variable {σ τ : Type}

/-! ## 1. Steps -/

/-- A statement with its parameters expanded and bound. -/
def boundQuery (r : Registry) (sql : String) (params : Params) : Except Error Query :=
  (Expansion.expand r sql params).bind fun expanded => Query.ofNamed expanded.sql expanded.params

/-- The statement that a step sends: its references are resolved, its parameters expanded and bound. -/
def Step.query (r : Registry) (progress : Progress) (s : Step) : Except Error Query := do
  let params ← progress.resolveParams s.params
  let expanded ← Expansion.expand r s.sql params
  Query.ofNamed expanded.sql expanded.params

/-- What the failure of a statement is reported as. -/
def Query.reported (q : Query) : Error → Error
  | .query sql params e => .query sql params e
  | e => .query q.sql (formatParams q.params) e

/-- The failure that a stream ends with, if any. -/
def RowStream.ending (stream : RowStream) : Except Error Unit :=
  match stream.failure? with
  | none => .ok ()
  | some failure => .error failure.error

/-- Every row of a stream, or the failure behind the rows. -/
def RowStream.allRows (stream : RowStream) : Except Error (List Row) := do
  stream.ending
  return stream.rows

/-- The first row of a stream. The failure behind it is not met. -/
def RowStream.firstRow (stream : RowStream) : Except Error (Option Row) :=
  match stream.rows with
  | row :: _ => .ok (some row)
  | [] => do
    stream.ending
    return none

/-- What the strategies keep of the rows or the row they ask for. Cells are normalized, and the first
row without normal cells is the failure. -/
def keepRows (r : Registry) (found : List Row) : Except Error StepOutput :=
  (found.mapM (Extraction.extractRow r)).bind fun rows => .ok (.rows rows)

@[inherit_doc keepRows]
def keepColumn (r : Registry) (found : List Row) : Except Error StepOutput :=
  (found.mapM (Extraction.extractRow r)).bind fun rows => .ok (.column (rows.map firstCell))

@[inherit_doc keepRows]
def keepRow (r : Registry) : Option Row → Except Error StepOutput
  | none => .ok (.row none)
  | some found => (Extraction.extractRow r found).bind fun row => .ok (.row (some row))

@[inherit_doc keepRows]
def keepCell (r : Registry) : Option Row → Except Error StepOutput
  | none => .ok (.scalar .null)
  | some found => (Extraction.extractRow r found).bind fun row => .ok (.scalar (firstCell row))

/-- The call that a strategy makes for a statement, and what is kept of the answer. Failures of the
store, also those met behind rows, are reported with the statement. -/
inductive Answered (r : Registry) (t : τ) (q : Query) :
    Strategy → Exchange τ → Except Error StepOutput → Prop where
  | execute (answer : Except Error UInt64) :
      Answered r t q .execute (.execute t q answer)
        ((answer.mapError q.reported).bind fun n => .ok (.count n))
  | rows (answer : Except Error RowStream) :
      Answered r t q .rows (.fetch t q answer)
        (((answer.bind RowStream.allRows).mapError q.reported).bind (keepRows r))
  | row (answer : Except Error RowStream) :
      Answered r t q .row (.fetch t q answer)
        (((answer.bind RowStream.firstRow).mapError q.reported).bind (keepRow r))
  | scalar (answer : Except Error RowStream) :
      Answered r t q .scalar (.fetch t q answer)
        (((answer.bind RowStream.firstRow).mapError q.reported).bind (keepCell r))
  | scalarColumn (answer : Except Error RowStream) :
      Answered r t q .scalarColumn (.fetch t q answer)
        (((answer.bind RowStream.allRows).mapError q.reported).bind (keepColumn r))

/-- The calls of a step with what it leaves and its typed result. A step whose references, expansion
or binding fails sends nothing; every other sends its statement once. -/
inductive StepRun (r : Registry) (ds : Declarations) (t : τ) (progress : Progress) (s : Step) :
    List (Exchange τ) → Except Error (StepOutput × StepResult) → Prop where
  | unsent {e : Error} (refused : s.query r progress = .error e) :
      StepRun r ds t progress s [] (.error e)
  | sent {q : Query} {call : Exchange τ} {output : Except Error StepOutput}
      (bound : s.query r progress = .ok q)
      (answered : Answered r t q s.form.strategy call output) :
      StepRun r ds t progress s [call] do
        let output ← output
        let typed ← s.form.convert ds output
        return (output, typed)

/-! ## 2. Plans -/

/-- The calls of steps in order, from a position on, with the results or the failure of the first step
that fails. -/
inductive StepsRun (r : Registry) (ds : Declarations) (t : τ) :
    Nat → Progress → PlanResult → List PlannedStep → List (Exchange τ) →
      Except Error PlanResult → Prop where
  | done {index : Nat} {progress : Progress} {result : PlanResult} :
      StepsRun r ds t index progress result [] [] (.ok result)
  | failed {index : Nat} {progress : Progress} {result : PlanResult} {s : PlannedStep}
      {rest : List PlannedStep} {calls : List (Exchange τ)} {e : Error}
      (run : StepRun r ds t progress s.step calls (.error e)) :
      StepsRun r ds t index progress result (s :: rest) calls (.error (.step index e))
  | next {index : Nat} {progress : Progress} {result : PlanResult} {s : PlannedStep}
      {rest : List PlannedStep} {calls more : List (Exchange τ)} {output : StepOutput}
      {typed : StepResult} {answer : Except Error PlanResult}
      (run : StepRun r ds t progress s.step calls (.ok (output, typed)))
      (others : StepsRun r ds t (index + 1) (progress.record s.id output) (result.record s.id typed)
        rest more answer) :
      StepsRun r ds t index progress result (s :: rest) (calls ++ more) answer

/-- The calls of a plan in a new transaction with its result. -/
inductive Execution (r : Registry) (ds : Declarations) (connection : τ) (p : Plan) :
    List (Exchange τ) → Except Error PlanResult → Prop where
  | refused {e : Error} : Execution r ds connection p [.begin connection (.error e)] (.error e)
  | committed {t : τ} {statements : List (Exchange τ)} {result : PlanResult}
      (steps : StepsRun r ds t 0 ⟨p.ids, []⟩ .empty p.steps statements (.ok result)) :
      Execution r ds connection p
        (.begin connection (.ok t) :: (statements ++ [.commit t (.ok ())])) (.ok result)
  | notCommitted {t : τ} {statements : List (Exchange τ)} {result : PlanResult} {e : Error}
      (steps : StepsRun r ds t 0 ⟨p.ids, []⟩ .empty p.steps statements (.ok result)) :
      Execution r ds connection p
        (.begin connection (.ok t) :: (statements ++ [.commit t (.error e)])) (.error e)
  | rolledBack {t : τ} {statements : List (Exchange τ)} {index : Nat} {e : Error}
      {answer : Except Error Unit}
      (steps : StepsRun r ds t 0 ⟨p.ids, []⟩ .empty p.steps statements (.error (.step index e))) :
      Execution r ds connection p
        (.begin connection (.ok t) :: (statements ++ [.rollback t answer])) (.error (.step index e))

/-- Steps fail with the failure of one of them and its position. -/
theorem StepsRun.error_eq {r : Registry} {ds : Declarations} {t : τ} {index : Nat}
    {progress : Progress} {result : PlanResult} {steps : List PlannedStep}
    {calls : List (Exchange τ)} {e : Error}
    (run : StepsRun r ds t index progress result steps calls (.error e)) :
    ∃ position cause, e = .step position cause := by
  -- the induction needs an answer that is a variable
  generalize failed : (Except.error e : Except Error PlanResult) = answer at run
  induction run with
  | done => cases failed
  | failed => exact ⟨_, _, Except.error.inj failed⟩
  | next _ _ ih => exact ih failed

/-! ## 3. Following a step -/

namespace Follows

variable {store : Store σ τ} {α : Type}

theorem of_finish (stream : RowStream) :
    Follows store stream.finish stream.finish fun calls answer =>
      calls = [] ∧ answer = stream.ending := by
  unfold RowStream.finish RowStream.ending
  cases stream.failure? with
  | none => exact of_pure ()
  | some failure => exact after_notes (of_throw failure.error)

theorem of_all (stream : RowStream) :
    Follows store stream.all stream.all fun calls answer => calls = [] ∧ answer = stream.allRows :=
  (of_finish stream).silent_bind _ fun _ => of_pure stream.rows

theorem of_first (stream : RowStream) :
    Follows store stream.first stream.first fun calls answer =>
      calls = [] ∧ answer = stream.firstRow := by
  unfold RowStream.first RowStream.firstRow
  cases stream.rows with
  | cons row rest => exact of_pure (some row)
  | nil => exact (of_finish stream).silent_bind _ fun _ => of_pure none

theorem of_reportQuery (q : Query) (e : Error) :
    Follows (α := α) store (reportQuery q e) (reportQuery q e) fun calls answer =>
      calls = [] ∧ answer = .error (q.reported e) := by
  unfold reportQuery
  split
  · exact of_throw _
  · rename_i other
    -- a failure that does not name its query yet is given it
    have same : q.reported e = .query q.sql (formatParams q.params) e := by
      unfold Query.reported
      split
      · exact absurd rfl (other _ _ _)
      · rfl
    rw [same]
    exact after_note (of_throw _)

theorem reporting {act : Action σ α} {act' : Action (σ × List (Exchange τ)) α}
    {post : List (Exchange τ) → Except Error α → Prop} (q : Query)
    (follows : Follows store act act' post) :
    Follows store (TypedStore.reporting q act) (TypedStore.reporting q act') fun calls answer =>
      ∃ answer', post calls answer' ∧ answer = answer'.mapError q.reported := by
  refine follows.bind_attempt ?_
  intro calls answer holds
  cases answer with
  | ok a =>
    refine (of_pure a).imp ?_
    rintro more answer ⟨rfl, rfl⟩
    rw [List.append_nil]
    exact ⟨.ok a, holds, rfl⟩
  | error e =>
    refine (of_reportQuery q e).imp ?_
    rintro more answer ⟨rfl, rfl⟩
    rw [List.append_nil]
    exact ⟨.error e, holds, rfl⟩

theorem of_normalizeRow (r : Registry) (row : Row) :
    Follows store (normalizeRow r row) (normalizeRow r row) fun calls answer =>
      calls = [] ∧ answer = Extraction.extractRow r row :=
  after_notes (of_ofExcept _)

theorem of_normalizeRows (r : Registry) (rows : List Row) :
    Follows store (normalizeRows r rows) (normalizeRows r rows) fun calls answer =>
      calls = [] ∧ answer = rows.mapM (Extraction.extractRow r) := by
  induction rows with
  | nil => exact of_pure []
  | cons row rest ih =>
    rw [List.mapM_cons]
    refine (of_normalizeRow r row).silent_bind _ fun first => ?_
    exact ih.silent_bind _ fun others => of_pure (first :: others)

/-! ## 4. Following a plan -/

/-- The rows of a statement: one call, then what is read of its stream. -/
theorem of_fetch {t : τ} {q : Query} {read : RowStream → Except Error α}
    {reader : {σ : Type} → RowStream → Action σ α}
    (reads : ∀ stream, Follows store (reader stream) (reader stream) fun calls answer =>
      calls = [] ∧ answer = read stream) :
    Follows store (TypedStore.reporting q (do reader (← store.fetch t q)))
      (TypedStore.reporting q (do reader (← store.recording.fetch t q))) fun calls answer =>
        ∃ answer', calls = [.fetch t q answer']
          ∧ answer = (answer'.bind read).mapError q.reported := by
  have called : Follows store (store.fetch t q) (store.recording.fetch t q) fun calls answer =>
      calls = [.fetch t q answer] := of_recorded _ _ fun _ _ _ takes => takes
  refine ((called.bind_known read reads).reporting q).imp ?_
  rintro calls answer ⟨_, ⟨answer', rfl, rfl⟩, rfl⟩
  exact ⟨answer', rfl, rfl⟩

theorem of_runQuery (t : τ) (r : Registry) (q : Query) (strategy : Strategy) :
    Follows store (runQuery store t r q strategy) (runQuery store.recording t r q strategy)
      fun calls answer => ∃ call, calls = [call] ∧ Answered r t q strategy call answer := by
  cases strategy with
  | execute =>
    have called : Follows store (store.execute t q) (store.recording.execute t q)
        fun calls answer => calls = [.execute t q answer] := of_recorded _ _ fun _ _ _ takes => takes
    refine ((called.reporting q).bind_known _ fun n => of_pure (StepOutput.count n)).imp ?_
    rintro calls answer ⟨_, ⟨answer', rfl, rfl⟩, rfl⟩
    exact ⟨_, rfl, .execute answer'⟩
  | rows =>
    refine ((of_fetch of_all).bind_known (keepRows r) fun found => ?_).imp ?_
    · exact (of_normalizeRows r found).silent_bind _ fun rows => of_pure _
    · rintro calls answer ⟨_, ⟨answer', rfl, rfl⟩, rfl⟩
      exact ⟨_, rfl, .rows answer'⟩
  | row =>
    refine ((of_fetch of_first).bind_known (keepRow r) fun found? => ?_).imp ?_
    · cases found? with
      | none => exact of_pure _
      | some row => exact (of_normalizeRow r row).silent_bind _ fun row => of_pure _
    · rintro calls answer ⟨_, ⟨answer', rfl, rfl⟩, rfl⟩
      exact ⟨_, rfl, .row answer'⟩
  | scalar =>
    refine ((of_fetch of_first).bind_known (keepCell r) fun found? => ?_).imp ?_
    · cases found? with
      | none => exact of_pure _
      | some row => exact (of_normalizeRow r row).silent_bind _ fun row => of_pure _
    · rintro calls answer ⟨_, ⟨answer', rfl, rfl⟩, rfl⟩
      exact ⟨_, rfl, .scalar answer'⟩
  | scalarColumn =>
    refine ((of_fetch of_all).bind_known (keepColumn r) fun found => ?_).imp ?_
    · exact (of_normalizeRows r found).silent_bind _ fun rows => of_pure _
    · rintro calls answer ⟨_, ⟨answer', rfl, rfl⟩, rfl⟩
      exact ⟨_, rfl, .scalarColumn answer'⟩

theorem of_bindQuery (r : Registry) (sql : String) (params : Params) :
    Follows store (bindQuery r sql params) (bindQuery r sql params) fun calls answer =>
      calls = [] ∧ answer = boundQuery r sql params := by
  refine after_notes ?_
  refine (of_ofExcept (Expansion.expand r sql params)).silent_bind _ fun expanded => ?_
  exact after_notes (of_ofExcept (Query.ofNamed expanded.sql expanded.params))

/-- A statement that cannot be bound is not sent, and every other is sent once. -/
theorem of_performStatement (t : τ) (r : Registry) (sql : String) (params : Params)
    (strategy : Strategy) :
    Follows store (performStatement store t r sql params strategy)
      (performStatement store.recording t r sql params strategy) fun calls answer =>
        (∃ e, boundQuery r sql params = .error e ∧ calls = [] ∧ answer = .error e)
          ∨ ∃ q call, boundQuery r sql params = .ok q ∧ calls = [call]
            ∧ Answered r t q strategy call answer := by
  refine (of_bindQuery r sql params).bind_silent ?_ ?_
  · intro e refused
    exact .inl ⟨e, refused, rfl, rfl⟩
  · intro q bound
    refine after_note ((of_runQuery t r q strategy).imp ?_)
    rintro calls answer ⟨call, rfl, answered⟩
    exact .inr ⟨q, call, bound, rfl, answered⟩

/-- A step makes no call before it has its statement, and then one. -/
theorem of_performStep (t : τ) (r : Registry) (progress : Progress) (s : Step) :
    Follows store (performStep store t r progress s) (performStep store.recording t r progress s)
      fun calls answer =>
        (∃ e, s.query r progress = .error e ∧ calls = [] ∧ answer = .error e)
          ∨ ∃ q call, s.query r progress = .ok q ∧ calls = [call]
            ∧ Answered r t q s.form.strategy call answer := by
  unfold Step.query
  -- references are resolved before the statement is bound
  refine (of_ofExcept (progress.resolveParams s.params)).bind_silent ?_ ?_
  · intro e refused
    rw [refused]
    exact .inl ⟨e, rfl, rfl, rfl⟩
  · intro params resolved
    rw [resolved]
    exact of_performStatement t r s.sql params s.form.strategy

theorem of_runPlanned (t : τ) (r : Registry) (ds : Declarations) (progress : Progress) (s : Step) :
    Follows store (runPlanned store t r ds progress s) (runPlanned store.recording t r ds progress s)
      (StepRun r ds t progress s) := by
  -- what is made of the output asks nothing of the store
  have converts : ∀ output, Follows store _ _ fun calls answer => calls = [] ∧ answer = _ :=
    fun output => (of_ofExcept (s.form.convert ds output)).silent_bind _ fun typed =>
      of_pure (output, typed)
  refine ((of_performStep t r progress s).bind_known _ converts).imp ?_
  rintro calls answer ⟨_, ⟨e, refused, rfl, rfl⟩ | ⟨q, call, bound, rfl, answered⟩, rfl⟩
  · exact .unsent refused
  · exact .sent bound answered

/-- Steps run up to the first that fails. The induction is on the steps that are left. -/
theorem of_runSteps (t : τ) (r : Registry) (ds : Declarations) (steps : List PlannedStep)
    (index : Nat) (progress : Progress) (result : PlanResult) :
    Follows store (runSteps store t r ds index progress result steps)
      (runSteps store.recording t r ds index progress result steps)
      (StepsRun r ds t index progress result steps) := by
  induction steps generalizing index progress result with
  | nil =>
    refine (of_pure result).imp ?_
    rintro calls answer ⟨rfl, rfl⟩
    exact .done
  | cons s rest ih =>
    refine (of_runPlanned t r ds progress s.step).bind_attempt ?_
    intro calls answer run
    cases answer with
    | error e =>
      -- the steps that are left are not run
      refine after_note ((of_throw (.step index e)).imp ?_)
      rintro more answer ⟨rfl, rfl⟩
      rw [List.append_nil]
      exact .failed run
    | ok pair =>
      refine (ih (index + 1) (progress.record s.id pair.1) (result.record s.id pair.2)).imp ?_
      intro more answer others
      exact .next run others

/-- Two records are logged, and then the steps run. -/
theorem of_run (t : τ) (r : Registry) (ds : Declarations) (p : Plan) :
    Follows store (p.run store t r ds) (p.run store.recording t r ds)
      (StepsRun r ds t 0 ⟨p.ids, []⟩ .empty p.steps) :=
  after_note (after_note (of_runSteps t r ds p.steps 0 ⟨p.ids, []⟩ .empty))

/-- A transaction is ended once, by a commit or by a rollback. -/
theorem of_complete (connection t : τ) (r : Registry) (ds : Declarations) (p : Plan) :
    Follows store (p.complete store t r ds) (p.complete store.recording t r ds) fun calls answer =>
      Execution r ds connection p (.begin connection (.ok t) :: calls) answer := by
  have commits : Follows store (store.commit t) (store.recording.commit t) fun calls answer =>
      calls = [.commit t answer] := of_recorded _ _ fun _ _ _ takes => takes
  have rolls : Follows store (store.rollback t) (store.recording.rollback t) fun calls answer =>
      calls = [.rollback t answer] := of_recorded _ _ fun _ _ _ takes => takes
  -- the steps end with a result or a failure, and each decides the last call
  refine (of_run t r ds p).bind_attempt ?_
  intro statements answer steps
  cases answer with
  | ok result =>
    refine commits.bind_attempt ?_
    rintro ends (e | _) rfl
    · refine after_note ((of_throw e).imp ?_)
      rintro more answer ⟨rfl, rfl⟩
      rw [List.append_nil]
      exact .notCommitted steps
    · refine after_note ((of_pure result).imp ?_)
      rintro more answer ⟨rfl, rfl⟩
      rw [List.append_nil]
      exact .committed steps
  | error e =>
    obtain ⟨index, cause, rfl⟩ := steps.error_eq
    have leaves : Follows store (Action.note (PlanState.rolledBack.note "") >>= fun _ => throw _)
        (Action.note (PlanState.rolledBack.note "") >>= fun _ => throw _) fun more answer =>
          more = [] ∧ answer = (.error (.step index cause) : Except Error PlanResult) :=
      after_note (of_throw _)
    refine rolls.bind_attempt ?_
    rintro ends answer rfl
    -- a rollback that fails is logged, and the failure of the step remains the answer
    have ended : ∀ more answer', more = [] ∧ answer' = (.error (.step index cause) : Except _ _) →
        Execution r ds connection p
          (.begin connection (.ok t) :: (statements ++ ([.rollback t answer] ++ more))) answer' := by
      rintro more answer' ⟨rfl, rfl⟩
      exact .rolledBack steps
    cases answer with
    | ok _ => exact leaves.imp ended
    | error failure => exact after_note (leaves.imp ended)

/-- A plan in a new transaction. -/
theorem of_execute (store : Store σ τ) (connection : τ) (r : Registry) (ds : Declarations)
    (p : Plan) :
    Follows store (p.execute store connection r ds) (p.execute store.recording connection r ds)
      (Execution r ds connection p) := by
  have begins : Follows store (store.begin connection) (store.recording.begin connection)
      fun calls answer => calls = [.begin connection answer] := of_recorded _ _ fun _ _ _ takes => takes
  refine begins.bind ?_ ?_
  · rintro calls e rfl
    exact .refused
  · rintro calls t rfl
    exact of_complete connection t r ds p

end Follows

end TypedStore
