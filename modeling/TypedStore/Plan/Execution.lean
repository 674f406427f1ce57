/-
Execution of steps and plans. A step resolves its references, expands and binds its parameters, runs
its statement and normalizes the cells it gets back. A plan runs its steps in order within one
transaction and commits only when all of them succeeded; inside a transaction of the caller it joins
it, stays apart from it or nests in it.
-/
import TypedStore.Expansion
import TypedStore.Plan.Step
import TypedStore.Store

set_option autoImplicit false

namespace TypedStore

open TypedStore.Text

variable {σ τ : Type}

/-! ## 1. Statements -/

/-- Reports a failure of a statement with the statement and its parameters, unless it is such a report
already. -/
def reportQuery {α : Type} (q : Query) (e : Error) : Action σ α :=
  match e with
  | .query .. => throw e
  | e => do
    let report := Error.query q.sql (formatParams q.params) e
    Action.note ⟨.error, report.logText⟩
    throw report

/-- Runs an action of the store for a statement. -/
def reporting {α : Type} (q : Query) (act : Action σ α) : Action σ α := do
  match ← act.attempt with
  | .ok a => pure a
  | .error e => reportQuery q e

/-- Normalizes the cells of a row by their store types. -/
def normalizeRow (r : Registry) (row : Row) : Action σ Row := do
  Action.notes (Extraction.rowNotes r row)
  Action.ofExcept (Extraction.extractRow r row)

/-- Normalizes rows up to the first that fails. -/
def normalizeRows (r : Registry) : List Row → Action σ (List Row)
  | [] => pure []
  | row :: rest => do
    let first ← normalizeRow r row
    let others ← normalizeRows r rest
    pure (first :: others)

/-- The first cell of a row, NULL for a row without columns. -/
def firstCell (row : Row) : Value := row.values.headD .null

/-- Runs a bound statement and keeps what the strategy asks for. -/
def runQuery (store : Store σ τ) (at_ : τ) (r : Registry) (q : Query) :
    Strategy → Action σ StepOutput
  | .execute => do
    let affected ← reporting q (store.execute at_ q)
    pure (.count affected)
  | .rows => do
    let rows ← reporting q (do (← store.fetch at_ q).all)
    let rows ← normalizeRows r rows
    pure (.rows rows)
  | .row => do
    match ← reporting q (do (← store.fetch at_ q).first) with
    | none => pure (.row none)
    | some row => do
      let row ← normalizeRow r row
      pure (.row (some row))
  | .scalar => do
    match ← reporting q (do (← store.fetch at_ q).first) with
    | none => pure (.scalar .null)
    | some row => do
      let row ← normalizeRow r row
      pure (.scalar (firstCell row))
  | .scalarColumn => do
    let rows ← reporting q (do (← store.fetch at_ q).all)
    let rows ← normalizeRows r rows
    pure (.column (rows.map firstCell))

/-- Expands and binds a statement. -/
def bindQuery (r : Registry) (sql : String) (params : Params) : Action σ Query := do
  Action.notes (Expansion.notes r sql params)
  let expanded ← Action.ofExcept (Expansion.expand r sql params)
  Action.notes (Statement.notes expanded.sql)
  Action.ofExcept (Query.ofNamed expanded.sql expanded.params)

/-- Expands, binds and runs a statement. -/
def performStatement (store : Store σ τ) (at_ : τ) (r : Registry) (sql : String) (params : Params)
    (strategy : Strategy) : Action σ StepOutput := do
  let q ← bindQuery r sql params
  Action.note (.debug ("Running " ++ strategy.name ++ " " ++ Error.cited (truncateLong q.sql)))
  runQuery store at_ r q strategy

/-- Resolves the references of a step and runs it. -/
def performStep (store : Store σ τ) (at_ : τ) (r : Registry) (progress : Progress) (s : Step) :
    Action σ StepOutput := do
  let params ← Action.ofExcept (progress.resolveParams s.params)
  performStatement store at_ r s.sql params s.form.strategy

/-! ## 2. Single steps -/

/-- Runs a step on its own. There are no other steps to refer to. -/
def runStep (store : Store σ τ) (at_ : τ) (r : Registry) (ds : Declarations) (s : Step) :
    Action σ StepResult := do
  let output ← performStep store at_ r .none s
  Action.ofExcept (s.form.convert ds output)

/-! ## 3. Plans -/

/-- Runs one step of a plan for what it leaves and its typed result. -/
def runPlanned (store : Store σ τ) (at_ : τ) (r : Registry) (ds : Declarations)
    (progress : Progress) (s : Step) : Action σ (StepOutput × StepResult) := do
  let output ← performStep store at_ r progress s
  let typed ← Action.ofExcept (s.form.convert ds output)
  pure (output, typed)

/-- Runs steps from a position on, up to the first that fails. -/
def runSteps (store : Store σ τ) (at_ : τ) (r : Registry) (ds : Declarations) (index : Nat)
    (progress : Progress) (result : PlanResult) : List PlannedStep → Action σ PlanResult
  | [] => pure result
  | s :: rest => do
    match ← (runPlanned store at_ r ds progress s.step).attempt with
    | .ok (output, typed) =>
      runSteps store at_ r ds (index + 1) (progress.record s.id output) (result.record s.id typed)
        rest
    | .error e => do
      Action.note (.debug ("Step " ++ natText index ++ " " ++ s.id.text ++ " failed: " ++ e.logText))
      throw (.step index e)

/-- Where the execution of a plan stands. -/
inductive PlanState where
  | pending
  | running
  | committed
  | rolledBack
deriving DecidableEq, Repr

/-- The name of a state. -/
def PlanState.name : PlanState → String
  | .pending => "pending"
  | .running => "running"
  | .committed => "committed"
  | .rolledBack => "rolled back"

/-- What the log says about a state. -/
def PlanState.note (s : PlanState) (detail : String) : LogRecord :=
  .debug ("Plan " ++ s.name ++ detail)

namespace Plan

/-- Runs the steps of a plan, without an end to the transaction. -/
def run (store : Store σ τ) (at_ : τ) (r : Registry) (ds : Declarations) (p : Plan) :
    Action σ PlanResult := do
  Action.note (PlanState.pending.note (" with " ++ natText p.length ++ " steps"))
  Action.note (PlanState.running.note "")
  runSteps store at_ r ds 0 ⟨p.ids, []⟩ .empty p.steps

/-- Runs a plan in a transaction and ends it: by a commit when all steps succeeded, else by a
rollback, whose own failure is only logged. -/
def complete (store : Store σ τ) (transaction : τ) (r : Registry) (ds : Declarations) (p : Plan) :
    Action σ PlanResult := do
  match ← (p.run store transaction r ds).attempt with
  | .ok result => do
    match ← (store.commit transaction).attempt with
    | .ok () => do
      Action.note (PlanState.committed.note "")
      pure result
    | .error e => do
      Action.note (PlanState.rolledBack.note "")
      throw e
  | .error e => do
    match ← (store.rollback transaction).attempt with
    | .ok () => pure ()
    | .error failure => Action.note ⟨.error, failure.logText⟩
    Action.note (PlanState.rolledBack.note "")
    throw e

/-- Runs a plan in a new transaction of a connection. -/
def execute (store : Store σ τ) (connection : τ) (r : Registry) (ds : Declarations) (p : Plan) :
    Action σ PlanResult := do
  let transaction ← store.begin connection
  p.complete store transaction r ds

/-- Runs a plan in a transaction of its own on a connection of its own. -/
def executeNew (store : Store σ τ) (r : Registry) (ds : Declarations) (p : Plan) :
    Action σ PlanResult := do
  let connection ← store.acquire
  p.execute store connection r ds

/-- Runs a plan inside a transaction. A failure marks the transaction rollback-only; its end is left
to the caller. -/
def join (store : Store σ τ) (transaction : τ) (r : Registry) (ds : Declarations) (p : Plan) :
    Action σ PlanResult := do
  match ← (p.run store transaction r ds).attempt with
  | .ok result => pure result
  | .error e => do
    Action.note (.debug "Transaction marked rollback-only")
    store.setRollbackOnly transaction
    throw e

/-- Runs a plan in a savepoint of a transaction, so that a failure undoes the plan's own work only. -/
def nested (store : Store σ τ) (transaction : τ) (r : Registry) (ds : Declarations) (p : Plan) :
    Action σ PlanResult := do
  let savepoint ← store.savepoint transaction
  p.complete store savepoint r ds

end Plan

/-- How a plan relates to a transaction that the caller holds. -/
inductive Propagation where
  /-- It joins the transaction. -/
  | required
  /-- It runs apart, and what it did survives a rollback of the caller. -/
  | requiresNew
  /-- It nests in the transaction. -/
  | nested
deriving DecidableEq, Repr

instance : Inhabited Propagation := ⟨.required⟩

/-- Runs a plan relative to a transaction. -/
def Plan.executeWithin (store : Store σ τ) (transaction : τ) (r : Registry) (ds : Declarations)
    (p : Plan) : Propagation → Action σ PlanResult
  | .required => p.join store transaction r ds
  | .requiresNew => p.executeNew store r ds
  | .nested => p.nested store transaction r ds

end TypedStore
