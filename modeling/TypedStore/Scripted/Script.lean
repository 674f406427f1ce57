/-
Scripts: sequences of operations on a store that answers by rule. Plans, transactions and results are
kept under names; each operation has an outcome and the events that it caused.
-/
import TypedStore.Plan.Drafts
import TypedStore.Plan.Execution
import TypedStore.Scripted.Store

set_option autoImplicit false

namespace TypedStore

/-! ## 1. Operations and outcomes -/

/-- An operation of a script. Plans, transactions and results are named. -/
inductive ScriptOperation where
  | plan (plan : String)
  | add (plan step : String) (s : NamedStep)
  | addPlan (plan other : String)
  | info (plan : String)
  /-- Runs a plan on the connection. -/
  | execute (plan : String) (result? : Option String)
  /-- Runs a plan on a connection of its own, or relative to a transaction. -/
  | manage (plan : String) (within? : Option (String × Propagation)) (result? : Option String)
  | get (result step : String)
  | take (result step : String)
  | contains (result step : String)
  | begin (transaction : String)
  | savepoint (transaction name : String)
  | commit (transaction : String)
  | rollback (transaction : String)
  | abandon (transaction : String)
  | rollbackOnly (transaction : String) (set : Bool)
  /-- Runs a step on its own. -/
  | session (transaction? : Option String) (s : NamedStep)

/-- What an operation answers. -/
inductive ScriptOutcome where
  | nothing
  | added (id : StepId) (s : Step)
  | length (n : Nat)
  | info (plan : Plan) (steps : List (String × StepId))
  | results (all : PlanResult) (byName : List (String × StepResult))
  | result (r : StepResult)
  | flag (b : Bool)

/-- What turning an answer back into values reports. -/
def ScriptOutcome.bindNotes (ds : Declarations) : ScriptOutcome → List LogRecord
  | .results _ byName => byName.flatMap fun entry => entry.2.bindNotes ds
  | .result r => r.bindNotes ds
  | _ => []

/-- Where a script stands. -/
structure ScriptState where
  journal : Journal ScriptedStore
  drafts : Drafts
  transactions : Dict ScriptedHandle
  results : Dict PlanResult

/-- Before the first operation. -/
def ScriptState.start (s : ScriptedStore) : ScriptState := ⟨⟨s, []⟩, .empty, .empty, .empty⟩

/-! ## 2. Steps of a script -/

/-- What operations do: they change the state and may fail. -/
abbrev ScriptAction := ExceptT DraftError (StateM ScriptState)

namespace Script

/-- Runs an action of the store. -/
def onStore {α : Type} (act : Action ScriptedStore α) : ScriptAction α := do
  let s ← get
  let (answer, journal) := act.perform s.journal
  set { s with journal }
  match answer with
  | .ok a => pure a
  | .error e => throw (.failed e)

/-- An answer that is known already. -/
def ofExcept {α : Type} : Except DraftError α → ScriptAction α
  | .ok a => pure a
  | .error e => throw e

/-- An answer of the library. -/
def ofResult {α : Type} : Except Error α → ScriptAction α
  | .ok a => pure a
  | .error e => throw (.failed e)

/-- Takes a plan out. -/
def takePlan (plan : String) : ScriptAction Plan := do
  let s ← get
  let (p, drafts) ← ofExcept (s.drafts.take plan)
  set { s with drafts }
  pure p

/-- The transaction of a name. -/
def transactionOf (name : String) : ScriptAction ScriptedHandle := do
  ofExcept (named (← get).transactions name)

/-- Takes a transaction out. -/
def takeTransaction (name : String) : ScriptAction ScriptedHandle := do
  let handle ← transactionOf name
  modify fun s => { s with transactions := s.transactions.erase name }
  pure handle

/-- Names a transaction; one that had the name is abandoned. -/
def nameTransaction (name : String) (handle : ScriptedHandle) : ScriptAction Unit := do
  let replaced? := (← get).transactions.get? name
  modify fun s => { s with transactions := s.transactions.insert name handle }
  match replaced? with
  | some replaced => onStore (Scripted.store.abandon replaced)
  | none => pure ()

/-- Keeps the results of a plan under a name. -/
def keepResult (result? : Option String) (r : PlanResult) : ScriptAction ScriptOutcome := do
  match result? with
  | some name => modify fun s => { s with results := s.results.insert name r }
  | none => pure ()
  return .results r ((← get).drafts.namedResults r)

/-- The results of a name, with the identity of a step. -/
def resultAndStep (result step : String) : ScriptAction (PlanResult × StepId) := do
  let s ← get
  let r ← ofExcept (named s.results result)
  let id ← ofExcept (named s.drafts.steps step)
  pure (r, id)

/-- Runs one operation. -/
def operate (r : Registry) (ds : Declarations) : ScriptOperation → ScriptAction ScriptOutcome
  | .plan plan => do
    modify fun s => { s with drafts := s.drafts.start plan }
    pure .nothing
  | .add plan name step => do
    let s ← get
    let (id, step, drafts) ← ofExcept (s.drafts.add plan name step)
    set { s with drafts }
    pure (.added id step)
  | .addPlan plan other => do
    let s ← get
    let (joined, drafts) ← ofExcept (s.drafts.join plan other)
    set { s with drafts }
    pure (.length joined.length)
  | .info plan => do
    let s ← get
    let p ← ofExcept (named s.drafts.plans plan)
    pure (.info p s.drafts.steps.entries)
  | .execute plan result? => do
    let p ← takePlan plan
    let found ← onStore (p.execute Scripted.store .connection r ds)
    keepResult result? found
  | .manage plan within? result? => do
    let p ← takePlan plan
    let found ← match within? with
      | none => onStore (p.executeNew Scripted.store r ds)
      | some (name, propagation) => do
        let handle ← transactionOf name
        onStore (p.executeWithin Scripted.store handle r ds propagation)
    keepResult result? found
  | .get result step => do
    let (found, id) ← resultAndStep result step
    let value ← ofResult (found.get id)
    pure (.result value)
  | .take result step => do
    let (found, id) ← resultAndStep result step
    let (value, left) ← ofResult (found.take id)
    modify fun s => { s with results := s.results.insert result left }
    pure (.result value)
  | .contains result step => do
    let (found, id) ← resultAndStep result step
    pure (.flag (found.contains id))
  | .begin name => do
    let handle ← onStore (Scripted.store.begin .connection)
    nameTransaction name handle
    pure .nothing
  | .savepoint transaction name => do
    let handle ← transactionOf transaction
    let inner ← onStore (Scripted.store.savepoint handle)
    nameTransaction name inner
    pure .nothing
  | .commit name => do
    let handle ← takeTransaction name
    onStore (Scripted.store.commit handle)
    pure .nothing
  | .rollback name => do
    let handle ← takeTransaction name
    onStore (Scripted.store.rollback handle)
    pure .nothing
  | .abandon name => do
    let handle ← takeTransaction name
    onStore (Scripted.store.abandon handle)
    pure .nothing
  | .rollbackOnly name mark => do
    let handle ← transactionOf name
    if mark then onStore (Scripted.store.setRollbackOnly handle)
    let marked ← onStore (Scripted.store.isRollbackOnly handle)
    pure (.flag marked)
  | .session transaction? step => do
    let s ← get
    let step ← ofExcept (step.bind s.drafts.steps)
    let handle ← match transaction? with
      | some name => transactionOf name
      | none => pure .connection
    let value ← onStore (runStep Scripted.store handle r ds step)
    pure (.result value)

/-! ## 3. Whole scripts -/

/-- What an operation left: its outcome and its events. -/
structure Entry where
  outcome : Except DraftError ScriptOutcome
  events : List String

/-- Runs one operation and hands its answer out as values. -/
def answered (r : Registry) (ds : Declarations) (o : ScriptOperation) :
    ScriptAction ScriptOutcome := do
  let outcome ← operate r ds o
  onStore (Action.notes (outcome.bindNotes ds))
  pure outcome

/-- Runs one operation and collects the events that it caused. -/
def step (r : Registry) (ds : Declarations) (o : ScriptOperation) (s : ScriptState) :
    Entry × ScriptState :=
  let (outcome, after) := (answered r ds o).run.run s
  (⟨outcome, after.journal.state.events.drop s.journal.state.events.length⟩, after)

/-- Runs operations one after the other. -/
def run (r : Registry) (ds : Declarations) : List ScriptOperation → ScriptState →
    List Entry × ScriptState
  | [], s => ([], s)
  | o :: rest, s =>
    let (first, s) := step r ds o s
    let (others, s) := run r ds rest s
    (first :: others, s)

end Script

end TypedStore
