/-
Scripts at a server. One connection is current; plans are kept under names, the registry is the one
loaded last, and a transaction holds operations of its own. Every operation has an outcome.
-/
import TypedStore.Plan.Drafts
import TypedStore.Plan.Execution
import TypedStore.Registry.Loading
import TypedStore.Server.Catalog
import TypedStore.Server.Store

set_option autoImplicit false

namespace TypedStore.Server

/-! ## 1. Operations and outcomes -/

/-- How a transaction ends. -/
inductive TransactionEnd where
  | commit
  | rollback
  | abandon
deriving DecidableEq, Repr

/-- An operation of a script. Plans are named, and data sources open connections to an address. -/
inductive ServerOperation where
  /-- Makes a new connection the current one. -/
  | connect (address : String)
  /-- Makes a connection of a data source the current one. -/
  | acquire (address : String)
  /-- Runs a plan on a connection of a data source. -/
  | manage (plan address : String)
  | add (plan step : String) (s : NamedStep)
  | catalog (schemas : List String)
  | load (b : RegistryBuilder)
  /-- Runs a plan on the current connection. -/
  | plan (plan : String)
  /-- Runs a plan relative to the transaction, with a data source at hand. -/
  | within (plan address : String) (propagation : Propagation)
  | fetch (q : Query)
  | execute (q : Query)
  /-- Runs a step on its own. -/
  | session (s : NamedStep)
  | rollbackOnly (set : Bool)
  /-- Holds a transaction, or a savepoint inside of one. -/
  | transaction (operations : List ServerOperation) (ending : TransactionEnd)

/-- What an operation answers. -/
inductive ServerOutcome where
  | nothing
  | address (text : String)
  | added (id : StepId) (s : Step)
  | catalog (c : Catalog)
  | results (all : PlanResult) (byName : List (String × StepResult))
  | rows (rows : List Row)
  | count (n : UInt64)
  | result (r : StepResult)
  | flag (b : Bool)
  | transaction (outcomes : List (Except DraftError ServerOutcome)) (ending : Except DraftError Unit)

/-- What turning an answer back into values reports. Answers within a transaction have reported
theirs. -/
def ServerOutcome.bindNotes (ds : Declarations) : ServerOutcome → List LogRecord
  | .results _ byName => byName.flatMap fun entry => entry.2.bindNotes ds
  | .result r => r.bindNotes ds
  | _ => []

/-- Where a script stands. -/
structure ServerScript where
  journal : Journal ServerState
  drafts : Drafts
  registry : Registry
  connection? : Option ServerHandle

/-- Before the first operation. -/
def ServerScript.start (s : ServerState) (r : Registry) : ServerScript := ⟨⟨s, []⟩, .empty, r, none⟩

/-! ## 2. Steps of a script -/

/-- What operations do: they change the state and may fail. -/
abbrev ServerAction := ExceptT DraftError (StateM ServerScript)

namespace ServerScript

/-- Runs an action of the server. -/
def onServer {α : Type} (act : Action ServerState α) : ServerAction α := do
  let s ← get
  let (answer, journal) := act.perform s.journal
  set { s with journal }
  match answer with
  | .ok a => pure a
  | .error e => throw (.failed e)

/-- An answer that is known already. -/
def ofExcept {α : Type} : Except DraftError α → ServerAction α
  | .ok a => pure a
  | .error e => throw e

/-- The transaction that operations are in, or else the current connection. -/
def handle (within? : Option ServerHandle) : ServerAction ServerHandle := do
  match within?, (← get).connection? with
  | some transaction, _ => pure transaction
  | none, some connection => pure connection
  | none, none => throw (.failed (.msg "There is no connection"))

/-- Leaves the current connection and opens another. -/
def reconnect (address : String) : ServerAction Unit := do
  modify fun s => { s with connection? := none }
  let connection ← onServer (connect address)
  modify fun s => { s with connection? := some connection }

/-- Takes a plan out and runs it. -/
def runPlan (plan : String) (act : Plan → Registry → Action ServerState PlanResult) :
    ServerAction ServerOutcome := do
  let s ← get
  let (p, drafts) ← ofExcept (s.drafts.take plan)
  set { s with drafts }
  let found ← onServer (act p s.registry)
  pure (.results found (drafts.namedResults found))

/-- Ends a transaction. -/
def finish (transaction : ServerHandle) : TransactionEnd → Action ServerState Unit
  | .commit => commit transaction
  | .rollback => rollback transaction
  | .abandon => abandon transaction

/-- Hands an answer out as values. -/
def reporting (ds : Declarations) (outcome : ServerOutcome) : ServerAction ServerOutcome := do
  onServer (Action.notes (outcome.bindNotes ds))
  pure outcome

/-! ## 3. Running operations -/

mutual

/-- Runs one operation, in a transaction or on the current connection. -/
def operate (ds : Declarations) (within? : Option ServerHandle) :
    ServerOperation → ServerAction ServerOutcome
  | .connect address => do
    reconnect address
    pure .nothing
  | .acquire address => do
    reconnect address
    pure (.address address)
  | .manage plan address =>
    runPlan plan fun p r => p.executeNew (store address) r ds
  | .add plan name step => do
    let s ← get
    let (id, step, drafts) ← ofExcept (s.drafts.add plan name step)
    set { s with drafts }
    pure (.added id step)
  | .catalog schemas => do
    let at_ ← handle within?
    let found ← onServer (loadCatalog at_ schemas)
    pure (.catalog found)
  | .load b => do
    let at_ ← handle within?
    let registry ← onServer (b.loadBy (loadCatalog at_))
    modify fun s => { s with registry }
    pure .nothing
  | .plan plan => do
    let at_ ← handle within?
    runPlan plan fun p r => p.execute (store "") at_ r ds
  | .within plan address propagation => do
    let at_ ← handle within?
    runPlan plan fun p r => p.executeWithin (store address) at_ r ds propagation
  | .fetch q => do
    let at_ ← handle within?
    let found ← onServer (do (← fetch at_ q).all)
    pure (.rows found)
  | .execute q => do
    let at_ ← handle within?
    let n ← onServer (execute at_ q)
    pure (.count n)
  | .session step => do
    let s ← get
    let step ← ofExcept (step.bind s.drafts.steps)
    let at_ ← handle within?
    let value ← onServer (runStep (store "") at_ s.registry ds step)
    pure (.result value)
  | .rollbackOnly mark => do
    let at_ ← handle within?
    if mark then onServer ((store "").setRollbackOnly at_)
    let marked ← onServer ((store "").isRollbackOnly at_)
    pure (.flag marked)
  | .transaction operations ending => do
    let at_ ← handle within?
    let opened ← onServer (if within?.isSome then savepoint at_ else beginOn at_)
    let outcomes ← ExceptT.lift (operateAll ds (some opened) operations)
    let ended ← ExceptT.lift (onServer (finish opened ending)).run
    pure (.transaction outcomes ended)

/-- Runs operations one after the other, whatever comes of them. -/
def operateAll (ds : Declarations) (within? : Option ServerHandle) :
    List ServerOperation → StateM ServerScript (List (Except DraftError ServerOutcome))
  | [] => pure []
  | o :: rest => do
    let first ← (operate ds within? o >>= reporting ds).run
    let others ← operateAll ds within? rest
    pure (first :: others)

end

/-- Runs a script: the outcomes and what it left. -/
def run (ds : Declarations) (operations : List ServerOperation) (s : ServerScript) :
    List (Except DraftError ServerOutcome) × ServerScript :=
  (operateAll ds none operations).run s

end ServerScript

end TypedStore.Server
