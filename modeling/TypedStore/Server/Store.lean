/-
A server as a store. Boundaries are sent over the connection of a transaction and may be refused, a
begin that is refused is followed by a rollback at once, and a transaction marked rollback-only is
rolled back when it is asked to commit.
-/
import TypedStore.Server.Login
import TypedStore.Server.Statement

set_option autoImplicit false

namespace TypedStore.Server

/-! ## 1. Boundaries -/

/-- Sends a boundary and says whether it was carried out. A broken connection sends nothing. -/
def command (at_ : ServerHandle) (event : String) : Action ServerState Bool := do
  let s ← Action.state
  if s.isAlive at_ then
    send event
    pure (!s.peer.refused.contains event)
  else pure false

/-- Sends a boundary whose failure is told in the given words. -/
def boundary (at_ : ServerHandle) (event failure : String) : Action ServerState Unit := do
  if !(← command at_ event) then throw (.msg failure)

/-- Opens a transaction or savepoint of a handle. -/
def openOn (at_ : ServerHandle) (isSavepoint : Bool) : Action ServerState ServerHandle := do
  let (handle, s) := (← Action.state).opened at_ isSavepoint
  Action.change fun _ => s
  pure handle

/-! ## 2. Transactions -/

/-- Opens a transaction. -/
def beginOn (at_ : ServerHandle) : Action ServerState ServerHandle := do
  if ← command at_ "begin" then
    Action.note (.debug "Transaction started")
    openOn at_ false
  else
    let _ ← command at_ "rollback"
    throw (.msg "While starting a transaction")

/-- Opens a savepoint. -/
def savepoint (at_ : ServerHandle) : Action ServerState ServerHandle := do
  boundary at_ "savepoint" "While creating a savepoint"
  openOn at_ true

/-- The boundary that discards the work of a transaction. -/
def rollbackEvent (t : ServerTransaction) : String :=
  if t.isSavepoint then "rollback to savepoint" else "rollback"

/-- The boundary that keeps the work of a transaction. -/
def commitEvent (t : ServerTransaction) : String := if t.isSavepoint then "release" else "commit"

/-- Ends a transaction and discards its work. -/
def rollback (at_ : ServerHandle) : Action ServerState Unit := do
  let t := (← Action.state).transaction at_
  boundary at_ (rollbackEvent t) "While rolling back a transaction"

/-- Ends a transaction and keeps its work, unless it is marked rollback-only. -/
def commit (at_ : ServerHandle) : Action ServerState Unit := do
  let t := (← Action.state).transaction at_
  if t.rollbackOnly then
    Action.note (.debug "Rolling back a transaction marked rollback-only")
    rollback at_
    throw .unexpectedRollback
  else boundary at_ (commitEvent t) "While committing a transaction"

/-- Rolls back a transaction that nobody ended, whatever the server answers. -/
def abandon (at_ : ServerHandle) : Action ServerState Unit := do
  let t := (← Action.state).transaction at_
  let _ ← command at_ (rollbackEvent t)
  pure ()

/-! ## 3. The store -/

/-- The operations of a server whose connections are opened to an address. -/
def store (address : String) : Store ServerState ServerHandle where
  fetch := fetch
  execute := execute
  begin := beginOn
  savepoint := savepoint
  commit := commit
  rollback := rollback
  abandon := abandon
  setRollbackOnly at_ := Action.change fun s => s.marked at_
  isRollbackOnly at_ := do return ((← Action.state).transaction at_).rollbackOnly
  acquire := connect address

end TypedStore.Server
