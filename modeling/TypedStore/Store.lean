/-
Stores. A store runs statements on connections and transactions and opens and ends transactions. What
a store is stays open: its operations are the fields of a record over an arbitrary state, so every
answer and every failure is possible. Actions keep what they did when they fail, and they keep a log.
-/
import TypedStore.Statement.Query

set_option autoImplicit false

namespace TypedStore

/-! ## 1. Actions -/

/-- The state of a store together with what has been logged. -/
structure Journal (σ : Type) where
  state : σ
  log : List LogRecord

/-- Something that happens to a store and may fail. The state is kept on failure. -/
abbrev Action (σ α : Type) := ExceptT Error (StateM (Journal σ)) α

namespace Action

variable {σ α : Type}

/-- Logs a record. -/
def note (r : LogRecord) : Action σ Unit :=
  modify fun j => { j with log := j.log ++ [r] }

/-- Logs records. -/
def notes (rs : List LogRecord) : Action σ Unit :=
  modify fun j => { j with log := j.log ++ rs }

/-- An answer that is known already. -/
def ofExcept : Except Error α → Action σ α
  | .ok a => pure a
  | .error e => throw e

/-- An action whose failure becomes its answer. -/
def attempt (act : Action σ α) : Action σ (Except Error α) :=
  ExceptT.mk do
    let answer ← act.run
    pure (.ok answer)

/-- An action without its log. -/
def silently (act : Action σ α) : Action σ α := do
  let before ← get
  let answer ← attempt act
  modify fun j => { j with log := before.log }
  ofExcept answer

/-- Changes the state of the store. -/
def change (f : σ → σ) : Action σ Unit :=
  modify fun j => { j with state := f j.state }

/-- The state of the store. -/
def state : Action σ σ := do return (← get).state

/-- Runs an action on a journal. -/
def perform (act : Action σ α) (j : Journal σ) : Except Error α × Journal σ :=
  act.run.run j

end Action

/-! ## 2. Rows from a store -/

/-- A failure with what is logged once it is met. -/
structure StreamFailure where
  error : Error
  notes : List LogRecord

/-- Rows that a statement yields one after the other, possibly ended by a failure. Who reads fewer
rows does not meet it. -/
structure RowStream where
  rows : List Row
  failure? : Option StreamFailure

namespace RowStream

variable {σ : Type}

/-- A stream that fails before the first row. -/
def failed (e : Error) : RowStream := ⟨[], some ⟨e, []⟩⟩

/-- Meets the end of a stream. -/
def finish (stream : RowStream) : Action σ Unit :=
  match stream.failure? with
  | none => pure ()
  | some failure => do
    Action.notes failure.notes
    throw failure.error

/-- Every row. -/
def all (stream : RowStream) : Action σ (List Row) := do
  stream.finish
  pure stream.rows

/-- The first row, if there is one. -/
def first (stream : RowStream) : Action σ (Option Row) :=
  match stream.rows with
  | row :: _ => pure (some row)
  | [] => do
    stream.finish
    pure none

end RowStream

/-! ## 3. Stores -/

/-- Operations of a store with state `σ`. Connections and transactions, savepoints included, are
named by handles `τ`. -/
structure Store (σ τ : Type) where
  /-- Runs a statement for its rows. -/
  fetch : τ → Query → Action σ RowStream
  /-- Runs a statement for the number of rows it affects. -/
  execute : τ → Query → Action σ UInt64
  /-- Opens a transaction on a connection. -/
  begin : τ → Action σ τ
  /-- Opens a savepoint in a transaction. -/
  savepoint : τ → Action σ τ
  /-- Ends a transaction and keeps its work, unless it is marked rollback-only. -/
  commit : τ → Action σ Unit
  /-- Ends a transaction and discards its work. -/
  rollback : τ → Action σ Unit
  /-- Forgets a transaction that nobody ended. -/
  abandon : τ → Action σ Unit
  /-- Marks a transaction rollback-only. -/
  setRollbackOnly : τ → Action σ Unit
  /-- Whether a transaction is marked rollback-only. -/
  isRollbackOnly : τ → Action σ Bool
  /-- Hands out a connection. -/
  acquire : Action σ τ

end TypedStore
