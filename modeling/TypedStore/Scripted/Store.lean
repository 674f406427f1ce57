/-
A store that answers by rule, for rehearsing plans without a server. It runs no statement: the first
rule whose beginning fits says what comes back. It keeps the boundaries and statements it saw as
events, and which statements became durable; a boundary can be refused.
-/
import TypedStore.Registry.Basic
import TypedStore.Store

set_option autoImplicit false

namespace TypedStore

open TypedStore.Text

/-! ## 1. Rules -/

/-- A cell of an answer. -/
inductive CellTemplate where
  | value (v : Value)
  /-- A parameter of the statement, NULL where there are fewer. -/
  | param (index : Nat)
  /-- The number of parameters. -/
  | count
  /-- The parameters as messages show them. -/
  | shown

/-- The value of a cell for the parameters of a statement. -/
def CellTemplate.fill (params : List Value) : CellTemplate → Value
  | .value v => v
  | .param index => params[index]?.getD .null
  | .count => .int64 (Int64.ofNat params.length)
  | .shown => .text (formatParams params)

/-- A column of an answer: label, store type and cell. -/
structure ColumnTemplate where
  label : String
  type? : Option String
  cell : CellTemplate

/-- An answer to a statement. -/
structure ScriptedAnswer where
  rows : List (List ColumnTemplate)
  affected? : Option UInt64
  /-- Why the store rejects the statement behind the rows. -/
  reject? : Option String
  /-- How the store breaks behind the rows. -/
  break? : Option String

/-- An answer to the statements that begin with a text. -/
structure ScriptedRule where
  starts : String
  answer : ScriptedAnswer

namespace ScriptedAnswer

/-- The answer to statements without a rule. -/
def nothing : ScriptedAnswer := ⟨[], none, none, none⟩

/-- A row of an answer. -/
def fillRow (params : List Value) (columns : List ColumnTemplate) : Row :=
  ⟨columns.map (·.label), columns.filterMap (·.type?), columns.map (·.cell.fill params)⟩

/-- The failure behind the rows. -/
def failure? (a : ScriptedAnswer) (q : Query) : Option Error :=
  match a.reject?, a.break? with
  | some reason, _ => some (.query q.sql (formatParams q.params) (.msg reason))
  | none, some reason => some (.msg reason)
  | none, none => none

/-- What a statement yields. -/
def stream (a : ScriptedAnswer) (q : Query) : RowStream :=
  ⟨a.rows.map (fillRow q.params), (a.failure? q).map fun e => ⟨e, []⟩⟩

/-- How many rows a statement affects. -/
def affected (a : ScriptedAnswer) (q : Query) : Except Error UInt64 :=
  match a.failure? q with
  | some e => .error e
  | none => .ok (a.affected?.getD (UInt64.ofNat a.rows.length))

end ScriptedAnswer

/-! ## 2. State -/

/-- A connection, or a transaction by the order in which they were opened. -/
inductive ScriptedHandle where
  | connection
  | transaction (index : Nat)
deriving DecidableEq, Repr

/-- A transaction with the statements that wait for its end, and its parent if it is a savepoint. -/
structure ScriptedTransaction where
  parent? : Option Nat
  pending : List String
  rollbackOnly : Bool

/-- A store that answers by rule. Answers of the tape go first, one to each statement. -/
structure ScriptedStore where
  tape : List ScriptedAnswer
  rules : List ScriptedRule
  /-- Boundaries that fail. -/
  refused : List String
  catalog : Catalog
  events : List String
  /-- Statements made durable, in order. -/
  committed : List String
  transactions : List ScriptedTransaction

namespace ScriptedStore

/-- The answer to a statement and the store without the answer's place on the tape. -/
def answer (s : ScriptedStore) (q : Query) : ScriptedAnswer × ScriptedStore :=
  match s.tape with
  | a :: rest => (a, { s with tape := rest })
  | [] =>
    match s.rules.find? fun rule => rule.starts.toList.isPrefixOf q.sql.toList with
    | some rule => (rule.answer, s)
    | none => (.nothing, s)

/-- Adds an event. -/
def see (s : ScriptedStore) (event : String) : ScriptedStore :=
  { s with events := s.events ++ [event] }

/-- Changes a transaction. -/
def changeTransaction (s : ScriptedStore) (index : Nat)
    (f : ScriptedTransaction → ScriptedTransaction) : ScriptedStore :=
  { s with transactions := s.transactions.modify index f }

/-- Adds statements to what a transaction waits with, or to what is durable. -/
def addStatements (s : ScriptedStore) (parent? : Option Nat) (statements : List String) :
    ScriptedStore :=
  match parent? with
  | none => { s with committed := s.committed ++ statements }
  | some index => s.changeTransaction index fun t => { t with pending := t.pending ++ statements }

/-- Runs a statement: its answer is fixed, and unless it fails the statement counts as done. -/
def runStatement (s : ScriptedStore) (at_ : ScriptedHandle) (q : Query) :
    ScriptedAnswer × ScriptedStore :=
  let (a, s) := (s.see ("run " ++ q.display)).answer q
  if (a.failure? q).isSome then (a, s)
  else
    match at_ with
    | .connection => (a, s.addStatements none [q.sql])
    | .transaction index => (a, s.addStatements (some index) [q.sql])

/-- Opens a transaction. -/
def opened (s : ScriptedStore) (parent? : Option Nat) : ScriptedHandle × ScriptedStore :=
  (.transaction s.transactions.length,
    { s with transactions := s.transactions ++ [⟨parent?, [], false⟩] })

/-- A transaction, of which connections are an empty one. -/
def transaction (s : ScriptedStore) : ScriptedHandle → ScriptedTransaction
  | .connection => ⟨none, [], false⟩
  | .transaction index => s.transactions[index]?.getD ⟨none, [], false⟩

end ScriptedStore

/-! ## 3. Operations -/

namespace Scripted

/-- Meets a boundary, which may be refused. -/
def boundary (event : String) : Action ScriptedStore Unit := do
  Action.change fun s => s.see event
  if (← Action.state).refused.contains event then throw (.msg (event ++ " refused"))

/-- Runs a statement. -/
def answerTo (at_ : ScriptedHandle) (q : Query) : Action ScriptedStore ScriptedAnswer := do
  let (a, s) := (← Action.state).runStatement at_ q
  Action.change fun _ => s
  pure a

/-- Opens a transaction behind a boundary. -/
def openAt (event : String) (parent? : Option Nat) : Action ScriptedStore ScriptedHandle := do
  boundary event
  let (handle, s) := (← Action.state).opened parent?
  Action.change fun _ => s
  pure handle

/-- Opens a savepoint. -/
def savepoint : ScriptedHandle → Action ScriptedStore ScriptedHandle
  | .connection => openAt "savepoint" none
  | .transaction index => openAt "savepoint" (some index)

/-- Ends a transaction and hands its statements on. -/
def commit (at_ : ScriptedHandle) : Action ScriptedStore Unit := do
  let t := (← Action.state).transaction at_
  if t.rollbackOnly then
    Action.change fun s => s.see "rollback"
    throw .unexpectedRollback
  else
    boundary (if t.parent?.isSome then "release" else "commit")
    Action.change fun s => s.addStatements t.parent? t.pending

/-- Ends a transaction and forgets its statements. -/
def rollback (at_ : ScriptedHandle) : Action ScriptedStore Unit := do
  let t := (← Action.state).transaction at_
  boundary (if t.parent?.isSome then "rollback to savepoint" else "rollback")

/-- Marks a transaction rollback-only. -/
def setRollbackOnly : ScriptedHandle → Action ScriptedStore Unit
  | .connection => pure ()
  | .transaction index =>
    Action.change fun s => s.changeTransaction index fun t => { t with rollbackOnly := true }

/-- Forgets a transaction that nobody ended. -/
def abandon (_ : ScriptedHandle) : Action ScriptedStore Unit :=
  Action.change fun s => s.see "drop"

/-- The store's operations. -/
def store : Store ScriptedStore ScriptedHandle where
  fetch at_ q := do return (← answerTo at_ q).stream q
  execute at_ q := do Action.ofExcept ((← answerTo at_ q).affected q)
  begin _ := openAt "begin" none
  savepoint := savepoint
  commit := commit
  rollback := rollback
  abandon := abandon
  setRollbackOnly := setRollbackOnly
  isRollbackOnly at_ := do return ((← Action.state).transaction at_).rollbackOnly
  acquire := do
    boundary "acquire"
    pure .connection

/-- Reads the types of schemas. -/
def loadCatalog (schemas : List String) : Action ScriptedStore Catalog := do
  boundary "load"
  Action.change fun s => s.see ("schemas " ++ ", ".intercalate schemas)
  return (← Action.state).catalog

end Scripted

end TypedStore
