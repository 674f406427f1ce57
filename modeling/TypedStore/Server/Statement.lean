/-
Statements at a server. A statement is prepared with the declared types of its parameters, its values
are written for the types that the server answers, and its rows are read by their types as they come.
Failures of a statement carry it with its parameters and are logged where they arise.
-/
import TypedStore.Server.Peer
import TypedStore.Store
import TypedStore.Wire.Decode
import TypedStore.Wire.Encode

set_option autoImplicit false

namespace TypedStore.Server

open TypedStore.Text TypedStore.Wire

/-! ## 1. Failures -/

/-- The failure of a statement. What the server or the client says about it is not kept. -/
def statementFailure (q : Query) : Error := .query q.sql (formatParams q.params) (.msg "")

/-- What is logged about the failure of a statement. -/
def failureNote (q : Query) : LogRecord := ⟨.error, (statementFailure q).logText⟩

/-- Fails a statement. -/
def failStatement {α : Type} (q : Query) : Action ServerState α := do
  Action.note (failureNote q)
  throw (statementFailure q)

/-! ## 2. Preparing and running -/

/-- A statement as it is prepared: without blanks and then semicolons at its end. -/
def preparedText (sql : String) : String :=
  String.ofList (dropEnd (· == ';') (dropEnd isBlank sql.toList))

/-- What the server sees when a statement is prepared. -/
def prepareEvent (sql : String) (declared : List WireType) : String :=
  "prepare " ++ sql ++ " [" ++ ", ".intercalate (declared.map WireType.name) ++ "]"

/-- What the server sees when a statement runs. -/
def runEvent (cells : List (Option (List UInt8))) : String :=
  "run [" ++ ", ".intercalate (cells.map fun cell => (cell.map hexText).getD "null") ++ "]"

/-- A declared type as the server takes it: without one it takes text. -/
def takenAs (t : WireType) : WireType :=
  if t.oid == WireType.unknown.oid then .text else t

/-- Writes values for as many types. -/
def encodeAll? : List WireType → List Value → Option (List (Option (List UInt8)))
  | [], [] => some []
  | t :: types, v :: values => do
    let first ← (encode t v).toOption
    let others ← encodeAll? types values
    pure (first :: others)
  | _, _ => none

/-- Shows the server an event. -/
def send (event : String) : Action ServerState Unit := Action.change fun s => s.see [event]

/-- Ends a connection that the server broke. -/
def breakOff (at_ : ServerHandle) : Action ServerState Unit := do
  Action.note ⟨.error, "Postgres connection error"⟩
  Action.change fun s => s.sever at_

/-- Prepares a statement. -/
def prepare (at_ : ServerHandle) (q : Query) : Action ServerState PeerAnswer := do
  let sql := preparedText q.sql
  Action.note (.debug ("Preparing " ++ Error.cited (truncateLong sql)))
  let s ← Action.state
  if !s.isAlive at_ then failStatement q
  send (prepareEvent sql (q.params.map parameterType))
  let answer := s.peer.answer sql
  if answer.ending = .rejected then failStatement q
  pure answer

/-- Prepares a statement, binds its parameters and runs it. -/
def launch (at_ : ServerHandle) (q : Query) : Action ServerState PeerAnswer := do
  let answer ← prepare at_ q
  let types := answer.params?.getD (q.params.map fun v => takenAs (parameterType v))
  -- values that do not fit the types fail before the server sees them
  match encodeAll? types q.params with
  | none => failStatement q
  | some cells => do
    send (runEvent cells)
    if answer.ending = .severed then
      breakOff at_
      failStatement q
    pure answer

/-! ## 3. Answers -/

/-- The failure of a cell. -/
def cellFailure (index : Nat) (name : String) (t : WireType) : Error :=
  .msg ("Could not decode column " ++ natText index ++ " " ++ Error.cited name ++ " of type "
    ++ Error.cited t.name)

/-- Reads the cells of a row from a column on. -/
def readCells (index : Nat) : List (String × WireType) → List (Option (List UInt8)) →
    Except Error (List Value)
  | [], _ => .ok []
  | (name, t) :: columns, cells => do
    let first ← (decodeCell t (cells.head?.getD none)).mapError fun _ => cellFailure index name t
    let others ← readCells (index + 1) columns cells.tail
    pure (first :: others)

/-- Reads rows up to the first with a cell that cannot be read. -/
def readRows (columns : List (String × WireType)) (ending : Option StreamFailure) :
    List (List (Option (List UInt8))) → RowStream
  | [] => ⟨[], ending⟩
  | cells :: rest =>
    match readCells 0 columns cells with
    | .error e => .failed e
    | .ok values =>
      let more := readRows columns ending rest
      ⟨⟨columns.map (·.1), columns.map (·.2.name), values⟩ :: more.rows, more.failure?⟩

/-- Runs a statement for its rows. -/
def fetch (at_ : ServerHandle) (q : Query) : Action ServerState RowStream := do
  let answer ← launch at_ q
  let ending := if answer.ending = .broken then some ⟨statementFailure q, [failureNote q]⟩ else none
  pure (readRows answer.columns ending answer.rows)

/-- Runs a statement for the number of rows that the server reports. -/
def execute (at_ : ServerHandle) (q : Query) : Action ServerState UInt64 := do
  let answer ← launch at_ q
  if answer.ending = .broken then failStatement q
  pure answer.affected

end TypedStore.Server
