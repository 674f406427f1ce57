/-
A server that answers by rule. It listens on a socket of one directory, may refuse logins and
boundaries, and tells by rule what comes back for a statement. It keeps what it saw as events, over all
connections, and has no notion of transactions of its own.
-/
import TypedStore.Server.Settings
import TypedStore.Wire.Type

set_option autoImplicit false

namespace TypedStore.Server

open TypedStore.Text TypedStore.Wire

/-! ## 1. Answers -/

/-- How a statement ends. -/
inductive Ending where
  | complete
  /-- The statement is not even prepared. -/
  | rejected
  /-- It fails behind its rows. -/
  | broken
  /-- The connection ends with it. -/
  | severed
deriving DecidableEq, Repr

/-- What a statement comes back with. -/
structure PeerAnswer where
  /-- Types of the parameters, unless they are taken as declared. -/
  params? : Option (List WireType)
  columns : List (String × WireType)
  rows : List (List (Option (List UInt8)))
  affected : UInt64
  ending : Ending

/-- The answer to statements that begin with a text. -/
structure PeerRule where
  starts : String
  answer : PeerAnswer

/-- The answer to statements without a rule. -/
def PeerAnswer.nothing : PeerAnswer := ⟨none, [], [], 0, .complete⟩

/-! ## 2. Peers -/

/-- A server. -/
structure Peer where
  /-- The directory of its socket, where its key files lie as well. -/
  directory : String
  rules : List PeerRule
  /-- Boundaries that fail. -/
  refused : List String
  /-- Whether every login fails. -/
  refusesLogins : Bool

/-- Files that keys and certificates are read from. -/
inductive KeyFile where
  | absent
  | unusable
  | usable
deriving DecidableEq, Repr

/-- The steps of a path, without those that stay where they are. -/
def pathSteps (path : String) : List (List Char) :=
  (pieces '/' path.toList).filter fun step => !step.isEmpty && step != ['.']

/-- Whether a path can only mean a directory. -/
def endsAsDirectory (path : String) : Bool :=
  let last := (pieces '/' path.toList).getLastD []
  last.isEmpty || last == ['.']

namespace Peer

/-- The answer to a statement. -/
def answer (p : Peer) (sql : String) : PeerAnswer :=
  match p.rules.find? fun rule => rule.starts.toList.isPrefixOf sql.toList with
  | some rule => rule.answer
  | none => .nothing

/-- Whether a place with a port leads to the server. -/
def listensAt (p : Peer) (place : Place) (port : Nat) : Bool :=
  match place with
  | .host _ => false
  | .socket directory =>
    port == defaultPort && (utf8Decode? directory).map pathSteps == some (pathSteps p.directory)

/-- The name of the socket. -/
def socketName : String := ".s.PGSQL." ++ natText defaultPort

/-- The file of a path. Directories on the way to the server's are there, and no keys. -/
def keyFile (p : Peer) (path : String) : KeyFile :=
  let steps := pathSteps path
  let place := pathSteps p.directory
  let isFile := fun (name : String) => !endsAsDirectory path && steps == place ++ [name.toList]
  if path.toList.head? != some '/' then .absent
  else if isFile "good.pem" then .usable
  else if isFile "bad.pem" || isFile socketName || steps.isPrefixOf place then .unusable
  else .absent

end Peer

/-! ## 3. What goes on at a server -/

/-- A connection, or a transaction by the order in which they were opened. -/
inductive ServerHandle where
  | connection (index : Nat)
  | transaction (index : Nat)
deriving DecidableEq, Repr

/-- A transaction or savepoint of a connection. -/
structure ServerTransaction where
  connection : Nat
  isSavepoint : Bool
  rollbackOnly : Bool
deriving DecidableEq, Repr

/-- What the environment says about encryption where an address says nothing. -/
structure EncryptionDefaults where
  mode? : Option String
  rootCertificate? : Option String
  certificate? : Option String
  key? : Option String

/-- A server with its clients. -/
structure ServerState where
  peer : Peer
  defaults : EncryptionDefaults
  events : List String
  /-- For each connection, whether it still works. -/
  connections : List Bool
  transactions : List ServerTransaction

namespace ServerState

/-- Before the first connection. -/
def start (peer : Peer) (defaults : EncryptionDefaults) : ServerState := ⟨peer, defaults, [], [], []⟩

/-- Adds events. -/
def see (s : ServerState) (events : List String) : ServerState :=
  { s with events := s.events ++ events }

/-- A transaction, of which connections are an empty one. -/
def transaction (s : ServerState) : ServerHandle → ServerTransaction
  | .connection index => ⟨index, false, false⟩
  | .transaction index => s.transactions[index]?.getD ⟨s.connections.length, false, false⟩

/-- Whether the connection of a handle still works. -/
def isAlive (s : ServerState) (at_ : ServerHandle) : Bool :=
  s.connections[(s.transaction at_).connection]?.getD false

/-- Ends the connection of a handle. -/
def sever (s : ServerState) (at_ : ServerHandle) : ServerState :=
  { s with connections := s.connections.set (s.transaction at_).connection false }

/-- Opens a connection. -/
def connected (s : ServerState) : ServerHandle × ServerState :=
  (.connection s.connections.length, { s with connections := s.connections ++ [true] })

/-- Opens a transaction or savepoint on the connection of a handle. -/
def opened (s : ServerState) (at_ : ServerHandle) (isSavepoint : Bool) : ServerHandle × ServerState :=
  (.transaction s.transactions.length,
    { s with transactions :=
        s.transactions ++ [⟨(s.transaction at_).connection, isSavepoint, false⟩] })

/-- Marks a transaction rollback-only. -/
def marked (s : ServerState) : ServerHandle → ServerState
  | .connection _ => s
  | .transaction index =>
    { s with transactions := s.transactions.modify index fun t => { t with rollbackOnly := true } }

end ServerState

end TypedStore.Server
