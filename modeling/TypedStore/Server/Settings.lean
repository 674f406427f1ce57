/-
What a client reads out of an address: who logs in, with which settings, and the places where the
server may be. The first `@` ends the credentials wherever it stands, percent codes are read once, and
of settings given twice the later counts, while hosts and ports add up.
-/
import TypedStore.Server.Url

set_option autoImplicit false

namespace TypedStore.Server

open TypedStore.Text

/-! ## 1. Settings -/

/-- A place where a server may listen: a host of the network or the directory of a socket. -/
inductive Place where
  | host (name : String)
  | socket (directory : List UInt8)
deriving DecidableEq, Repr

/-- Whether a client encrypts. -/
inductive Encryption where
  | disable
  | prefer
  | require
deriving DecidableEq, Repr

/-- The settings of a client. -/
structure ClientSettings where
  user? : Option String
  password? : Option (List UInt8)
  database? : Option String
  options? : Option String
  applicationName? : Option String
  places : List Place
  /-- Addresses of the network, which take the place of the places. -/
  addresses : List String
  ports : List Nat
  encryption : Encryption
  /-- Whether encryption starts without asking the server. -/
  direct : Bool
  /-- Whether the login is to be bound to an encrypted channel. -/
  bound : Bool
  /-- Whether the server is to say if the session may write. -/
  asksAccess : Bool
deriving DecidableEq, Repr

/-- The settings of a client that was told nothing. -/
def ClientSettings.unset : ClientSettings :=
  ⟨none, none, none, none, none, [], [], [], .prefer, false, false, false⟩

/-- The port where servers listen. -/
def defaultPort : Nat := 5432

/-! ## 2. Values of settings -/

/-- A number after an optional plus sign, below a bound. -/
def readUnsigned? (bound : Nat) (cs : List Char) : Option Nat := do
  let n ← digitsValue? (if cs.headD ' ' = '+' then cs.drop 1 else cs)
  if n < bound then some n else none

/-- Whether a text is a whole number of 64 bits. -/
def isSigned (cs : List Char) : Bool :=
  match cs with
  | '-' :: digits => ((digitsValue? digits).map fun n => decide (n ≤ 0x8000000000000000)).getD false
  | cs => (readUnsigned? 0x8000000000000000 cs).isSome

/-- A port; an empty text is the default one. -/
def readPortNumber? (cs : List Char) : Option Nat :=
  if cs.isEmpty then some defaultPort else readUnsigned? 65536 cs

/-- The mode of encryption of a name. -/
def Encryption.ofName? : String → Option Encryption
  | "disable" => some disable
  | "prefer" => some prefer
  | "require" => some require
  | _ => none

/-- The place that bytes name: a path begins with a slash. -/
def Place.ofBytes? (bytes : List UInt8) : Option Place :=
  if bytes.head? == some 0x2f then some (socket bytes) else (utf8Decode? bytes).map host

/-- The names between commas. -/
def commaPieces (value : String) : List (List Char) := pieces ',' value.toList

/-- The settings unless a value is outside of a list. -/
def ClientSettings.among (s : ClientSettings) (names : List String) (value : String) :
    Option ClientSettings :=
  if names.contains value then some s else none

/-- Sets one setting. Unknown names and values are refused. -/
def ClientSettings.set? (s : ClientSettings) (name value : String) : Option ClientSettings :=
  match name with
  | "user" => some { s with user? := some value }
  | "password" => some { s with password? := some (utf8Encode value) }
  | "dbname" => some { s with database? := some value }
  | "options" => some { s with options? := some value }
  | "application_name" => some { s with applicationName? := some value }
  | "sslmode" => (Encryption.ofName? value).map fun encryption => { s with encryption }
  | "sslnegotiation" => { s with direct := value == "direct" }.among ["postgres", "direct"] value
  | "hostaddr" =>
    some { s with addresses := s.addresses ++ (commaPieces value).map String.ofList }
  | "port" => do
    let ports ← (commaPieces value).mapM readPortNumber?
    some { s with ports := s.ports ++ ports }
  | "connect_timeout" | "tcp_user_timeout" | "keepalives_idle" | "keepalives_interval" =>
    if isSigned value.toList then some s else none
  | "keepalives" => (readUnsigned? 0x10000000000000000 value.toList).map fun _ => s
  | "keepalives_retries" => (readUnsigned? 0x100000000 value.toList).map fun _ => s
  | "target_session_attrs" =>
    { s with asksAccess := value != "any" }.among ["any", "read-write", "read-only"] value
  | "channel_binding" =>
    { s with bound := value == "require" }.among ["disable", "prefer", "require"] value
  | "load_balance_hosts" => s.among ["disable", "random"] value
  | _ => none

/-- Adds a place. -/
def ClientSettings.addPlace? (s : ClientSettings) (written : List Char) : Option ClientSettings :=
  (Place.ofBytes? (percentBytes written)).map fun place => { s with places := s.places ++ [place] }

/-! ## 3. Parts of an address -/

/-- The user and the password in front of the first `@`. -/
def ClientSettings.readCredentials? (s : ClientSettings) (cs : List Char) :
    Option (ClientSettings × List Char) :=
  match cutAt? '@' cs with
  | none => some (s, cs)
  | some (credentials, rest) =>
    match cutAt? ':' credentials with
    | none => do
      let user ← percentDecode? credentials
      some ({ s with user? := some user }, rest)
    | some (user, password) => do
      let user ← percentDecode? user
      some ({ s with user? := some user, password? := some (percentBytes password) }, rest)

/-- The host and the port of one place of the network part. Brackets hold numeric hosts. -/
def cutPort? (chunk : List Char) : Option (List Char × Option (List Char)) :=
  match chunk with
  | '[' :: inner => do
    let (host, behind) ← cutAt? ']' inner
    match behind with
    | [] => some (host, none)
    | ':' :: port => some (host, some port)
    | _ => none
  | chunk =>
    match cutAt? ':' chunk with
    | some (host, port) => some (host, some port)
    | none => some (chunk, none)

/-- Adds the places of the network part, each with its port. -/
def ClientSettings.readPlaces? (s : ClientSettings) : List (List Char) → Option ClientSettings
  | [] => some s
  | chunk :: rest => do
    let (host, port?) ← cutPort? chunk
    let s ← s.addPlace? host
    let port ← percentDecode? (port?.getD (natText defaultPort).toList)
    let s ← s.set? "port" port
    s.readPlaces? rest

/-- Names and values as a query shows them. A name ends at an equals sign only and a value at an
ampersand only. -/
def writtenSettings? (cs : List Char) : Option (List (List Char × List Char)) :=
  if cs.isEmpty then some []
  else
    match _hname : cutAt? '=' cs with
    | none => none
    | some (name, behind) =>
      match _hvalue : cutAt? '&' behind with
      | none => some [(name, behind)]
      | some (value, rest) => (writtenSettings? rest).map ((name, value) :: ·)
termination_by cs.length
decreasing_by
  have first := length_of_cutAt? _hname
  have second := length_of_cutAt? _hvalue
  omega

/-- Sets a setting from a query. Hosts are places, whose bytes need not be text. -/
def ClientSettings.setWritten? (s : ClientSettings) (setting : List Char × List Char) :
    Option ClientSettings := do
  let name ← percentDecode? setting.1
  if name = "host" then s.addPlace? setting.2
  else s.set? name (← percentDecode? setting.2)

/-- The database that a path names. -/
def ClientSettings.readDatabase? (s : ClientSettings) (written : List Char) : Option ClientSettings :=
  if written.isEmpty then some s
  else (percentDecode? written).map fun name => { s with database? := some name }

/-! ## 4. Whole addresses -/

/-- What a client reads out of an address behind its scheme. -/
def ClientSettings.ofAddress? (cs : List Char) : Option ClientSettings := do
  let (s, rest) ← ClientSettings.unset.readCredentials? cs
  let isPart := fun c => c != '/' && c != '?'
  let network := rest.takeWhile isPart
  let rest := rest.dropWhile isPart
  let s ← if network.isEmpty then some s else s.readPlaces? (pieces ',' network)
  let (path, query) :=
    if rest.head? == some '/' then
      ((rest.drop 1).takeWhile (· != '?'), (rest.drop 1).dropWhile (· != '?'))
    else ([], rest)
  let s ← s.readDatabase? path
  (← writtenSettings? (query.drop 1)).foldlM ClientSettings.setWritten? s

/-- What a client reads out of an address. -/
def ClientSettings.ofUrl? (u : ConnectionUrl) : Option ClientSettings := do
  let (_, rest) ← cutScheme? u.text.toList
  ClientSettings.ofAddress? rest

end TypedStore.Server
