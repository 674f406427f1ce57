/-
Connecting. The settings of encryption are taken out of the address, or else out of the environment;
what is left of the address goes to the client. Key files are looked at before anything is sent.
Without a mode the connection is not encrypted.
-/
import TypedStore.Server.Peer
import TypedStore.Store

set_option autoImplicit false

namespace TypedStore.Server

open TypedStore.Text

/-! ## 1. Encryption -/

/-- An address without its settings of encryption, and what they are. -/
structure SecuredUrl where
  mode : String
  /-- Where the authority's certificate, the client's certificate and its key are. -/
  keyFiles : List String
  url : ConnectionUrl

/-- The mode in which nothing is encrypted. -/
def unencryptedMode : String := "disable"

/-- Whether the client is able to encrypt. -/
def SecuredUrl.encrypts (u : SecuredUrl) : Bool := u.mode != unencryptedMode

/-- Takes a setting out of an address; the environment stands in for it. -/
def takeSetting (u : ConnectionUrl) (name : String) (default? : Option String) :
    Option String × ConnectionUrl :=
  let (value?, u) := u.takePair name
  (value?.or default?, u)

/-- Takes the settings of encryption out of an address. Key files are settings of encrypted modes only. -/
def ConnectionUrl.secured (d : EncryptionDefaults) (u : ConnectionUrl) : SecuredUrl :=
  let (mode?, u) := takeSetting u "sslmode" d.mode?
  let mode := mode?.getD unencryptedMode
  if mode = unencryptedMode then ⟨mode, [], u⟩
  else
    let (rootCertificate?, u) := takeSetting u "sslrootcert" d.rootCertificate?
    let (certificate?, u) := takeSetting u "sslcert" d.certificate?
    let (key?, u) := takeSetting u "sslkey" d.key?
    ⟨mode, [rootCertificate?, certificate?, key?].filterMap id, u⟩

/-! ## 2. Logging in -/

/-- The settings that the server is told, by name. -/
def ClientSettings.told (s : ClientSettings) : List (String × String) :=
  [("application_name", s.applicationName?), ("client_encoding", some "UTF8"),
    ("database", s.database?), ("options", s.options?), ("user", s.user?)].filterMap
    fun (name, value?) => value?.map fun value => (name, value)

/-- What a login shows of the settings. -/
def startupEvent (s : ClientSettings) : String :=
  "startup " ++ " ".intercalate (s.told.map fun (name, value) => name ++ "=" ++ value)

/-- What the server sees of a login, and whether it succeeds. A login needs a user, and no setting may
hold a zero byte. The server binds no channel and does not say whether a session may write. -/
def logIn (p : Peer) (s : ClientSettings) : List String × Bool :=
  if s.user?.isNone || s.told.any fun setting => setting.2.toList.contains '\x00' then ([], false)
  else ([startupEvent s], !p.refusesLogins && !s.bound && !s.asksAccess)

/-- What the server sees of an attempt, and whether it succeeds. The server declines encryption. -/
def attempt (p : Peer) (s : ClientSettings) (encrypts : Bool) : List String × Bool :=
  let asked := ["ssl request"]
  match s.encryption with
  | .disable => logIn p s
  | .prefer =>
    if !encrypts then logIn p s
    else if s.direct then ([], false)
    else
      let (events, succeeds) := logIn p s
      (asked ++ events, succeeds)
  | .require => if s.direct then ([], false) else (asked, false)

/-- Attempts one place after the other, up to the first success. -/
def attemptPlaces (p : Peer) (s : ClientSettings) (encrypts : Bool) :
    List (Place × Nat) → List String × Bool
  | [] => ([], false)
  | (place, port) :: rest =>
    let (events, succeeds) := if p.listensAt place port then attempt p s encrypts else ([], false)
    if succeeds then (events, true)
    else
      let (more, succeeds) := attemptPlaces p s encrypts rest
      (events ++ more, succeeds)

/-- The places of a client with their ports. One port stands for all places, and several go with one
place each. A client that was told addresses of the network has no places here. -/
def ClientSettings.placesWithPorts (s : ClientSettings) : List (Place × Nat) :=
  if !s.addresses.isEmpty then []
  else
    match s.ports with
    | [] => s.places.map fun place => (place, defaultPort)
    | [port] => s.places.map fun place => (place, port)
    | ports => if ports.length = s.places.length then s.places.zip ports else []

/-! ## 3. Connecting -/

/-- What the server sees when a client connects, and whether it succeeds. -/
def openSession (p : Peer) (u : SecuredUrl) : List String × Bool :=
  if u.keyFiles.any fun path => p.keyFile path == .unusable then ([], false)
  else
    match ClientSettings.ofUrl? u.url with
    | none => ([], false)
    | some s => attemptPlaces p s u.encrypts s.placesWithPorts

/-- What a failure to connect says. -/
def connectContext (address : String) : String := "While trying to connect to " ++ Error.cited address

/-- Why an address of another kind is refused. -/
def schemeReason : String := "Postgres connection url must start with " ++ Error.cited "postgres://"

/-- Opens a connection to an address. Percent codes of the whole address are read first. -/
def connect (address : String) : Action ServerState ServerHandle := do
  let context := connectContext address
  match percentDecode? address.toList with
  | none => throw (.msg context)
  | some decoded => do
    -- the kind of the address is looked at before the address is read
    if (cutScheme? decoded.toList).isNone then
      Action.note ⟨.error, context ++ ": " ++ schemeReason⟩
      throw (.other context [schemeReason])
    match ConnectionUrl.ofText? decoded with
    | none => throw (.msg context)
    | some u => do
      let s ← Action.state
      let secured := u.secured s.defaults
      let (events, succeeds) := openSession s.peer secured
      let s := s.see events
      if succeeds then
        let (handle, s) := s.connected
        Action.change fun _ => s
        Action.note (.debug ("Connected to Postgres with sslmode " ++ Error.cited secured.mode))
        pure handle
      else
        Action.change fun _ => s
        throw (.msg context)

end TypedStore.Server
