/-
Connection addresses. An address names a user, a password, a host, a port, a path, the pairs of a query
and a fragment. Reading splits a text at its delimiters, and each part is written back with percent
codes for the characters that would not be read as part of it.
-/
import TypedStore.Text.Percent
import TypedStore.Text.Word

set_option autoImplicit false

namespace TypedStore.Server

open TypedStore.Text

/-! ## 1. Addresses -/

/-- An address in parts. All of them are texts as written, percent codes included. -/
structure ConnectionUrl where
  scheme : String
  user : String
  password? : Option String
  host : String
  port? : Option Nat
  path : String
  query? : Option String
  fragment? : Option String
deriving DecidableEq, Repr

/-- The schemes that mean this kind of server. -/
def schemes : List String := ["postgres", "postgresql"]

/-- What stands between the scheme and the rest. -/
def schemeMark : String := "://"

namespace ConnectionUrl

/-- The user and the password as written in front of the host. -/
def credentials (u : ConnectionUrl) : String :=
  let password := (u.password?.map fun p => ":" ++ p).getD ""
  if u.user.isEmpty && u.password?.isNone then "" else u.user ++ password ++ "@"

/-- An address as text. -/
def text (u : ConnectionUrl) : String :=
  u.scheme ++ schemeMark ++ u.credentials ++ u.host
    ++ (u.port?.map fun p => ":" ++ natText p).getD ""
    ++ u.path
    ++ (u.query?.map fun q => "?" ++ q).getD ""
    ++ (u.fragment?.map fun f => "#" ++ f).getD ""

end ConnectionUrl

/-! ## 2. Characters of the parts -/

/-- A printable character of ASCII. -/
def isPlain (c : Char) : Bool := 0x20 ≤ c.toNat && c.toNat < 0x7f

/-- Printable characters without some. -/
def plainBut (excluded : List Char) (c : Char) : Bool := isPlain c && !excluded.contains c

/-- The characters that a fragment keeps. -/
def keptInFragment : Char → Bool := plainBut [' ', '"', '<', '>', '`']

/-- The characters that a query keeps. -/
def keptInQuery : Char → Bool := plainBut [' ', '"', '#', '<', '>']

/-- The characters that a path keeps. -/
def keptInPath : Char → Bool := plainBut [' ', '"', '<', '>', '`', '#', '?', '\x7b', '\x7d']

/-- Delimiters that a user and a password do not keep. -/
def credentialDelimiters : List Char := ['/', ':', ';', '=', '@', '[', '\\', ']', '^', '|']

/-- The characters that a user and a password keep. -/
def keptInCredentials (c : Char) : Bool := keptInPath c && !credentialDelimiters.contains c

/-- The characters that no host has. -/
def barredFromHost : List Char :=
  ['\x00', '\t', '\n', '\r', ' ', '#', '/', ':', '<', '>', '?', '@', '[', '\\', ']', '^', '|']

/-! ## 3. Hosts -/

/-- A number of up to three digits below 256, without a zero in front. -/
def isOctet (cs : List Char) : Bool :=
  match digitsValue? cs with
  | some n => n < 256 && (cs.length == 1 || cs.headD '0' != '0') && cs.length ≤ 3
  | none => false

/-- How many groups of sixteen bits a piece of a numeric host stands for. The last may be four octets. -/
def groupsOf? (last : Bool) (piece : List Char) : Option Nat :=
  if 1 ≤ piece.length ∧ piece.length ≤ 4 ∧ piece.all (fun c => (hexValue? c).isSome) then some 1
  else if last && (pieces '.' piece).length == 4 && (pieces '.' piece).all isOctet then some 2
  else none

/-- How many groups pieces stand for, if all of them are numbers. -/
def groupCount? (lastOfAll : Bool) : List (List Char) → Option Nat
  | [] => some 0
  | [piece] => groupsOf? lastOfAll piece
  | piece :: rest => do return (← groupsOf? false piece) + (← groupCount? lastOfAll rest)

/-- Cuts at the first pair of colons. -/
def cutAtGap? : List Char → Option (List Char × List Char)
  | ':' :: ':' :: rest => some ([], rest)
  | c :: rest => (cutAtGap? rest).map fun (before, behind) => (c :: before, behind)
  | [] => none

/-- The pieces between colons, none in an empty text. -/
def colonPieces (cs : List Char) : List (List Char) :=
  if cs.isEmpty then [] else pieces ':' cs

/-- Whether a text is a numeric host of 128 bits. A gap stands for one group of zeros at least. -/
def isNumericHost (cs : List Char) : Bool :=
  match cutAtGap? cs with
  | none => groupCount? true (pieces ':' cs) == some 8
  | some (before, behind) =>
    match groupCount? false (colonPieces before), groupCount? true (colonPieces behind) with
    | some m, some n => m + n < 8
    | _, _ => false

/-- A host as written, unless it cannot be one. Brackets hold numeric hosts. -/
def readHost? (cs : List Char) : Option String :=
  match cs with
  | '[' :: inner =>
    if inner.getLast? == some ']' && isNumericHost inner.dropLast then some (String.ofList cs) else none
  | cs =>
    if cs.any fun c => barredFromHost.contains c then none
    else some (String.ofList (percentEncode isPlain cs))

/-! ## 4. Authorities -/

/-- Cuts in front of the first colon that is not between brackets. -/
def cutHost (inside : Bool) : List Char → List Char × List Char
  | [] => ([], [])
  | c :: rest =>
    if c = ':' ∧ !inside then ([], c :: rest)
    else
      let (host, behind) := cutHost (if c = '[' then true else if c = ']' then false else inside) rest
      (c :: host, behind)

/-- Cuts at the last of a separator. -/
def cutAtLast? (separator : Char) (cs : List Char) : Option (List Char × List Char) :=
  (cutAt? separator cs.reverse).map fun (behind, before) => (before.reverse, behind.reverse)

/-- Who connects where. A backslash behind the port begins the path. -/
structure Authority where
  user : String
  password? : Option String
  host : String
  port? : Option Nat
  pathStart : List Char

/-- The user and the password as written. An empty password is none. -/
def readCredentials (cs : List Char) : String × Option String :=
  let written := fun cs => String.ofList (percentEncode keptInCredentials cs)
  match cutAt? ':' cs with
  | none => (written cs, none)
  | some (user, password) => (written user, if password.isEmpty then none else some (written password))

/-- A port, none without digits, and what follows a backslash. -/
def readPort? (cs : List Char) : Option (Option Nat × List Char) := do
  let digits := cs.takeWhile Char.isDigit
  let behind := cs.dropWhile Char.isDigit
  if behind.headD '\\' != '\\' then none
  else if digits.isEmpty then some (none, behind)
  else
    let port ← digitsValue? digits
    if port < 65536 then some (some port, behind) else none

/-- Reads an authority. What the address holds behind it decides whether `@` may stand alone. -/
def readAuthority? (cs : List Char) (ends : Bool) : Option Authority := do
  let (credentials?, place) := match cutAtLast? '@' cs with
    | some (credentials, place) => (some credentials, place)
    | none => (none, cs)
  let (user, password?) := readCredentials (credentials?.getD [])
  let (hostText, behind) := cutHost false place
  let host ← readHost? hostText
  let (port?, pathStart) ← readPort? (behind.drop 1)
  let named := !user.isEmpty || password?.isSome
  let lone := credentials? == some [] && place.isEmpty && !ends
  if lone || host.isEmpty && (named || !behind.isEmpty) then none
  else some ⟨user, password?, host, port?, pathStart⟩

/-! ## 5. Paths -/

/-- A dot, also as percent code, in front of a text. -/
def dropDot? : List Char → Option (List Char)
  | '.' :: rest => some rest
  | '%' :: '2' :: 'e' :: rest => some rest
  | '%' :: '2' :: 'E' :: rest => some rest
  | _ => none

/-- How many dots a segment consists of. -/
def dots? (segment : List Char) : Option Nat :=
  match dropDot? segment with
  | none => none
  | some [] => some 1
  | some rest => if dropDot? rest == some [] then some 2 else none

/-- The segments of a path without those that mean this place and the one above. -/
def resolveDots (done : List (List Char)) : List (List Char) → List (List Char)
  | [] => done
  | segment :: rest =>
    let trail := if rest.isEmpty then [[]] else []
    match dots? segment with
    | some 1 => resolveDots (done ++ trail) rest
    | some _ => resolveDots (done.dropLast ++ trail) rest
    | none => resolveDots (done ++ [segment]) rest

/-- A path as written. Where there is one it begins with a slash. -/
def readPath (cs : List Char) : String :=
  match cs with
  | [] => ""
  | c :: rest =>
    let segments := pieces '/' (percentEncode keptInPath (if c = '/' then rest else cs))
    String.ofList ((resolveDots [] segments).flatMap fun segment => '/' :: segment)

/-! ## 6. Reading addresses -/

/-- Control characters and the space, which do not count at the ends of an address. -/
def isEdge (c : Char) : Bool := c.toNat ≤ 0x20

/-- The text that counts: without edges, tabs and line ends. -/
def significant (cs : List Char) : List Char :=
  (dropEnd isEdge (cs.dropWhile isEdge)).filter fun c => c != '\t' && c != '\n' && c != '\r'

/-- A text cut at a separator, whole where there is none. -/
def cutOff (separator : Char) (cs : List Char) : List Char × Option (List Char) :=
  match cutAt? separator cs with
  | some (before, behind) => (before, some behind)
  | none => (cs, none)

/-- The scheme that a text begins with, and the rest. -/
def cutScheme? (cs : List Char) : Option (String × List Char) :=
  schemes.findSome? fun scheme =>
    let mark := (scheme ++ schemeMark).toList
    if mark.isPrefixOf cs then some (scheme, cs.drop mark.length) else none

/-- Reads an address. -/
def ConnectionUrl.ofText? (s : String) : Option ConnectionUrl := do
  let (scheme, rest) ← cutScheme? (significant s.toList)
  -- a fragment may hold question marks and a query slashes, so both go first
  let (rest, fragment?) := cutOff '#' rest
  let (rest, query?) := cutOff '?' rest
  let authority := rest.takeWhile (· != '/')
  let path := rest.dropWhile (· != '/')
  let ends := path.isEmpty && query?.isNone && fragment?.isNone
  let a ← readAuthority? authority ends
  some ⟨scheme, a.user, a.password?, a.host, a.port?, readPath (a.pathStart ++ path),
    query?.map fun q => String.ofList (percentEncode keptInQuery q),
    fragment?.map fun f => String.ofList (percentEncode keptInFragment f)⟩

/-! ## 7. Queries -/

/-- The pairs of the query. -/
def ConnectionUrl.pairs (u : ConnectionUrl) : List (String × String) := formPairs (u.query?.getD "")

/-- The address with other pairs. -/
def ConnectionUrl.withPairs (u : ConnectionUrl) (pairs : List (String × String)) : ConnectionUrl :=
  { u with query? := if pairs.isEmpty then none else some (formText pairs) }

/-- Takes the first pair of a name out. The other pairs are written anew. -/
def ConnectionUrl.takePair (u : ConnectionUrl) (name : String) : Option String × ConnectionUrl :=
  ((u.pairs.find? fun pair => pair.1 == name).map (·.2),
    u.withPairs (u.pairs.eraseP fun pair => pair.1 == name))

end TypedStore.Server
