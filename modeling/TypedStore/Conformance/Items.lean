/-
What the conformance checks store: reading and playing progress. The types are those of a program that
uses the library, with their declarations, the way to typed values and back, and the items that are
stored and read again.
-/
import TypedStore.Host.Conversion

set_option autoImplicit false

namespace TypedStore.Conformance

open TypedStore.Calendar

/-! ## 1. Types -/

/-- How far somebody got. -/
inductive ReadingStatus where
  | planned
  | readingNow
  | finished
  | abandoned
deriving DecidableEq, Repr

/-- What an edition was made for. -/
structure Platform where
  name : String
  releaseYear : Int32
  regions : List String
deriving DecidableEq

/-- A release of an item. -/
structure Edition where
  status : ReadingStatus
  platforms : List Platform
  published? : Option Date
deriving DecidableEq

/-- What somebody did with an item. -/
inductive Activity where
  | reading (pages : Int32) (chapter? : Option String)
  | playing (minutes : Int32) (platform : String)
deriving DecidableEq

/-- A row of the table of items. The note is no column. -/
structure TrackedItem where
  id : Int64
  title : String
  status : ReadingStatus
  edition? : Option Edition
  tags : List String
  activity? : Option Activity
  note : String
deriving DecidableEq

/-! ## 2. Declarations -/

/-- Where the types are declared. -/
def home : String := "trove_tests::library::"

/-- The path of the declared enumeration. -/
def statusPath : String := home ++ "ReadingStatus"
/-- The path of platforms. -/
def platformPath : String := home ++ "Platform"
/-- The path of editions. -/
def editionPath : String := home ++ "Edition"
/-- The path of activities. -/
def activityPath : String := home ++ "Activity"

/-- A field whose attribute has its own name. -/
def plainField (name : String) (type : HostType) : FieldDeclaration := ⟨name, name, type, none, none⟩

/-- Texts in a list. -/
def textList : HostType := .list (.scalar .text)

/-- An enumeration with one label of its own choice. -/
def statusDeclaration : EnumDeclaration :=
  ⟨statusPath, "reading_status", .upperSnake,
    [⟨"Planned", none⟩, ⟨"ReadingNow", none⟩, ⟨"Finished", none⟩, ⟨"Abandoned", some "GAVE_UP"⟩]⟩

/-- A record with a list among its fields. -/
def platformDeclaration : RecordDeclaration :=
  ⟨platformPath, "platform",
    [plainField "name" (.scalar .text), plainField "release_year" (.scalar .int32),
      plainField "regions" textList]⟩

/-- A record that holds records; one of its attributes has a name of its own. -/
def editionDeclaration : RecordDeclaration :=
  ⟨editionPath, "edition",
    [plainField "status" (.declared statusPath), plainField "platforms" (.list (.declared platformPath)),
      ⟨"published", "published_on", .optional (.scalar .date), none, none⟩]⟩

/-- A self describing type with two payloads. -/
def activityDeclaration : DynamicDeclaration :=
  ⟨activityPath,
    [⟨"Reading", "reading", .record "Reading" [("pages", .int32), ("chapter", .optional .text)]⟩,
      ⟨"Playing", "gaming", .record "Playing" [("minutes", .int32), ("platform", .text)]⟩]⟩

/-- The declared types. -/
def declarations : Declarations :=
  [.enumeration statusDeclaration, .record platformDeclaration, .record editionDeclaration,
    .dynamic activityDeclaration]

/-- Rows of items, where the note is empty because no column gives it. -/
def itemRow : RowDeclaration :=
  ⟨home ++ "TrackedItem",
    [plainField "id" (.scalar .int64), plainField "title" (.scalar .text),
      plainField "status" (.declared statusPath),
      plainField "edition" (.optional (.declared editionPath)), plainField "tags" textList,
      plainField "activity" (.optional (.declared activityPath)),
      ⟨"note", "note", .scalar .text, none, some (.scalar (.text ""))⟩]⟩

/-- A builder that knows the declared types. -/
def builder : RegistryBuilder :=
  { RegistryBuilder.empty with
    enums := [statusDeclaration.registration]
    composites :=
      [platformDeclaration.registration declarations, editionDeclaration.registration declarations]
    dynamics := [activityDeclaration.registration] }

/-! ## 3. Typed values -/

/-- A text as a typed value. -/
def hostText (s : String) : HostValue := .scalar (.text s)

/-- A text from a typed value. -/
def textOf? : HostValue → Option String
  | .scalar (.text s) => some s
  | _ => none

/-- Something that may be missing as a typed value. -/
def hostOption {α : Type} (f : α → HostValue) : Option α → HostValue
  | some a => .present (f a)
  | none => .absent

/-- Something that may be missing from a typed value. -/
def optionOf? {α : Type} (f : HostValue → Option α) : HostValue → Option (Option α)
  | .absent => some none
  | .present x => (f x).map some
  | _ => none

/-- A list from a typed value. -/
def listOf? {α : Type} (f : HostValue → Option α) : HostValue → Option (List α)
  | .list xs => xs.mapM f
  | _ => none

namespace ReadingStatus

/-- The variant of a status. -/
def variant : ReadingStatus → String
  | planned => "Planned"
  | readingNow => "ReadingNow"
  | finished => "Finished"
  | abandoned => "Abandoned"

/-- A status as a typed value. -/
def toHost (s : ReadingStatus) : HostValue := .variant s.variant

/-- A status from a typed value. -/
def ofHost? : HostValue → Option ReadingStatus
  | .variant name => [planned, readingNow, finished, abandoned].find? fun s => s.variant == name
  | _ => none

end ReadingStatus

/-- A platform as a typed value. -/
def Platform.toHost (p : Platform) : HostValue :=
  .record [("name", hostText p.name), ("release_year", .scalar (.int32 p.releaseYear)),
    ("regions", .list (p.regions.map hostText))]

/-- A platform from a typed value. -/
def Platform.ofHost? : HostValue → Option Platform
  | .record [(_, .scalar (.text name)), (_, .scalar (.int32 year)), (_, regions)] =>
    (listOf? textOf? regions).map fun regions => ⟨name, year, regions⟩
  | _ => none

/-- An edition as a typed value. -/
def Edition.toHost (e : Edition) : HostValue :=
  .record [("status", e.status.toHost), ("platforms", .list (e.platforms.map Platform.toHost)),
    ("published", hostOption (fun d => .scalar (.date d)) e.published?)]

/-- A date from a typed value. -/
def dateOf? : HostValue → Option Date
  | .scalar (.date d) => some d
  | _ => none

/-- An edition from a typed value. -/
def Edition.ofHost? : HostValue → Option Edition
  | .record [(_, status), (_, platforms), (_, published)] => do
    let status ← ReadingStatus.ofHost? status
    let platforms ← listOf? Platform.ofHost? platforms
    let published? ← optionOf? dateOf? published
    pure ⟨status, platforms, published?⟩
  | _ => none

/-- An activity as a typed value. -/
def Activity.toHost : Activity → HostValue
  | .reading pages chapter? =>
    .tagged "Reading" (.record [("pages", .int pages.toInt),
      ("chapter", match chapter? with
        | some chapter => .present (.text chapter)
        | none => .absent)])
  | .playing minutes platform =>
    .tagged "Playing" (.record [("minutes", .int minutes.toInt), ("platform", .text platform)])

/-- An activity from a typed value. -/
def Activity.ofHost? : HostValue → Option Activity
  | .tagged "Reading" (.record [(_, .int pages), (_, .absent)]) =>
    some (.reading (Int32.ofInt pages) none)
  | .tagged "Reading" (.record [(_, .int pages), (_, .present (.text chapter))]) =>
    some (.reading (Int32.ofInt pages) (some chapter))
  | .tagged "Playing" (.record [(_, .int minutes), (_, .text platform)]) =>
    some (.playing (Int32.ofInt minutes) platform)
  | _ => none

/-- An item from a mapped row. -/
def TrackedItem.ofHost? : HostValue → Option TrackedItem
  | .record [(_, .scalar (.int64 id)), (_, .scalar (.text title)), (_, status), (_, edition),
      (_, tags), (_, activity), (_, .scalar (.text note))] => do
    let status ← ReadingStatus.ofHost? status
    let edition? ← optionOf? Edition.ofHost? edition
    let tags ← listOf? textOf? tags
    let activity? ← optionOf? Activity.ofHost? activity
    pure ⟨id, title, status, edition?, tags, activity?, note⟩
  | _ => none

/-- The columns of an item that are inserted, as parameters. -/
def TrackedItem.params (item : TrackedItem) : List (String × Value) :=
  let bound := fun (name : String) (t : HostType) (x : HostValue) =>
    (name, declarations.toValue t x)
  [bound "title" (.scalar .text) (hostText item.title),
    bound "status" (.declared statusPath) item.status.toHost,
    bound "edition" (.optional (.declared editionPath)) (hostOption Edition.toHost item.edition?),
    bound "tags" textList (.list (item.tags.map hostText)),
    bound "activity" (.optional (.declared activityPath)) (hostOption Activity.toHost item.activity?)]

/-- A status as a cell. -/
def ReadingStatus.toCell (s : ReadingStatus) : Value :=
  declarations.toValue (.declared statusPath) s.toHost

/-! ## 4. Items -/

/-- The items that are stored, which get their identities from the store. -/
def sampleItems : List TrackedItem :=
  [{ id := 0
     title := "The Legend of Zelda: Breath of the Wild"
     status := .readingNow
     edition? := some ⟨.finished, [⟨"Switch", 2017, ["EU", "JP", "US"]⟩, ⟨"Wii U", 2017, []⟩],
       some ⟨2017, 3, 3⟩⟩
     tags := ["open world", "it's dangerous to go alone"]
     activity? := some (.playing 95 "Switch")
     note := "" },
    { id := 0
      title := "Dune"
      status := .abandoned
      edition? := some ⟨.planned, [], none⟩
      tags := []
      activity? := some (.reading 412 none)
      note := "" },
    { id := 0
      title := "Planned and nothing else"
      status := .planned
      edition? := none
      tags := ["backlog"]
      activity? := none
      note := "" }]

end TypedStore.Conformance
