/-
Failures. Each constructor is a cause; kinds, stable codes, messages and chains of causes are read off
it here and nowhere else. A document text that cannot be read is reported without a message, because
only the fact that it has a syntax error counts.
-/
import TypedStore.Text.Word

set_option autoImplicit false

namespace TypedStore

open TypedStore.Text (natText)

/-! ## 1. Kinds -/

/-- Stable classification of failures. -/
inductive ErrorKind where
  | pgTypeNotFound
  | hostTypeNotMapped
  | pgTypeNotMapped
  | dynamicTypeNotFound
  | wrongFieldNumberInComposite
  | attributeNotFound
  | wrongAttributeType
  | enumConversionFailed
  | objectMappingFailed
  | missingRequiredProperty
  | valueConversionFailed
  | missingParameter
  | queryFailed
  | unknownHandle
  | dependencyOnFutureStep
  | nullSourceResult
  | resultNotList
  | resultNotMapList
  | rowIndexOutOfBounds
  | columnNotFound
  | stepFailed
  | unexpectedRollback
  | serialization
  | other
deriving DecidableEq, Repr

namespace ErrorKind

/-- Every kind, in order. -/
def all : List ErrorKind :=
  [pgTypeNotFound, hostTypeNotMapped, pgTypeNotMapped, dynamicTypeNotFound,
    wrongFieldNumberInComposite, attributeNotFound, wrongAttributeType, enumConversionFailed,
    objectMappingFailed, missingRequiredProperty, valueConversionFailed, missingParameter,
    queryFailed, unknownHandle, dependencyOnFutureStep, nullSourceResult, resultNotList,
    resultNotMapList, rowIndexOutOfBounds, columnNotFound, stepFailed, unexpectedRollback,
    serialization, other]

/-- The name of a kind. -/
def name : ErrorKind → String
  | pgTypeNotFound => "PgTypeNotFound"
  | hostTypeNotMapped => "HostTypeNotMapped"
  | pgTypeNotMapped => "PgTypeNotMapped"
  | dynamicTypeNotFound => "DynamicTypeNotFound"
  | wrongFieldNumberInComposite => "WrongFieldNumberInComposite"
  | attributeNotFound => "AttributeNotFound"
  | wrongAttributeType => "WrongAttributeType"
  | enumConversionFailed => "EnumConversionFailed"
  | objectMappingFailed => "ObjectMappingFailed"
  | missingRequiredProperty => "MissingRequiredProperty"
  | valueConversionFailed => "ValueConversionFailed"
  | missingParameter => "MissingParameter"
  | queryFailed => "QueryFailed"
  | unknownHandle => "UnknownHandle"
  | dependencyOnFutureStep => "DependencyOnFutureStep"
  | nullSourceResult => "NullSourceResult"
  | resultNotList => "ResultNotList"
  | resultNotMapList => "ResultNotMapList"
  | rowIndexOutOfBounds => "RowIndexOutOfBounds"
  | columnNotFound => "ColumnNotFound"
  | stepFailed => "StepFailed"
  | unexpectedRollback => "UnexpectedRollback"
  | serialization => "Serialization"
  | other => "Other"

/-- The code that programs may rely on. -/
def code : ErrorKind → String
  | pgTypeNotFound => "PG_TYPE_NOT_FOUND"
  | hostTypeNotMapped => "HOST_TYPE_NOT_MAPPED"
  | pgTypeNotMapped => "PG_TYPE_NOT_MAPPED"
  | dynamicTypeNotFound => "DYNAMIC_TYPE_NOT_FOUND"
  | wrongFieldNumberInComposite => "WRONG_FIELD_NUMBER_IN_COMPOSITE"
  | attributeNotFound => "ATTRIBUTE_NOT_FOUND"
  | wrongAttributeType => "WRONG_ATTRIBUTE_TYPE"
  | enumConversionFailed => "ENUM_CONVERSION_FAILED"
  | objectMappingFailed => "OBJECT_MAPPING_FAILED"
  | missingRequiredProperty => "MISSING_REQUIRED_PROPERTY"
  | valueConversionFailed => "VALUE_CONVERSION_FAILED"
  | missingParameter => "MISSING_PARAMETER"
  | queryFailed => "QUERY_FAILED"
  | unknownHandle => "UNKNOWN_HANDLE"
  | dependencyOnFutureStep => "DEPENDENCY_ON_FUTURE_STEP"
  | nullSourceResult => "NULL_SOURCE_RESULT"
  | resultNotList => "RESULT_NOT_LIST"
  | resultNotMapList => "RESULT_NOT_MAP_LIST"
  | rowIndexOutOfBounds => "ROW_INDEX_OUT_OF_BOUNDS"
  | columnNotFound => "COLUMN_NOT_FOUND"
  | stepFailed => "STEP_FAILED"
  | unexpectedRollback => "UNEXPECTED_ROLLBACK"
  | serialization => "SERIALIZATION"
  | other => "OTHER"

end ErrorKind

/-! ## 2. Step identities -/

/-- The identity of a step, minted when it is added to a plan and never used again. -/
structure StepId where
  number : Nat
deriving DecidableEq, Repr

/-- A step identity in messages. -/
def StepId.text (id : StepId) : String := "#" ++ natText id.number

/-! ## 3. Failures -/

/-- Why an operation failed. -/
inductive Error where
  /-- The registry knows no store type of the name. -/
  | pgTypeNotFound (typeName : String)
  /-- No store type was registered for the host type. -/
  | hostTypeNotMapped (host : String)
  /-- No host type was registered for the store type. -/
  | pgTypeNotMapped (typeName : String)
  /-- No host type was registered for the tag. -/
  | dynamicTypeNotFound (tag : String)
  /-- A record has a different number of fields than its type has attributes. -/
  | wrongFieldNumberInComposite (typeName : String) (expected found : Nat)
  /-- A composite type or record lacks an attribute. -/
  | attributeNotFound (typeName attr : String)
  /-- Store and host disagree on whether an attribute is dynamic. -/
  | wrongAttributeType (typeName attr expected found : String)
  /-- A text is no label of the enumeration. -/
  | enumConversionFailed (typeName label : String)
  /-- A field of a record could not be converted. -/
  | objectMappingFailed (target typeName : String) (cause : Error)
  /-- A row lacks a column. -/
  | missingRequiredProperty (target column : String)
  /-- A value has the wrong kind or lies out of range. -/
  | valueConversionFailed (target value : String)
  /-- A placeholder has no value. -/
  | missingParameter (name : String)
  /-- A statement failed in the store or on the way there. -/
  | query (sql params : String) (cause : Error)
  /-- A reference names a step that the plan does not have. -/
  | unknownHandle (step : StepId)
  /-- A reference names a step that has not run yet. -/
  | dependencyOnFutureStep (step : StepId)
  /-- A reference reads from a step without a result. -/
  | nullSourceResult (step : StepId)
  /-- A reference reads a list from a single result. -/
  | resultNotList (step : StepId)
  /-- A reference reads a column or row where there are plain values. -/
  | resultNotMapList (step : StepId)
  /-- A reference reads a row that does not exist. -/
  | rowIndexOutOfBounds (step : StepId) (index length : Nat)
  /-- A reference reads a column that does not exist. -/
  | columnNotFound (step : StepId) (column : String)
  /-- A step of a plan failed. -/
  | step (index : Nat) (cause : Error)
  /-- A transaction that had to be rolled back was asked to commit. -/
  | unexpectedRollback
  /-- A document could not be read or written; syntax errors have no detail. -/
  | serialization (detail : Option String)
  /-- Anything else, with the messages of its causes, outermost first. -/
  | other (message : String) (causes : List String)
deriving DecidableEq

instance : Inhabited Error := ⟨.unexpectedRollback⟩

namespace Error

/-- A failure that is nothing but a message. -/
def msg (message : String) : Error := .other message []

/-- The kind of a failure. -/
def kind : Error → ErrorKind
  | pgTypeNotFound _ => .pgTypeNotFound
  | hostTypeNotMapped _ => .hostTypeNotMapped
  | pgTypeNotMapped _ => .pgTypeNotMapped
  | dynamicTypeNotFound _ => .dynamicTypeNotFound
  | wrongFieldNumberInComposite _ _ _ => .wrongFieldNumberInComposite
  | attributeNotFound _ _ => .attributeNotFound
  | wrongAttributeType _ _ _ _ => .wrongAttributeType
  | enumConversionFailed _ _ => .enumConversionFailed
  | objectMappingFailed _ _ _ => .objectMappingFailed
  | missingRequiredProperty _ _ => .missingRequiredProperty
  | valueConversionFailed _ _ => .valueConversionFailed
  | missingParameter _ => .missingParameter
  | query _ _ _ => .queryFailed
  | unknownHandle _ => .unknownHandle
  | dependencyOnFutureStep _ => .dependencyOnFutureStep
  | nullSourceResult _ => .nullSourceResult
  | resultNotList _ => .resultNotList
  | resultNotMapList _ => .resultNotMapList
  | rowIndexOutOfBounds _ _ _ => .rowIndexOutOfBounds
  | columnNotFound _ _ => .columnNotFound
  | step _ _ => .stepFailed
  | unexpectedRollback => .unexpectedRollback
  | serialization _ => .serialization
  | other _ _ => .other

/-- The kind of the innermost failure, looking through failed steps. -/
def rootKind : Error → ErrorKind
  | step _ cause => cause.rootKind
  | e => e.kind

/-- The position of the failed step. -/
def stepIndex? : Error → Option Nat
  | step index _ => some index
  | _ => none

/-- A name between backquotes, as messages cite it. -/
def cited (s : String) : String := "`" ++ s ++ "`"

/-- What a failure says, without its causes. Only syntax errors of documents say nothing. -/
def message? : Error → Option String
  | pgTypeNotFound typeName =>
    some ("Postgres type " ++ cited typeName ++ " is not present in the type registry")
  | hostTypeNotMapped host =>
    some ("Rust type " ++ cited host ++ " is not mapped to any Postgres type")
  | pgTypeNotMapped typeName =>
    some ("Postgres type " ++ cited typeName ++ " is not mapped to any Rust type")
  | dynamicTypeNotFound tag => some ("Dynamic type tag " ++ cited tag ++ " is not registered")
  | wrongFieldNumberInComposite typeName expected found =>
    some ("Composite type " ++ cited typeName ++ " has " ++ natText expected ++ " attributes but "
      ++ natText found ++ " fields were provided")
  | attributeNotFound typeName attr =>
    some ("Composite type " ++ cited typeName ++ " has no attribute " ++ cited attr)
  | wrongAttributeType typeName attr expected found =>
    some ("Attribute " ++ cited attr ++ " of " ++ cited typeName ++ " is " ++ cited expected
      ++ " in the store but " ++ cited found ++ " in Rust")
  | enumConversionFailed typeName label =>
    some (cited label ++ " is not a label of the enum " ++ cited typeName)
  | objectMappingFailed target typeName _ =>
    some ("Could not build " ++ cited target ++ " from the composite " ++ cited typeName)
  | missingRequiredProperty target column =>
    some ("Column " ++ cited column ++ " required by " ++ cited target ++ " is missing from the row")
  | valueConversionFailed target value => some ("Cannot convert " ++ cited value ++ " into " ++ target)
  | missingParameter name =>
    some ("Parameter " ++ cited (":" ++ name) ++ " is referenced by the query but has no value")
  | query sql params _ => some ("Query failed:\n" ++ sql ++ "\nParameters: " ++ params)
  | unknownHandle id => some ("Step " ++ id.text ++ " is not part of the plan being executed")
  | dependencyOnFutureStep id => some ("Step " ++ id.text ++ " did not produce a result yet")
  | nullSourceResult id => some ("Step " ++ id.text ++ " produced no result to read from")
  | resultNotList id => some ("Step " ++ id.text ++ " did not produce a list of values")
  | resultNotMapList id => some ("Step " ++ id.text ++ " did not produce a list of rows")
  | rowIndexOutOfBounds id index length =>
    some ("Row " ++ natText index ++ " requested from step " ++ id.text ++ " which produced "
      ++ natText length ++ " rows")
  | columnNotFound id column =>
    some ("Column " ++ cited column ++ " does not exist in the result of step " ++ id.text)
  | step index _ => some ("Transaction step " ++ natText index ++ " failed")
  | unexpectedRollback => some "The transaction was marked rollback-only and has been rolled back"
  | serialization detail => detail
  | other message _ => some message

/-- What logs show of a failure. -/
def logText (e : Error) : String := e.message?.getD ""

/-- The messages of the causes, outermost first. -/
def causes : Error → List (Option String)
  | objectMappingFailed _ _ cause => cause.message? :: cause.causes
  | query _ _ cause => cause.message? :: cause.causes
  | step _ cause => cause.message? :: cause.causes
  | other _ causes => causes.map some
  | _ => []

end Error

/-! ## 4. Log records -/

/-- How important a log record is. -/
inductive LogLevel where
  | error
  | warn
  | debug
  | trace
deriving DecidableEq, Repr

/-- The name of a level. -/
def LogLevel.name : LogLevel → String
  | .error => "ERROR"
  | .warn => "WARN"
  | .debug => "DEBUG"
  | .trace => "TRACE"

/-- A line of the log. -/
structure LogRecord where
  level : LogLevel
  message : String
deriving DecidableEq, Repr

/-- A record for developers. -/
def LogRecord.debug (message : String) : LogRecord := ⟨.debug, message⟩

/-- The level and the message. -/
def LogRecord.text (r : LogRecord) : String := r.level.name ++ " " ++ r.message

/-! ## 5. Results -/

theorem map_eq_ok {ε α β : Type} {x : Except ε α} {f : α → β} {b : β} (h : x.map f = .ok b) :
    ∃ a, x = .ok a ∧ f a = b := by
  cases x with
  | error e => cases h
  | ok a => exact ⟨a, rfl, Except.ok.inj h⟩

theorem map_eq_error {ε α β : Type} {x : Except ε α} {f : α → β} {e : ε} (h : x.map f = .error e) :
    x = .error e := by
  cases x with
  | error e' => exact congrArg Except.error (Except.error.inj h)
  | ok a => cases h

/-- Two steps succeed when the first does, and then the second. -/
theorem bind_eq_ok_iff {ε α β : Type} {answer : Except ε α} {next : α → Except ε β} {b : β} :
    answer >>= next = .ok b ↔ ∃ a, answer = .ok a ∧ next a = .ok b := by
  constructor
  · intro h
    cases answer with
    | error e => cases h
    | ok a => exact ⟨a, rfl, h⟩
  · rintro ⟨a, rfl, h⟩
    exact h

/-- Two steps fail when the first fails, or else the second. -/
theorem bind_eq_error {ε α β : Type} {answer : Except ε α} {next : α → Except ε β} {e : ε}
    (h : answer >>= next = .error e) :
    answer = .error e ∨ ∃ a, answer = .ok a ∧ next a = .error e := by
  cases answer with
  | ok a => exact .inr ⟨a, rfl, h⟩
  | error e' =>
    cases h
    exact .inl rfl

theorem mapError_eq_ok {ε ε' α : Type} {x : Except ε α} {f : ε → ε'} {a : α}
    (h : x.mapError f = .ok a) : x = .ok a := by
  cases x with
  | error e => cases h
  | ok b => exact congrArg Except.ok (Except.ok.inj h)

/-- Items that all have an answer: the first one has, and the others have. -/
theorem mapM_cons_eq_ok {ε α β : Type} {f : α → Except ε β} {a : α} {as : List α} {bs : List β}
    (h : (a :: as).mapM f = .ok bs) :
    ∃ b others, f a = .ok b ∧ as.mapM f = .ok others ∧ bs = b :: others := by
  rw [List.mapM_cons] at h
  obtain ⟨b, one, h⟩ := bind_eq_ok_iff.1 h
  obtain ⟨others, behind, h⟩ := bind_eq_ok_iff.1 h
  exact ⟨b, others, one, behind, (Except.ok.inj h).symm⟩

end TypedStore
