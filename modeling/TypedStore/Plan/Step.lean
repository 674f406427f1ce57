/-
Steps and plans. A step is a statement with parameters still to be resolved and a form, which says how
the statement runs and what the program gets of its outcome. A plan is a list of steps with
identities, minted when a step is added, that stay valid when plans are joined.
-/
import TypedStore.Host.Conversion
import TypedStore.Plan.Resolution

set_option autoImplicit false

namespace TypedStore

/-! ## 1. Forms -/

/-- How a statement runs and what is kept of its outcome. -/
inductive Strategy where
  /-- Every row. -/
  | rows
  /-- The first row, if any. -/
  | row
  /-- The first cell of the first row. -/
  | scalar
  /-- The first cell of every row. -/
  | scalarColumn
  /-- The number of affected rows. -/
  | execute
deriving DecidableEq, Repr

/-- The name of a strategy. -/
def Strategy.name : Strategy → String
  | .rows => "Rows"
  | .row => "Row"
  | .scalar => "Scalar"
  | .scalarColumn => "ScalarColumn"
  | .execute => "Execute"

/-- What a row is turned into: nothing else, or a value of a row type. -/
inductive RowTarget where
  | labeled
  | mapped (d : RowDeclaration)

/-- What the program gets of a statement's outcome. -/
inductive StepForm where
  | rows
  | row
  | list (target : RowTarget)
  | single (target : RowTarget)
  | scalar (type : HostType)
  | scalarColumn (type : HostType)
  | execute

/-- The strategy of a form. -/
def StepForm.strategy : StepForm → Strategy
  | .rows | .list _ => .rows
  | .row | .single _ => .row
  | .scalar _ => .scalar
  | .scalarColumn _ => .scalarColumn
  | .execute => .execute

/-! ## 2. Typed results -/

/-- A row, or what it was turned into. -/
inductive MappedRow where
  | labeled (row : Row)
  | mapped (d : RowDeclaration) (x : HostValue)

/-- A typed result. -/
inductive StepResult where
  | rows (rows : List Row)
  | row (row? : Option Row)
  | list (rows : List MappedRow)
  | single (row? : Option MappedRow)
  | scalar (type : HostType) (x : HostValue)
  | column (type : HostType) (xs : List HostValue)
  | count (n : UInt64)

/-- Turns a row into what is asked for. -/
def RowTarget.ofRow (ds : Declarations) (row : Row) : RowTarget → Except Error MappedRow
  | .labeled => .ok (.labeled row)
  | .mapped d => (ds.ofRow d row).map (.mapped d)

/-- The typed result of a form. Every strategy leaves the kind of outcome that its forms read, so the
last case does not arise. -/
def StepForm.convert (ds : Declarations) (form : StepForm) (output : StepOutput) :
    Except Error StepResult :=
  match form, output with
  | .rows, .rows found => .ok (.rows found)
  | .row, .row found? => .ok (.row found?)
  | .list target, .rows found => (found.mapM fun r => target.ofRow ds r).map .list
  | .single _, .row none => .ok (.single none)
  | .single target, .row (some r) => (target.ofRow ds r).map fun mapped => .single (some mapped)
  | .scalar type, .scalar v => (ds.convert type v).map (.scalar type)
  | .scalarColumn type, .column values => (values.mapM (ds.convert type)).map (.column type)
  | .execute, .count n => .ok (.count n)
  | form, _ => .error (.valueConversionFailed form.strategy.name "outcome")

/-- What turning a row back into values reports. -/
def MappedRow.bindNotes (ds : Declarations) : MappedRow → List LogRecord
  | .mapped d (.record fields) => ds.bindNotesOfFields d.fields fields
  | _ => []

/-- What turning a result back into values reports. -/
def StepResult.bindNotes (ds : Declarations) : StepResult → List LogRecord
  | .list found => found.flatMap (MappedRow.bindNotes ds)
  | .single (some mapped) => mapped.bindNotes ds
  | .scalar type x => ds.bindNotes type x
  | .column type xs => xs.flatMap (ds.bindNotes type)
  | _ => []

/-! ## 3. Steps -/

/-- A statement with its parameters and its form. -/
structure Step where
  sql : String
  params : StepParams
  form : StepForm

/-- Adds or replaces a parameter. -/
def Step.param (s : Step) (name : String) (reference : Reference) : Step :=
  { s with params := s.params.insert name reference }

/-- A step of a plan. -/
structure PlannedStep where
  id : StepId
  step : Step

/-- Where identities come from: the next number. -/
structure StepMint where
  next : Nat

/-- A mint that has not been used. -/
def StepMint.start : StepMint := ⟨1⟩

/-! ## 4. Plans -/

/-- Steps that run as one unit of work, in order. -/
structure Plan where
  steps : List PlannedStep

namespace Plan

/-- A plan without steps. -/
def empty : Plan := ⟨[]⟩

instance : Inhabited Plan := ⟨empty⟩

/-- Adds a step behind the others, under a new identity. -/
def add (p : Plan) (s : Step) (mint : StepMint) : Plan × StepId × StepMint :=
  let id : StepId := ⟨mint.next⟩
  (⟨p.steps ++ [⟨id, s⟩]⟩, id, ⟨mint.next + 1⟩)

/-- The steps of a plan and then those of another. -/
def append (p other : Plan) : Plan := ⟨p.steps ++ other.steps⟩

/-- Number of steps. -/
def length (p : Plan) : Nat := p.steps.length

/-- Identities in order. -/
def ids (p : Plan) : List StepId := p.steps.map (·.id)

/-- Where a step stands. -/
def position? (p : Plan) (id : StepId) : Option Nat := p.ids.findIdx? (· == id)

/-- Whether a step belongs to the plan. -/
def contains (p : Plan) (id : StepId) : Bool := (p.position? id).isSome

end Plan

/-! ## 5. Results of plans -/

/-- Typed results by step. -/
structure PlanResult where
  values : List (StepId × StepResult)

namespace PlanResult

/-- No results. -/
def empty : PlanResult := ⟨[]⟩

/-- Whether a step has a result. -/
def contains (r : PlanResult) (id : StepId) : Bool := r.values.any (·.1 == id)

/-- The result of a step. -/
def get (r : PlanResult) (id : StepId) : Except Error StepResult :=
  match r.values.find? (·.1 == id) with
  | some (_, value) => .ok value
  | none => .error (.unknownHandle id)

/-- The results without that of a step. -/
def erase (r : PlanResult) (id : StepId) : PlanResult := ⟨r.values.filter (·.1 != id)⟩

/-- Sets the result of a step. -/
def record (r : PlanResult) (id : StepId) (value : StepResult) : PlanResult :=
  ⟨(id, value) :: (r.erase id).values⟩

/-- The result of a step, moved out. -/
def take (r : PlanResult) (id : StepId) : Except Error (StepResult × PlanResult) :=
  (r.get id).map fun value => (value, r.erase id)

/-- Number of results. -/
def size (r : PlanResult) : Nat := r.values.length

end PlanResult

end TypedStore
