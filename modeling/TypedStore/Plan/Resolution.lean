/-
Resolution of references against what earlier steps produced. A cell or a column becomes a value; a
row spreads into one parameter for each of its columns, which never take the place of a parameter that
is named.
-/
import TypedStore.Plan.Reference
import TypedStore.Statement.Query

set_option autoImplicit false

namespace TypedStore

/-! ## 1. Results -/

/-- What a statement left, as later steps read it. -/
inductive StepOutput where
  | rows (rows : List Row)
  | row (row? : Option Row)
  | scalar (v : Value)
  | column (values : List Value)
  | count (n : UInt64)

/-- A resolved reference. -/
inductive Resolved where
  | value (v : Value)
  /-- The columns of a row with their cells. -/
  | row (columns : List (String × Value))

namespace StepOutput

/-- The row at an index. -/
def selectRow (id : StepId) (list : List Row) (index : Nat) : Except Error Row :=
  match list[index]? with
  | some r => .ok r
  | none => .error (.rowIndexOutOfBounds id index list.length)

/-- What messages call the first column. -/
def firstColumn : String := "<first>"

/-- The cell of a named column, or that of the first one. -/
def cell (id : StepId) (r : Row) (column? : Option String) : Except Error Value :=
  let found := match column? with
    | some name => r.get? name
    | none => r.values.head?
  match found with
  | some v => .ok v
  | none => .error (.columnNotFound id (column?.getD firstColumn))

/-- A cell of a result. Single results have no row but the first, and plain values have no columns. -/
def readField (id : StepId) (output : StepOutput) (column? : Option String) (index : Nat) :
    Except Error Value :=
  match output with
  | .rows list => do
    let r ← selectRow id list index
    cell id r column?
  | .row none => .error (.nullSourceResult id)
  | .row (some r) => if index ≠ 0 then .error (.resultNotList id) else cell id r column?
  | .column values =>
    if column?.isSome then .error (.resultNotMapList id)
    else
      match values[index]? with
      | some v => .ok v
      | none => .error (.rowIndexOutOfBounds id index values.length)
  | .scalar v =>
    if column?.isSome then .error (.resultNotMapList id)
    else if index ≠ 0 then .error (.resultNotList id)
    else if v.isNull then .error (.nullSourceResult id)
    else .ok v
  | .count n =>
    if column?.isSome then .error (.resultNotMapList id)
    else if index ≠ 0 then .error (.resultNotList id)
    else .ok (.int64 n.toInt64)

/-- The cells of a column, one for each row of a list. -/
def readColumn (id : StepId) (output : StepOutput) (column? : Option String) :
    Except Error (List Value) :=
  match output with
  | .rows list => list.mapM fun r => cell id r column?
  | .column values => if column?.isSome then .error (.resultNotMapList id) else .ok values
  | .row _ | .scalar _ | .count _ => .error (.resultNotList id)

/-- A whole row of a result. -/
def readRow (id : StepId) (output : StepOutput) (index : Nat) : Except Error Row :=
  match output with
  | .rows list => selectRow id list index
  | .row none => .error (.nullSourceResult id)
  | .row (some r) => if index ≠ 0 then .error (.resultNotList id) else .ok r
  | .column _ | .scalar _ | .count _ => .error (.resultNotMapList id)

/-- A part of a result. -/
def read (id : StepId) (output : StepOutput) : ResultPart → Except Error Resolved
  | .field column? index => (readField id output column? index).map .value
  | .column column? => (readColumn id output column?).map fun values => .value (.array values)
  | .row index => (readRow id output index).map fun r => .row r.columns

end StepOutput

/-! ## 2. References -/

/-- What is known while a plan runs: its steps, and the results of those that have run. -/
structure Progress where
  planned : List StepId
  outputs : List (StepId × StepOutput)

namespace Progress

/-- Outside of any plan. -/
def none : Progress := ⟨[], []⟩

/-- The result of a step that has run. -/
def output? (p : Progress) (id : StepId) : Option StepOutput :=
  (p.outputs.find? (·.1 == id)).map (·.2)

/-- The result of a step. -/
def output (p : Progress) (id : StepId) : Except Error StepOutput :=
  match p.output? id with
  | some output => .ok output
  | .none =>
    if p.planned.contains id then .error (.dependencyOnFutureStep id)
    else .error (.unknownHandle id)

/-- Adds the result of a step. -/
def record (p : Progress) (id : StepId) (output : StepOutput) : Progress :=
  { p with outputs := (id, output) :: p.outputs }

/-- Passes the cells of a row through a conversion. -/
def mapColumns (convert : Value → Except Error Value) :
    List (String × Value) → Except Error (List (String × Value))
  | [] => .ok []
  | (column, v) :: rest => do
    let first ← convert v
    let others ← mapColumns convert rest
    pure ((column, first) :: others)

/-- Resolves a reference. -/
def resolve (p : Progress) : Reference → Except Error Resolved
  | .value v => .ok (.value v)
  | .fromStep id part => do
    let output ← p.output id
    output.read id part
  | .mapped source convert => do
    match ← p.resolve source with
    | .value v => (convert v).map .value
    | .row columns => (mapColumns convert columns).map .row

/-- Resolves parameters in order of their names into values and the columns of rows. -/
def resolveAll (p : Progress) :
    List (String × Reference) → Except Error (List (String × Value) × List (String × Value))
  | [] => .ok ([], [])
  | (name, reference) :: rest => do
    let first ← p.resolve reference
    let (values, spread) ← p.resolveAll rest
    match first with
    | .value v => pure ((name, v) :: values, spread)
    | .row columns => pure (values, columns ++ spread)

/-- Resolves the parameters of a step. A spread column counts where nothing else has its name. -/
def resolveParams (p : Progress) (params : StepParams) : Except Error Params := do
  let (values, spread) ← p.resolveAll params.entries
  pure (spread.foldl (fun acc column => acc.insertNew column.1 column.2) (Dict.ofList values))

end Progress

end TypedStore
