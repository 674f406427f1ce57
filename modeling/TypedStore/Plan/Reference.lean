/-
References. A parameter of a step is a value, a part of what an earlier step will have produced, or
one of these passed through a conversion. References say what to read and carry no data, so a plan can
be written down before it runs.
-/
import TypedStore.Value.Text

set_option autoImplicit false

namespace TypedStore

open TypedStore.Text

/-! ## 1. Parts of results -/

/-- A part of the result of a step. -/
inductive ResultPart where
  /-- One cell, that of the first column where none is named. -/
  | field (column? : Option String) (row : Nat)
  /-- One cell of every row, as an array. -/
  | column (column? : Option String)
  /-- A whole row, spread into parameters named after its columns. -/
  | row (row : Nat)
deriving DecidableEq, Repr

/-- A name that may be missing, in diagnostics. -/
def optionalName : Option String → String
  | some name => "Some(" ++ quoted name ++ ")"
  | none => "None"

/-- A part in diagnostics. -/
def ResultPart.diagnostic : ResultPart → String
  | .field column? index =>
    "Field \x7b column: " ++ optionalName column? ++ ", row: " ++ natText index ++ " \x7d"
  | .column column? => "Column \x7b column: " ++ optionalName column? ++ " \x7d"
  | .row index => "Row \x7b row: " ++ natText index ++ " \x7d"

/-! ## 2. Parameters -/

/-- A parameter that is resolved right before its step runs. -/
inductive Reference where
  | value (v : Value)
  | fromStep (step : StepId) (part : ResultPart)
  | mapped (source : Reference) (convert : Value → Except Error Value)

namespace Reference

/-- The first cell of the first row. -/
def valueOf (step : StepId) : Reference := .fromStep step (.field none 0)

/-- A named cell of the first row. -/
def fieldOf (step : StepId) (column : String) : Reference := .fromStep step (.field (some column) 0)

/-- The first row, spread. -/
def rowOf (step : StepId) : Reference := .fromStep step (.row 0)

/-- A reference in diagnostics. -/
def diagnostic : Reference → String
  | .value v => "Value(" ++ v.diagnostic ++ ")"
  | .fromStep step part =>
    "FromStep(StepId(" ++ natText step.number ++ "), " ++ part.diagnostic ++ ")"
  | .mapped source _ => "Transformed(" ++ source.diagnostic ++ ")"

end Reference

/-- Parameters of a step by placeholder name. -/
abbrev StepParams := Dict Reference

/-- Parameters in diagnostics. -/
def StepParams.diagnostic (params : StepParams) : String :=
  "\x7b" ++ ", ".intercalate (params.entries.map fun (name, r) => quoted name ++ ": " ++ r.diagnostic)
    ++ "\x7d"

end TypedStore
