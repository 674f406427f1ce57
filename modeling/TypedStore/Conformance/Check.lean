/-
Checks. A check acts on a store and stops at the first thing that is not as it should be: a comparison
that does not hold, or an action that should have succeeded or failed and did not, which is described.
A transaction that is open when a check stops is abandoned.
-/
import TypedStore.Plan.Execution

set_option autoImplicit false

namespace TypedStore.Conformance

/-- Why a check stopped. -/
inductive Stop where
  | assertion
  | expectation (description : String)
deriving DecidableEq, Repr

/-- Acts on a store and may stop. -/
abbrev Check (σ α : Type) := ExceptT Stop (StateM (Journal σ)) α

/-- A store under test, with one of its connections and its account of the types it has. -/
structure Subject (σ τ : Type) where
  store : Store σ τ
  connection : τ
  loadCatalog : List String → Action σ Catalog

namespace Check

variable {σ τ α : Type}

/-- The answer of an action, whatever it is. -/
def answer (act : Action σ α) : Check σ (Except Error α) :=
  ExceptT.mk do
    let answer ← act.run
    pure (.ok answer)

/-- An action that should succeed. -/
def expect (description : String) (act : Action σ α) : Check σ α := do
  match ← answer act with
  | .ok a => pure a
  | .error _ => throw (.expectation description)

/-- An action that should fail. -/
def expectError (description : String) (act : Action σ α) : Check σ Error := do
  match ← answer act with
  | .ok _ => throw (.expectation description)
  | .error e => pure e

/-- Something that should be there. -/
def expectSome (description : String) : Option α → Check σ α
  | some a => pure a
  | none => throw (.expectation description)

/-- Something that should hold. -/
def ensure (holds : Bool) : Check σ Unit :=
  if holds then pure () else throw .assertion

/-- A check that holds a transaction, which is abandoned when the check stops. -/
def holding (store : Store σ τ) (transaction : τ) (check : Check σ α) : Check σ α := do
  match ← ExceptT.mk (do return .ok (← check.run)) with
  | .ok a => pure a
  | .error stop => do
    let _ ← answer (store.abandon transaction)
    throw stop

end Check

end TypedStore.Conformance
