/-
The whole suite of conformance checks: tables and types first, then the registry of what the store
has, storage, plans and transactions.
-/
import TypedStore.Conformance.Transactions

set_option autoImplicit false

namespace TypedStore.Conformance

variable {σ τ : Type}

/-- Runs every check. -/
def checkAllOf (subject : Subject σ τ) : Check σ Unit := do
  createSchema subject
  let r ← loadRegistry subject
  checkStorage subject r
  let mint ← checkAtomicity subject r .start
  let mint ← checkReference subject r mint
  let mint ← checkJoinedPlans subject r mint
  let mint ← checkSavepoint subject r mint
  let mint ← checkRollbackOnly subject r mint
  let _ ← checkForeignStep subject r mint

/-- Runs the suite on a store: why it stopped, if it did, and what it left. -/
def run (subject : Subject σ τ) (state : σ) : Option Stop × Journal σ :=
  let (answer, journal) := (checkAllOf subject).run.run ⟨state, []⟩
  (match answer with
    | .ok () => none
    | .error stop => some stop, journal)

end TypedStore.Conformance
