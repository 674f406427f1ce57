/-
Checks of plans and transactions: a failing step undoes its plan, results carry over from step to step
and from plan to plan, savepoints undo no more than their own work, and steps of other plans cannot be
referred to.
-/
import TypedStore.Conformance.Storage

set_option autoImplicit false

namespace TypedStore.Conformance

variable {σ τ : Type}

/-! ## 1. Steps -/

/-- Stores a title with its status. -/
def insertTitle : String :=
  "INSERT INTO tracked_item (title, status)\nVALUES (:title, :status)\nRETURNING id, title\n"

/-- Stores progress for an item. -/
def insertProgress : String :=
  "INSERT INTO progress_log (item_id, amount)\nVALUES (:item_id, :amount)\nRETURNING item_id\n"

/-- A step that stores a title with a status. -/
def titleStep (title : String) (status : ReadingStatus) (form : StepForm) : Step :=
  ⟨insertTitle, valueParams [("title", .text title), ("status", status.toCell)], form⟩

/-- A step that stores progress. -/
def progressStep (item : Reference) (amount : Int32) (form : StepForm) : Step :=
  ⟨insertProgress, Dict.ofList [("item_id", item), ("amount", .value (.int32 amount))], form⟩

/-- A step that selects a constant. -/
def constantStep : Step := ⟨"SELECT 1", .empty, .scalar (.scalar .int64)⟩

/-- A plan of one step. -/
def planOf (s : Step) (mint : StepMint) : Plan × StepId × StepMint := Plan.empty.add s mint

/-- Runs a plan on the connection. -/
def execute (subject : Subject σ τ) (r : Registry) (p : Plan) : Action σ PlanResult :=
  p.execute subject.store subject.connection r declarations

/-- How many items have a title. -/
def countItems (subject : Subject σ τ) (r : Registry) (title : String) : Check σ Int64 := do
  let result ← Check.expect "Could not count the tracked items"
    (session subject r "SELECT COUNT(*) FROM tracked_item WHERE title = :title"
      [("title", .text title)] (.scalar (.scalar .int64)))
  pure ((StepResult.int64? result).getD 0)

/-- A result that should be there. -/
def resultOf (description : String) (found : PlanResult) (id : StepId) : Check σ StepResult :=
  Check.expect description (Action.ofExcept (found.get id))

/-- Whether a result is a count. -/
def isCount (n : UInt64) : StepResult → Bool
  | .count m => m == n
  | _ => false

/-! ## 2. Plans -/

/-- A failing step undoes the steps before it. -/
def checkAtomicity (subject : Subject σ τ) (r : Registry) (mint : StepMint) :
    Check σ StepMint := do
  let (p, item, mint) := planOf (titleStep "Atomic Habits" .planned .row) mint
  let (p, _, mint) := p.add (progressStep (.fieldOf item "id") 0 .execute) mint
  let e ← Check.expectError "A violated check constraint must fail the plan"
    (execute subject r p).silently
  Check.ensure (e.stepIndex? == some 1)
  Check.ensure (e.rootKind == .queryFailed)
  Check.ensure ((← countItems subject r "Atomic Habits") == 0)
  pure mint

/-- A step reads the identity that the step before it got from the store. -/
def checkReference (subject : Subject σ τ) (r : Registry) (mint : StepMint) :
    Check σ StepMint := do
  let (p, item, mint) := planOf (titleStep "Hades" .readingNow .row) mint
  let (p, progress, mint) :=
    p.add (progressStep (.fieldOf item "id") 3 (.scalar (.scalar .int64))) mint
  let found ← Check.expect "The plan should commit" (execute subject r p)
  let row ← match ← resultOf "The item step has a result" found item with
    | .row row? => Check.expectSome "The insert returns a row" row?
    | _ => Check.expectSome "The insert returns a row" none
  let id := StepResult.int64? (← resultOf "The progress step has a result" found progress)
  Check.ensure (match row.get? "id" with
    | some (.int64 n) => some n == id
    | _ => false)
  Check.ensure (match row.get? "title" with
    | some (.text title) => title == "Hades"
    | _ => false)
  Check.ensure ((← countItems subject r "Hades") == 1)
  pure mint

/-- Steps of joined plans read each other's results, also as spread rows. -/
def checkJoinedPlans (subject : Subject σ τ) (r : Registry) (mint : StepMint) :
    Check σ StepMint := do
  let (first, item, mint) := planOf (titleStep "Outer Wilds" .planned .row) mint
  let (second, logged, mint) := planOf (progressStep (.fieldOf item "id") 22 .execute) mint
  let (second, updated, mint) := second.add
    ⟨"UPDATE tracked_item SET status = :status WHERE id = :id AND title = :title",
      Dict.ofList [("item", .rowOf item), ("status", .value ReadingStatus.finished.toCell)],
      .execute⟩ mint
  let joined := first.append second
  Check.ensure (joined.length == 3)
  Check.ensure (joined.position? item == some 0)
  Check.ensure (joined.position? updated == some 2)
  let found ← Check.expect "The merged plan should commit" (execute subject r joined)
  Check.ensure (isCount 1 (← resultOf "Inserted progress" found logged))
  Check.ensure (isCount 1 (← resultOf "Updated item" found updated))
  let status ← Check.expect "Could not read the status"
    (session subject r "SELECT status FROM tracked_item WHERE title = :title"
      [("title", .text "Outer Wilds")] (.scalar (.declared statusPath)))
  Check.ensure (match status with
    | .scalar _ x => ReadingStatus.ofHost? x == some .finished
    | _ => false)
  pure mint

/-! ## 3. Transactions of the caller -/

/-- A plan that fails in a savepoint leaves the transaction around it alone. -/
def checkSavepoint (subject : Subject σ τ) (r : Registry) (mint : StepMint) :
    Check σ StepMint := do
  let store := subject.store
  let transaction ← Check.expect "Could not begin" (store.begin subject.connection)
  let (outer, _, mint) := planOf (titleStep "Celeste" .finished .execute) mint
  let (inner, _, mint) := planOf (titleStep "Celeste" .planned .execute) mint
  Check.holding store transaction do
    let _ ← Check.expect "The joined plan should succeed"
      (outer.join store transaction r declarations)
    let e ← Check.expectError "A duplicated title must fail"
      (inner.nested store transaction r declarations).silently
    Check.ensure (e.stepIndex? == some 0)
    match ← Check.answer (store.isRollbackOnly transaction) with
    | .ok marked => Check.ensure (!marked)
    | .error _ => Check.ensure false
  Check.expect "The savepoint rollback keeps the outer work" (store.commit transaction)
  Check.ensure ((← countItems subject r "Celeste") == 1)
  pure mint

/-- A plan that fails after it joined a transaction keeps that transaction from committing. -/
def checkRollbackOnly (subject : Subject σ τ) (r : Registry) (mint : StepMint) :
    Check σ StepMint := do
  let store := subject.store
  let transaction ← Check.expect "Could not begin" (store.begin subject.connection)
  let (p, _, mint) := planOf (titleStep "Celeste" .planned .execute) mint
  Check.holding store transaction do
    match ← Check.answer (p.join store transaction r declarations).silently with
    | .ok _ => Check.ensure false
    | .error _ => pure ()
    match ← Check.answer (store.isRollbackOnly transaction) with
    | .ok marked => Check.ensure marked
    | .error _ => Check.ensure false
  let e ← Check.expectError "A rollback-only transaction cannot commit" (store.commit transaction)
  Check.ensure (e.kind == .unexpectedRollback)
  pure mint

/-- Steps of another plan cannot be referred to, and their results are not found. -/
def checkForeignStep (subject : Subject σ τ) (r : Registry) (mint : StepMint) :
    Check σ StepMint := do
  let (_, foreign, mint) := planOf constantStep mint
  let (p, _, mint) := planOf (progressStep (.valueOf foreign) 1 .execute) mint
  let e ← Check.expectError "A handle of another plan cannot be resolved" (execute subject r p)
  Check.ensure (e.stepIndex? == some 0)
  Check.ensure (e.rootKind == .unknownHandle)
  let (p, one, mint) := planOf constantStep mint
  let found ← Check.expect "A constant select should commit" (execute subject r p)
  let selected ← resultOf "Selected one" found one
  Check.ensure (StepResult.int64? selected == some 1)
  let e ← Check.expectError "The handle belongs to another plan"
    (Action.ofExcept (found.get foreign))
  Check.ensure (e.kind == .unknownHandle)
  pure mint

end TypedStore.Conformance
