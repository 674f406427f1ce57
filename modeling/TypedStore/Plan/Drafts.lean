/-
Plans under names. Steps are named as they are added, and later references name the step they read
from; the names are turned into identities before the step is added. A name that stands for nothing
is a failure of its own.
-/
import TypedStore.Plan.Step

set_option autoImplicit false

namespace TypedStore

/-! ## 1. Conversions by name -/

/-- Conversions that references pass values through. -/
inductive Transform where
  /-- Texts in upper case, by the letters of ASCII. -/
  | upper
  /-- Twice a whole number, going round at the ends of its range. -/
  | double
  /-- The number of bytes of a text. -/
  | length
  /-- Zero in place of NULL. -/
  | orZero
  /-- An array of one element. -/
  | list
  /-- A failure. -/
  | refuse
deriving DecidableEq, Repr

/-- What a conversion makes of a value. -/
def Transform.apply (t : Transform) (v : Value) : Except Error Value :=
  match t with
  | .upper =>
    match v with
    | .text s => .ok (.text (String.ofList (s.toList.map Char.toUpper)))
    | v => .ok v
  | .double =>
    match ScalarType.accept .int64 v with
    | .ok (.int64 n) => .ok (.int64 (n + n))
    | answer => answer
  | .length =>
    match ScalarType.accept .text v with
    | .ok (.text s) => .ok (.int64 (Int64.ofNat s.utf8ByteSize))
    | answer => answer
  | .orZero => if v.isNull then .ok (.int32 0) else ScalarType.accept .int32 v
  | .list => .ok (.array [v])
  | .refuse => .error (.msg ("refused " ++ v.display))

/-! ## 2. References by name -/

/-- A parameter that names the step it reads from. -/
inductive NamedReference where
  | value (v : Value)
  | part (step : String) (part : ResultPart)
  | mapped (source : NamedReference) (t : Transform)

/-- Why an operation on named things failed: a name that stands for nothing, or the operation. -/
inductive DraftError where
  | noSuchName (name : String)
  | failed (e : Error)

/-- The thing of a name. -/
def named {α : Type} (things : Dict α) (name : String) : Except DraftError α :=
  match things.get? name with
  | some thing => .ok thing
  | none => .error (.noSuchName name)

/-- The reference with the identity of its step. -/
def NamedReference.bind (steps : Dict StepId) : NamedReference → Except DraftError Reference
  | .value v => .ok (.value v)
  | .part name reads => (named steps name).map fun id => .fromStep id reads
  | .mapped source t => (source.bind steps).map fun r => .mapped r t.apply

/-- A step whose references name steps. Those of `extra` are set one by one after the others. -/
structure NamedStep where
  sql : String
  form : StepForm
  params : List (String × NamedReference)
  extra : List (String × NamedReference)

/-- References with the identities of their steps. -/
def bindAll (steps : Dict StepId) :
    List (String × NamedReference) → Except DraftError (List (String × Reference))
  | [] => .ok []
  | (name, reference) :: rest => do
    let first ← reference.bind steps
    let others ← bindAll steps rest
    pure ((name, first) :: others)

/-- The step with the identities of the steps it names. -/
def NamedStep.bind (steps : Dict StepId) (s : NamedStep) : Except DraftError Step := do
  let params ← bindAll steps s.params
  let extra ← bindAll steps s.extra
  pure (extra.foldl (fun step entry => step.param entry.1 entry.2)
    ⟨s.sql, Dict.ofList params, s.form⟩)

/-! ## 3. Drafts -/

/-- Plans and steps by name. -/
structure Drafts where
  mint : StepMint
  plans : Dict Plan
  steps : Dict StepId

namespace Drafts

/-- Nothing drafted yet. -/
def empty : Drafts := ⟨.start, .empty, .empty⟩

/-- Starts a plan. -/
def start (d : Drafts) (plan : String) : Drafts :=
  { d with plans := d.plans.insert plan .empty }

/-- Adds a step to a plan, which is started where there is none. -/
def add (d : Drafts) (plan name : String) (s : NamedStep) :
    Except DraftError (StepId × Step × Drafts) := do
  let step ← s.bind d.steps
  let (p, id, mint) := ((d.plans.get? plan).getD .empty).add step d.mint
  pure (id, step, ⟨mint, d.plans.insert plan p, d.steps.insert name id⟩)

/-- Takes a plan out. -/
def take (d : Drafts) (plan : String) : Except DraftError (Plan × Drafts) :=
  (named d.plans plan).map fun p => (p, { d with plans := d.plans.erase plan })

/-- Appends a plan to another, which it becomes part of. -/
def join (d : Drafts) (plan other : String) : Except DraftError (Plan × Drafts) := do
  let (tail, d) ← d.take other
  let p ← named d.plans plan
  let joined := p.append tail
  pure (joined, { d with plans := d.plans.insert plan joined })

/-- The results of a plan by the names of the steps. -/
def namedResults (d : Drafts) (r : PlanResult) : List (String × StepResult) :=
  d.steps.entries.filterMap fun (name, id) =>
    match r.get id with
    | .ok value => some (name, value)
    | .error _ => none

end Drafts

end TypedStore
