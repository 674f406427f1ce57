/-
What the commands of a store say when the store may refuse them. A savepoint whose rollback or release
is refused is still there, so that its statements stay in the transaction around it; a transaction whose
commit is refused hands on nothing (`Refusing`). What a store of this kind has pending in a transaction
is in its ledger, whether or not a plan knows that it is still there.
-/
import TypedStore.Proofs.Plan.Ledger

set_option autoImplicit false

namespace TypedStore

variable {σ τ δ : Type} [DecidableEq τ]

/-! ## 1. Ledgers -/

namespace Ledger

variable {l : Ledger τ δ} {t u : τ} {more : List δ}

/-- The end of a transaction fails. A savepoint is still there, and what it did stays in the transaction
around it. -/
def stranded (l : Ledger τ δ) (t : τ) : Ledger τ δ :=
  match l.work t with
  | some ⟨some parent, done⟩ => l.added parent done
  | _ => l

/-- A savepoint that failed to end has the effect of one that was released. -/
theorem stranded_of_savepoint (known : l.work u = some ⟨some t, more⟩) : l.stranded u = l.kept u := by
  rw [kept_of_savepoint known, stranded, known]

theorem stranded_of_alone (known : l.work t = some ⟨none, more⟩) : l.stranded t = l := by
  rw [stranded, known]

end Ledger

/-! ## 2. Stores that refuse -/

/-- A ledger with its marks before and after a transaction is opened, which may be refused. -/
def Opens (l l' : Ledger τ δ) (marks marks' : τ → Bool) (parent? : Option τ) :
    Except Error τ → Prop
  | .ok t => l.work t = none ∧ l' = l.opened t parent? ∧ marks' = Function.update marks t false
  | .error _ => l' = l ∧ marks' = marks

/-- A store that may refuse every command of transactions, in states that are sound. A commit of a
transaction that is marked rollback-only is a rollback of it, and fails. -/
structure Refusing (store : Store σ τ) (δ : Type) where
  /-- How a statement is entered. -/
  write : Query → δ
  ledger : σ → Ledger τ δ
  /-- Whether a transaction is marked rollback-only. -/
  marked : σ → τ → Bool
  sound : σ → Prop
  /-- Whether a transaction can be begun on a connection. -/
  ready : σ → τ → Prop
  begins : ∀ {s s' : σ} {c : τ} {answer : Except Error τ}, sound s → ready s c →
    (Exchange.begin c answer).Takes store s s' →
    sound s' ∧ Opens (ledger s) (ledger s') (marked s) (marked s') none answer
  savepoints : ∀ {s s' : σ} {t : τ} {w : Work τ δ} {answer : Except Error τ}, sound s →
    (ledger s).work t = some w → (Exchange.savepoint t answer).Takes store s s' →
    sound s' ∧ Opens (ledger s) (ledger s') (marked s) (marked s') (some t) answer
  runs : ∀ {s s' : σ} {t : τ} {w : Work τ δ} {call : Exchange τ}, sound s →
    (ledger s).work t = some w → call.StatementIn t → call.Takes store s s' →
    sound s' ∧ ledger s' = (ledger s).added t (call.done write) ∧ marked s' = marked s
  /-- A savepoint hands on its work when it is released, and keeps it in place when that is refused. -/
  releases : ∀ {s s' : σ} {t u : τ} {done : List δ} {answer : Except Error Unit}, sound s →
    (ledger s).work u = some ⟨some t, done⟩ → marked s u = false →
    (Exchange.commit u answer).Takes store s s' →
    sound s' ∧ ledger s' = (ledger s).kept u ∧ marked s' = marked s
  /-- A rollback to a savepoint undoes its work, unless it is refused. -/
  undoes : ∀ {s s' : σ} {t u : τ} {done : List δ} {answer : Except Error Unit}, sound s →
    (ledger s).work u = some ⟨some t, done⟩ → (Exchange.rollback u answer).Takes store s s' →
    sound s' ∧ ledger s' = (if answer.isOk then ledger s else (ledger s).kept u)
      ∧ marked s' = marked s
  commits : ∀ {s s' : σ} {t : τ} {done : List δ} {answer : Except Error Unit}, sound s →
    (ledger s).work t = some ⟨none, done⟩ → (Exchange.commit t answer).Takes store s s' →
    (marked s t = true → ledger s' = ledger s
      ∧ (answer = .error .unexpectedRollback
        ∨ ∃ refusal s₁, answer = .error refusal
          ∧ (Exchange.rollback t (.error refusal)).Takes store s s₁))
    ∧ (marked s t = false → ledger s' = (ledger s).closed t answer)

/-- Statements in a transaction are entered one after the other. -/
theorem Refusing.runs_all {store : Store σ τ} (m : Refusing store δ) {s s' : σ} {t : τ} {w : Work τ δ}
    {calls : List (Exchange τ)} (sound : m.sound s) (opened : (m.ledger s).work t = some w)
    (statements : ∀ call ∈ calls, call.StatementIn t) (reaches : Reaches store s calls s') :
    m.sound s' ∧ m.ledger s' = (m.ledger s).added t (calls.flatMap (Exchange.done m.write))
      ∧ m.marked s' = m.marked s :=
  added_of_statements m.runs sound opened statements reaches

end TypedStore
