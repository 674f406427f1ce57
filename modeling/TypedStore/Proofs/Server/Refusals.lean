/-
What a server has pending when it refuses boundaries. The ledger is again that of the calls that were
made, but a savepoint whose end was refused is entered as what it is for the server: still there, with
its statements in the transaction around it. Whatever boundaries a server refuses, its store is then
what `Refusing` asks for, as long as it ends no connection.
-/
import TypedStore.Proofs.Plan.Refusals
import TypedStore.Proofs.Server.Duty

set_option autoImplicit false

namespace TypedStore

/-! ## 1. Ledgers of what was called -/

section Replay

variable {τ δ : Type} [DecidableEq τ]

/-- A ledger after a call of a store that may refuse it. Only a transaction that is marked answers that
it was rolled back. -/
def Ledger.afterRefusable (write : Query → δ) (l : Ledger τ δ) : Exchange τ → Ledger τ δ
  | .commit _ (.error .unexpectedRollback) => l
  | .commit t (.error _) => l.stranded t
  | .rollback t (.error _) => l.stranded t
  | call => l.after write call

/-- The ledger of calls from the beginning, of a store that may refuse them. -/
def Ledger.pending (write : Query → δ) (calls : List (Exchange τ)) : Ledger τ δ :=
  calls.foldl (Ledger.afterRefusable write) ⟨[], fun _ => none⟩

theorem Ledger.pending_concat (write : Query → δ) (calls : List (Exchange τ)) (call : Exchange τ) :
    Ledger.pending write (calls ++ [call]) = (Ledger.pending write calls).afterRefusable write call := by
  simp [pending]

/-- Whatever a commit fails with, an outermost transaction hands on nothing. -/
theorem Ledger.afterRefusable_of_alone (write : Query → δ) {l : Ledger τ δ} {t : τ} {done : List δ}
    (known : l.work t = some ⟨none, done⟩) (e : Error) :
    l.afterRefusable write (.commit t (.error e)) = l := by
  cases e with
  | unexpectedRollback => rfl
  | _ => exact Ledger.stranded_of_alone known

end Replay

namespace Server

/-! ## 2. States -/

/-- A server's store with the calls that were made of it. The server ends no connection, and what is in
the ledger was opened. -/
structure Entered (x : ServerState × List (Exchange ServerHandle)) : Prop where
  works : Works x.1
  covers : Covers x.1 (Ledger.pending id x.2)

/-- A server that ends no connection, once its first client has connected. -/
theorem entered_connected {peer : Peer} {defaults : EncryptionDefaults}
    (steady : ∀ rule ∈ peer.rules, rule.answer.ending ≠ .severed) :
    Entered ((ServerState.start peer defaults).connected.2, []) where
  works := works_connected ⟨steady, nofun, nofun⟩
  covers := nofun

/-! ## 3. Calls -/

/-- What the end of a transaction is refused with is not that a marked one was rolled back. The transaction
is stranded then. -/
theorem afterRefusable_of_end (l : Ledger ServerHandle Query) (s : ServerState) {t : ServerHandle}
    {entry : Except Error Unit → Exchange ServerHandle} (ends : entry = .commit t ∨ entry = .rollback t)
    (event failure : String) :
    l.afterRefusable id (entry (answerTo s event failure))
      = if s.peer.refused.contains event then l.stranded t else l.after id (entry (.ok ())) := by
  unfold answerTo
  rcases ends with rfl | rfl <;> split <;> rfl

namespace Entered

variable {address : String} {s s' : ServerState} {calls calls' : List (Exchange ServerHandle)}
  {t u : ServerHandle} {w : Work ServerHandle Query} {done : List Query} {call : Exchange ServerHandle}

/-- A call after which the server works and the ledger is covered keeps everything sound. -/
theorem of_call (works : Works s)
    (covers : Covers s ((Ledger.pending id calls).afterRefusable id call)) :
    Entered (s, calls ++ [call]) where
  works := works
  covers := by
    rw [Ledger.pending_concat]
    exact covers

/-- A call that only adds events, where it enters no other transaction. -/
theorem of_see (entered : Entered (s, calls)) (call : Exchange ServerHandle) (events : List String)
    {l : Ledger ServerHandle Query} (after : (Ledger.pending id calls).afterRefusable id call = l)
    (same : ∀ u, (l.work u).isSome → ((Ledger.pending id calls).work u).isSome) :
    Entered (s.see events, calls ++ [call]) ∧ Ledger.pending id (calls ++ [call]) = l
      ∧ markedIn (s.see events) = markedIn s := by
  subst after
  exact ⟨.of_call (entered.works.see events) (entered.covers.of_known (Nat.le_refl _) same),
    Ledger.pending_concat .., markedIn_see s events⟩

/-- A call that opens a transaction or a savepoint, or is refused. -/
theorem of_opening {entry : Except Error ServerHandle → Exchange ServerHandle} {event : String}
    {isSavepoint : Bool} {parent? : Option ServerHandle} {answer : Except Error ServerHandle}
    (entered : Entered (s, calls)) (known : Known s t)
    (failed : ∀ e, (Ledger.pending id calls).afterRefusable id (entry (.error e))
      = Ledger.pending id calls)
    (after : ∀ u, (Ledger.pending id calls).afterRefusable id (entry (.ok u))
      = (Ledger.pending id calls).opened u parent?)
    (opening : Opening s t event isSavepoint answer s') :
    Entered (s', calls ++ [entry answer])
      ∧ Opens (Ledger.pending id calls) (Ledger.pending id (calls ++ [entry answer])) (markedIn s)
        (markedIn s') parent? answer := by
  cases opening with
  | @refused e events _ => exact entered.of_see _ events (failed e) fun _ => id
  | opened =>
    obtain ⟨works, covers, fresh, flags⟩ :=
      entered.covers.opens entered.works known event isSavepoint parent?
    refine ⟨.of_call works ?_, fresh, ?_, flags⟩
    · rwa [after]
    · rw [Ledger.pending_concat, after]

theorem begins {c : ServerHandle} {answer : Except Error ServerHandle} (entered : Entered (s, calls))
    (connected : Connected s c)
    (takes : (Exchange.begin c answer).Takes (store address).recording (s, calls) (s', calls')) :
    Entered (s', calls') ∧ Opens (Ledger.pending id calls) (Ledger.pending id calls') (markedIn s)
      (markedIn s') none answer := by
  obtain ⟨takes, rfl⟩ := Action.takes_of_recorded takes
  have opening := takes_beginOn entered.works connected.known takes
  exact entered.of_opening connected.known (fun _ => rfl) (fun _ => rfl) opening

theorem savepoints {answer : Except Error ServerHandle} (entered : Entered (s, calls))
    (open_ : (Ledger.pending id calls).work t = some w)
    (takes : (Exchange.savepoint t answer).Takes (store address).recording (s, calls) (s', calls')) :
    Entered (s', calls') ∧ Opens (Ledger.pending id calls) (Ledger.pending id calls') (markedIn s)
      (markedIn s') (some t) answer := by
  obtain ⟨takes, rfl⟩ := Action.takes_of_recorded takes
  have known := entered.covers.known open_
  have opening := takes_savepoint entered.works known takes
  exact entered.of_opening known (fun _ => rfl) (fun _ => rfl) opening

theorem runs (entered : Entered (s, calls)) (statement : call.StatementIn t)
    (takes : call.Takes (store address).recording (s, calls) (s', calls')) :
    Entered (s', calls')
      ∧ Ledger.pending id calls' = (Ledger.pending id calls).added t (call.done id)
      ∧ markedIn s' = markedIn s := by
  obtain ⟨⟨events, rfl⟩, rfl⟩ := takes_recordedStatement entered.works statement takes
  refine entered.of_see call events ?_ fun u => Ledger.known_added.1
  cases statement <;> rfl

/-- Released or not, the statements of a savepoint are in the transaction around it. -/
theorem releases {answer : Except Error Unit} (entered : Entered (s, calls))
    (open_ : (Ledger.pending id calls).work u = some ⟨some t, done⟩) (unmarked : markedIn s u = false)
    (takes : (Exchange.commit u answer).Takes (store address).recording (s, calls) (s', calls')) :
    Entered (s', calls') ∧ Ledger.pending id calls' = (Ledger.pending id calls).kept u
      ∧ markedIn s' = markedIn s := by
  obtain ⟨takes, rfl⟩ := Action.takes_of_recorded takes
  obtain ⟨-, released⟩ := takes_commit entered.works (entered.covers.known open_) takes
  obtain ⟨rfl, rfl⟩ := released unmarked
  refine entered.of_see _ _ ?_ fun _ => Ledger.known_kept.1
  rw [afterRefusable_of_end _ _ (.inl rfl), Ledger.stranded_of_savepoint open_]
  exact ite_self _

theorem undoes {answer : Except Error Unit} (entered : Entered (s, calls))
    (open_ : (Ledger.pending id calls).work u = some ⟨some t, done⟩)
    (takes : (Exchange.rollback u answer).Takes (store address).recording (s, calls) (s', calls')) :
    Entered (s', calls')
      ∧ Ledger.pending id calls'
        = (if answer.isOk then Ledger.pending id calls else (Ledger.pending id calls).kept u)
      ∧ markedIn s' = markedIn s := by
  obtain ⟨takes, rfl⟩ := Action.takes_of_recorded takes
  obtain ⟨rfl, rfl⟩ := takes_rollback entered.works (entered.covers.known open_) takes
  refine entered.of_see _ _ ?_ fun v => ?_
  · rw [afterRefusable_of_end _ _ (.inr rfl), Ledger.stranded_of_savepoint open_, answerTo]
    split <;> rfl
  · split
    · exact id
    · exact Ledger.known_kept.1

/-- A commit of a marked transaction is a rollback of it, which may be refused in its turn. -/
theorem commits {answer : Except Error Unit} (entered : Entered (s, calls))
    (open_ : (Ledger.pending id calls).work t = some ⟨none, done⟩)
    (takes : (Exchange.commit t answer).Takes (store address).recording (s, calls) (s', calls')) :
    (markedIn s t = true → Ledger.pending id calls' = Ledger.pending id calls
        ∧ (answer = .error .unexpectedRollback
          ∨ ∃ refusal x, answer = .error refusal
            ∧ (Exchange.rollback t (.error refusal)).Takes (store address).recording (s, calls) x))
      ∧ (markedIn s t = false
        → Ledger.pending id calls' = (Ledger.pending id calls).closed t answer) := by
  obtain ⟨takes, rfl⟩ := Action.takes_of_recorded takes
  have known := entered.covers.known open_
  obtain ⟨rolled, committed⟩ := takes_commit entered.works known takes
  refine ⟨fun marked => ?_, fun unmarked => ?_⟩
  · obtain ⟨rfl, rfl⟩ := rolled marked
    have rolls := Action.perform_recorded (.rollback t) (perform_rollback entered.works known [])
      calls
    rw [Ledger.pending_concat]
    cases refused : answerTo s (rollbackEvent (s.transaction t))
        "While rolling back a transaction" with
    | ok accepted => exact ⟨rfl, .inl rfl⟩
    | error refusal =>
      rw [refused] at rolls
      exact ⟨Ledger.afterRefusable_of_alone id open_ refusal,
        .inr ⟨refusal, _, rfl, _, _, rolls⟩⟩
  · obtain ⟨rfl, rfl⟩ := committed unmarked
    rw [Ledger.pending_concat, afterRefusable_of_end _ _ (.inl rfl), Ledger.stranded_of_alone open_,
      answerTo]
    split <;> rfl

end Entered

/-! ## 4. The store -/

/-- Whatever boundaries a server refuses, its store does what a store that refuses them does, where the
server ends no connection. -/
def refusing (address : String) : Refusing (store address).recording Query where
  write := id
  ledger x := Ledger.pending id x.2
  marked x := markedIn x.1
  sound := Entered
  ready x := Connected x.1
  begins := Entered.begins
  savepoints := Entered.savepoints
  runs entered _ := Entered.runs entered
  releases := Entered.releases
  undoes := Entered.undoes
  commits := Entered.commits

end Server

end TypedStore
