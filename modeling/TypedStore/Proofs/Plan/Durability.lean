/-
What is durable after a plan. A store keeps its transactions when a commit makes durable what was done
since the begin, or nothing when it fails, and when all else leaves what is durable alone
(`Transactional`). On such a store a plan leaves the effects of the statements of all its steps when it
succeeds, and nothing when it fails. The store that answers by rule is one.
-/
import TypedStore.Proofs.Plan.Atomicity
import TypedStore.Scripted.Store

set_option autoImplicit false

namespace TypedStore

variable {σ τ : Type}

/-! ## 1. Statements -/

/-- Whether a call runs a statement. -/
def Exchange.isStatement : Exchange τ → Bool
  | .fetch .. | .execute .. => true
  | _ => false

/-- A call that runs a statement in a transaction. -/
inductive Exchange.StatementIn (t : τ) : Exchange τ → Prop where
  | fetch {q : Query} {answer : Except Error RowStream} : StatementIn t (.fetch t q answer)
  | execute {q : Query} {answer : Except Error UInt64} : StatementIn t (.execute t q answer)

theorem Exchange.StatementIn.isStatement {t : τ} {call : Exchange τ} (h : call.StatementIn t) :
    call.isStatement = true := by
  cases h <;> rfl

theorem Answered.statementIn {r : Registry} {t : τ} {q : Query} {strategy : Strategy}
    {call : Exchange τ} {output : Except Error StepOutput}
    (answered : Answered r t q strategy call output) : call.StatementIn t := by
  cases answered with
  | execute answer => exact .execute
  | rows answer | row answer | scalar answer | scalarColumn answer => exact .fetch

theorem StepRun.statementIn {r : Registry} {ds : Declarations} {t : τ} {progress : Progress}
    {s : Step} {calls : List (Exchange τ)} {answer : Except Error (StepOutput × StepResult)}
    (run : StepRun r ds t progress s calls answer) : ∀ call ∈ calls, call.StatementIn t := by
  cases run with
  | unsent refused =>
    intro call h
    exact absurd h List.not_mem_nil
  | sent bound answered =>
    intro call h
    rw [List.mem_singleton.1 h]
    exact answered.statementIn

/-- Between its begin and its end a plan runs statements only. -/
theorem StepsRun.statementIn {r : Registry} {ds : Declarations} {t : τ} {index : Nat}
    {progress : Progress} {result : PlanResult} {steps : List PlannedStep}
    {calls : List (Exchange τ)} {answer : Except Error PlanResult}
    (run : StepsRun r ds t index progress result steps calls answer) :
    ∀ call ∈ calls, call.StatementIn t := by
  induction run with
  | done =>
    intro call h
    exact absurd h List.not_mem_nil
  | failed run => exact run.statementIn
  | next run _ ih =>
    intro call h
    rcases List.mem_append.1 h with h | h
    · exact run.statementIn call h
    · exact ih call h

theorem filter_isStatement {t : τ} {calls : List (Exchange τ)}
    (h : ∀ call ∈ calls, call.StatementIn t) : calls.filter Exchange.isStatement = calls :=
  List.filter_eq_self.2 fun call mem => (h call mem).isStatement

/-! ## 2. Stores that keep transactions -/

/-- What is durable after a commit that was answered: all that was pending, or what was durable
before. -/
def settled {δ : Type} (before pending : δ) : Except Error Unit → δ
  | .ok () => pending
  | .error _ => before

/-- A store that keeps transactions: what is durable, what would be durable if a transaction were
committed, and what a statement does to it. A transaction opened by a begin stays open while statements
run in it. -/
structure Transactional (store : Store σ τ) (δ : Type) where
  durable : σ → δ
  pending : σ → τ → δ
  isOpen : σ → τ → Prop
  /-- What a statement does, given what it answered. -/
  effect : δ → Exchange τ → δ
  begins : ∀ {s s' : σ} {connection : τ} {answer : Except Error τ},
    (Exchange.begin connection answer).Takes store s s' →
      durable s' = durable s ∧ ∀ t, answer = .ok t → isOpen s' t ∧ pending s' t = durable s
  runs : ∀ {s s' : σ} {t : τ} {call : Exchange τ}, isOpen s t → call.StatementIn t →
    call.Takes store s s' →
      isOpen s' t ∧ durable s' = durable s ∧ pending s' t = effect (pending s t) call
  commits : ∀ {s s' : σ} {t : τ} {answer : Except Error Unit}, isOpen s t →
    (Exchange.commit t answer).Takes store s s' →
      durable s' = settled (durable s) (pending s t) answer
  rollsBack : ∀ {s s' : σ} {t : τ} {answer : Except Error Unit}, isOpen s t →
    (Exchange.rollback t answer).Takes store s s' → durable s' = durable s

namespace Transactional

variable {store : Store σ τ} {δ : Type} (m : Transactional store δ)

/-- What is durable after a plan with a result, given the calls it made. -/
def durableAfter {α : Type} (before : δ) (calls : List (Exchange τ)) : Except Error α → δ
  | .ok _ => (calls.filter Exchange.isStatement).foldl m.effect before
  | .error _ => before

/-- Statements in an open transaction change only what it would make durable. -/
theorem runs_all {s s' : σ} {t : τ} {calls : List (Exchange τ)} (opened : m.isOpen s t)
    (statements : ∀ call ∈ calls, call.StatementIn t) (reaches : Reaches store s calls s') :
    m.isOpen s' t ∧ m.durable s' = m.durable s
      ∧ m.pending s' t = calls.foldl m.effect (m.pending s t) := by
  induction reaches with
  | none => exact ⟨opened, rfl, rfl⟩
  | call takes _ ih =>
    obtain ⟨still, same, pending⟩ := m.runs opened (statements _ List.mem_cons_self) takes
    obtain ⟨still', same', pending'⟩ := ih still fun call h =>
      statements call (List.mem_cons_of_mem _ h)
    -- the statement at the front is the first to have its effect
    refine ⟨still', same'.trans same, ?_⟩
    rw [pending', pending, List.foldl_cons]

/-- **All or nothing.** A plan that succeeds makes durable what all its statements did, and one that
fails leaves what is durable as it was. -/
theorem durable_of_execution {r : Registry} {ds : Declarations} {connection : τ} {p : Plan}
    {s s' : σ} {calls : List (Exchange τ)} {answer : Except Error PlanResult}
    (execution : Execution r ds connection p calls answer) (reaches : Reaches store s calls s') :
    m.durable s' = m.durableAfter (m.durable s) calls answer := by
  -- up to the last call all plans that begin are alike
  have begun : ∀ {t : τ} {statements : List (Exchange τ)} {last : Exchange τ}
      {result : Except Error PlanResult},
      StepsRun r ds t 0 ⟨p.ids, []⟩ .empty p.steps statements result →
      Reaches store s (.begin connection (.ok t) :: (statements ++ [last])) s' →
      ∃ s₁, m.isOpen s₁ t ∧ m.durable s₁ = m.durable s
        ∧ m.pending s₁ t = statements.foldl m.effect (m.durable s) ∧ last.Takes store s₁ s' := by
    rintro t statements last result steps (_ | ⟨begins, more⟩)
    obtain ⟨same, opens⟩ := m.begins begins
    obtain ⟨opened, pending⟩ := opens t rfl
    obtain ⟨s₁, runs, ends⟩ := more.of_append
    obtain ⟨still, same', pending'⟩ := m.runs_all opened steps.statementIn runs
    obtain _ | ⟨takes, _ | _⟩ := ends
    exact ⟨s₁, still, same'.trans same, pending ▸ pending', takes⟩
  cases execution with
  | refused =>
    obtain _ | ⟨begins, _ | _⟩ := reaches
    exact (m.begins begins).1
  | @committed t statements result steps =>
    obtain ⟨s₁, opened, same, pending, commits⟩ := begun steps reaches
    -- the begin and the commit run no statement
    have kept : ((Exchange.begin connection (.ok t)) :: (statements ++ [.commit t (.ok ())])).filter
        Exchange.isStatement = statements := by
      rw [List.filter_cons_of_neg Bool.false_ne_true, List.filter_append,
        filter_isStatement steps.statementIn]
      exact List.append_nil statements
    rw [durableAfter, kept, m.commits opened commits, settled, pending]
  | notCommitted steps =>
    obtain ⟨s₁, opened, same, pending, commits⟩ := begun steps reaches
    exact (m.commits opened commits).trans same
  | rolledBack steps =>
    obtain ⟨s₁, opened, same, pending, rollsBack⟩ := begun steps reaches
    exact (m.rollsBack opened rollsBack).trans same

end Transactional

/-! ## 3. Plans -/

/-- **A plan is all or nothing and runs in order.** On every store, whatever it answers, a plan makes
the calls of an execution: one begin, the statements of its steps in order up to the first that fails,
one end. Where the store keeps its transactions, all that the steps did is durable when the plan
succeeds, and nothing when it fails. -/
theorem execute_allOrNothing (store : Store σ τ) (connection : τ) (r : Registry) (ds : Declarations)
    (p : Plan) (s : σ) (log : List LogRecord) :
    ∃ answer s' log' calls,
      (p.execute store connection r ds).perform ⟨s, log⟩ = (answer, ⟨s', log'⟩)
        ∧ (p.execute store.recording connection r ds).perform ⟨(s, []), log⟩
          = (answer, ⟨(s', calls), log'⟩)
        ∧ Execution r ds connection p calls answer
        ∧ ∀ (δ : Type) (m : Transactional store δ),
          m.durable s' = m.durableAfter (m.durable s) calls answer := by
  obtain ⟨answer, s', log', calls, plain, recorded, reaches, execution⟩ :=
    Follows.of_execute store connection r ds p s log []
  exact ⟨answer, s', log', calls, plain, recorded, execution, fun δ m =>
    m.durable_of_execution execution reaches⟩

/-! ## 4. The store that answers by rule -/

namespace Scripted

/-- What is durable once a transaction is committed. A savepoint hands its statements to its parent. -/
def pendingOf (s : ScriptedStore) (t : ScriptedHandle) : List String :=
  if (s.transaction t).parent?.isSome then s.committed else s.committed ++ (s.transaction t).pending

/-- A transaction of its own, not a savepoint. -/
def IsOpen (s : ScriptedStore) : ScriptedHandle → Prop
  | .connection => False
  | .transaction index => ∃ t, s.transactions[index]? = some t ∧ t.parent? = none

/-- Statements that fail are not done. -/
def effect (done : List String) : Exchange ScriptedHandle → List String
  | .fetch _ q (.ok stream) => if stream.failure?.isSome then done else done ++ [q.sql]
  | .execute _ q (.ok _) => done ++ [q.sql]
  | _ => done

theorem pendingOf_of_open {s : ScriptedStore} {index : Nat} {t : ScriptedTransaction}
    (found : s.transactions[index]? = some t) (alone : t.parent? = none) :
    pendingOf s (.transaction index) = s.committed ++ t.pending := by
  have same : s.transaction (.transaction index) = t := by
    rw [ScriptedStore.transaction, found, Option.getD_some]
  rw [pendingOf, same, alone]
  rfl

theorem answer_keeps (s : ScriptedStore) (q : Query) :
    (s.answer q).2.transactions = s.transactions ∧ (s.answer q).2.committed = s.committed := by
  unfold ScriptedStore.answer
  split
  · exact ⟨rfl, rfl⟩
  · split <;> exact ⟨rfl, rfl⟩

theorem runStatement_of_isOpen {s : ScriptedStore} {t : ScriptedHandle} (q : Query)
    (opened : IsOpen s t) :
    IsOpen (s.runStatement t q).2 t ∧ (s.runStatement t q).2.committed = s.committed
      ∧ pendingOf (s.runStatement t q).2 t
        = if ((s.runStatement t q).1.failure? q).isSome then pendingOf s t
          else pendingOf s t ++ [q.sql] := by
  cases t with
  | connection => exact opened.elim
  | transaction index =>
    obtain ⟨t, found, alone⟩ := opened
    obtain ⟨transactions, committed⟩ := answer_keeps (s.see ("run " ++ q.display)) q
    -- seeing and answering leave transactions alone
    have found' : ((s.see ("run " ++ q.display)).answer q).2.transactions[index]? = some t :=
      transactions ▸ found
    unfold ScriptedStore.runStatement
    rcases run : (s.see ("run " ++ q.display)).answer q with ⟨a, s₁⟩
    rw [run] at found' committed
    cases failed : (a.failure? q).isSome with
    | true =>
      simp only [failed, if_true]
      refine ⟨⟨t, found', alone⟩, committed, ?_⟩
      rw [pendingOf_of_open found' alone, pendingOf_of_open found alone, committed]
      rfl
    | false =>
      simp only [failed, Bool.false_eq_true, if_false]
      -- a statement that does not fail is kept by its transaction
      have grown : (s₁.addStatements (some index) [q.sql]).transactions[index]?
          = some { t with pending := t.pending ++ [q.sql] } := by
        show (s₁.transactions.modify index _)[index]? = _
        rw [List.getElem?_modify_eq, found']
        rfl
      refine ⟨⟨_, grown, alone⟩, committed, ?_⟩
      rw [pendingOf_of_open grown alone, pendingOf_of_open found alone, List.append_assoc]
      exact congrArg (· ++ (t.pending ++ [q.sql])) committed

/-- A boundary is seen, and changes nothing else. -/
theorem perform_boundary (event : String) (s : ScriptedStore) (log : List LogRecord) :
    (boundary event).perform ⟨s, log⟩
      = (if s.refused.contains event then .error (.msg (event ++ " refused")) else .ok (),
          ⟨s.see event, log⟩) := by
  show (if (s.see event).refused.contains event then throw (.msg (event ++ " refused"))
    else pure () : Action ScriptedStore Unit).perform ⟨s.see event, log⟩ = _
  show (if s.refused.contains event then throw (.msg (event ++ " refused"))
    else pure () : Action ScriptedStore Unit).perform ⟨s.see event, log⟩ = _
  cases s.refused.contains event <;> rfl

theorem begin_of_takes {s s' : ScriptedStore} {at_ : ScriptedHandle}
    {answer : Except Error ScriptedHandle} (takes : (store.begin at_).Takes s answer s') :
    s'.committed = s.committed
      ∧ ∀ t, answer = .ok t → IsOpen s' t ∧ pendingOf s' t = s.committed := by
  obtain ⟨log, log', run⟩ := takes
  have opening : (store.begin at_).perform ⟨s, log⟩ = (openAt "begin" none).perform ⟨s, log⟩ := rfl
  rw [opening, openAt, Action.perform_bind, perform_boundary] at run
  cases refused : s.refused.contains "begin" with
  | true =>
    rw [refused] at run
    cases run
    refine ⟨rfl, ?_⟩
    intro t same
    cases same
  | false =>
    rw [refused] at run
    cases run
    have found : (s.transactions ++ [⟨none, [], false⟩])[s.transactions.length]?
        = some (⟨none, [], false⟩ : ScriptedTransaction) := List.getElem?_concat_length
    refine ⟨rfl, ?_⟩
    rintro t same
    cases same
    exact ⟨⟨_, found, rfl⟩, (pendingOf_of_open found rfl).trans (List.append_nil _)⟩

theorem runs_of_takes {s s' : ScriptedStore} {t : ScriptedHandle} {call : Exchange ScriptedHandle}
    (opened : IsOpen s t) (statement : call.StatementIn t) (takes : call.Takes store s s') :
    IsOpen s' t ∧ s'.committed = s.committed ∧ pendingOf s' t = effect (pendingOf s t) call := by
  cases statement with
  | @fetch q answer =>
    obtain ⟨log, log', run⟩ := takes
    obtain ⟨rfl, rfl⟩ : answer = .ok ((s.runStatement t q).1.stream q)
        ∧ s' = (s.runStatement t q).2 := by
      cases run
      exact ⟨rfl, rfl⟩
    obtain ⟨still, same, pending⟩ := runStatement_of_isOpen q opened
    have failed : ((s.runStatement t q).1.stream q).failure?.isSome
        = ((s.runStatement t q).1.failure? q).isSome := Option.isSome_map
    refine ⟨still, same, pending.trans ?_⟩
    rw [effect, failed]
  | @execute q answer =>
    obtain ⟨log, log', run⟩ := takes
    have parts : (store.execute t q).perform ⟨s, log⟩
        = (Action.ofExcept ((s.runStatement t q).1.affected q)).perform
          ⟨(s.runStatement t q).2, log⟩ := rfl
    rw [parts] at run
    obtain ⟨still, same, pending⟩ := runStatement_of_isOpen q opened
    unfold ScriptedAnswer.affected at run
    cases failed : (s.runStatement t q).1.failure? q with
    | some e =>
      rw [failed] at run pending
      cases run
      exact ⟨still, same, pending⟩
    | none =>
      rw [failed] at run pending
      cases run
      exact ⟨still, same, pending⟩

theorem commit_of_takes {s s' : ScriptedStore} {t : ScriptedHandle} {answer : Except Error Unit}
    (opened : IsOpen s t) (takes : (store.commit t).Takes s answer s') :
    s'.committed = settled s.committed (pendingOf s t) answer := by
  cases t with
  | connection => exact opened.elim
  | transaction index =>
    obtain ⟨t, found, alone⟩ := opened
    obtain ⟨log, log', run⟩ := takes
    have same : s.transaction (.transaction index) = t := by
      rw [ScriptedStore.transaction, found, Option.getD_some]
    have parts : (store.commit (.transaction index)).perform ⟨s, log⟩
        = (if (s.transaction (.transaction index)).rollbackOnly then do
            Action.change fun s₁ => s₁.see "rollback"
            throw .unexpectedRollback
          else do
            boundary (if (s.transaction (.transaction index)).parent?.isSome
              then "release" else "commit")
            Action.change fun s₁ => s₁.addStatements
              (s.transaction (.transaction index)).parent? (s.transaction (.transaction index)).pending
          : Action ScriptedStore Unit).perform ⟨s, log⟩ := rfl
    rw [parts, same] at run
    -- a transaction that may only be rolled back refuses, and so may the rules
    cases marked : t.rollbackOnly with
    | true =>
      rw [marked] at run
      cases run
      rfl
    | false =>
      rw [marked, if_neg Bool.false_ne_true, Action.perform_bind, perform_boundary, alone] at run
      rw [pendingOf_of_open found alone]
      generalize s.refused.contains _ = refused at run
      cases refused <;> cases run <;> rfl

theorem rollback_of_takes {s s' : ScriptedStore} {t : ScriptedHandle} {answer : Except Error Unit}
    (takes : (store.rollback t).Takes s answer s') : s'.committed = s.committed := by
  obtain ⟨log, log', run⟩ := takes
  have parts : (store.rollback t).perform ⟨s, log⟩ = (boundary (if (s.transaction t).parent?.isSome
      then "rollback to savepoint" else "rollback")).perform ⟨s, log⟩ := rfl
  rw [parts, perform_boundary] at run
  cases run
  rfl

/-- The store that answers by rule keeps its transactions: what is durable are the texts of the
statements that did not fail. -/
def transactional : Transactional store (List String) where
  durable s := s.committed
  pending := pendingOf
  isOpen := IsOpen
  effect := effect
  begins := begin_of_takes
  runs := runs_of_takes
  commits := commit_of_takes
  rollsBack _ := rollback_of_takes

end Scripted

/-- A store by rule that rejects what begins with DELETE. -/
def rejectingDeletes : ScriptedStore where
  tape := []
  rules := [⟨"DELETE", ⟨[], none, some "not here", none⟩⟩]
  refused := []
  catalog := .empty
  events := []
  committed := []
  transactions := []

/-- A plan that inserts, and then executes another statement. -/
def insertingThen (sql : String) : Plan :=
  ⟨[⟨⟨0⟩, "INSERT 1", .empty, .execute⟩, ⟨⟨1⟩, sql, .empty, .execute⟩]⟩

/-- Rehearsing a plan on the store that answers by rule leaves the texts of all its statements behind, or
none where one of them is rejected. -/
theorem execute_allOrNothing_rehearsed :
    (∃ result s' log' calls,
      ((insertingThen "INSERT 2").execute Scripted.store .connection .empty []).perform
          ⟨rejectingDeletes, []⟩ = (.ok result, ⟨s', log'⟩)
        ∧ Execution .empty [] .connection (insertingThen "INSERT 2") calls (.ok result)
        ∧ (calls.filter Exchange.isStatement).foldl Scripted.effect [] = ["INSERT 1", "INSERT 2"])
      ∧ ∃ e s' log' calls,
        ((insertingThen "DELETE 1").execute Scripted.store .connection .empty []).perform
            ⟨rejectingDeletes, []⟩ = (.error e, ⟨s', log'⟩)
          ∧ Execution .empty [] ScriptedHandle.connection (insertingThen "DELETE 1") calls (.error e)
          ∧ s'.committed = [] := by
  constructor
  · obtain ⟨answer, s', log', calls, plain, -, execution, durable⟩ := execute_allOrNothing
      Scripted.store .connection .empty [] (insertingThen "INSERT 2") rejectingDeletes []
    have left := durable _ Scripted.transactional
    have committed : (((insertingThen "INSERT 2").execute Scripted.store .connection .empty []).perform
        ⟨rejectingDeletes, []⟩).2.state.committed = ["INSERT 1", "INSERT 2"] := by decide +kernel
    rw [plain] at committed
    cases answer with
    | ok result => exact ⟨result, s', log', calls, plain, execution, left.symm.trans committed⟩
    | error e =>
      -- a plan that fails leaves what was there before
      cases left.symm.trans committed
  · obtain ⟨answer, s', log', calls, plain, -, execution, durable⟩ := execute_allOrNothing
      Scripted.store .connection .empty [] (insertingThen "DELETE 1") rejectingDeletes []
    have failed : (((insertingThen "DELETE 1").execute Scripted.store .connection .empty []).perform
        ⟨rejectingDeletes, []⟩).1.isOk = false := by decide +kernel
    rw [plain] at failed
    cases answer with
    | ok result => cases failed
    | error e => exact ⟨e, s', log', calls, plain, execution, durable _ Scripted.transactional⟩

end TypedStore
