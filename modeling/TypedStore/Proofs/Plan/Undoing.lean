/-
What a plan that failed in a savepoint leaves in the transaction of the caller. Its statements are undone
only if the store does it: where the rollback to the savepoint is refused they stay in the transaction,
and so they do where every step succeeded and the release is refused. The caller learns of the failure
and of nothing else, as the transaction is not marked, and a later commit makes durable what is left.
The calls of such a plan (`NestedFailure`) tell what that is, on every store that refuses (`Refusing`).
-/
import TypedStore.Proofs.Plan.Propagation
import TypedStore.Proofs.Server.Refusals

set_option autoImplicit false

namespace TypedStore

variable {σ τ δ : Type}

/-! ## 1. Failures in a savepoint -/

/-- How a plan fails in a savepoint of a transaction: its calls, its failure, and the statements that it
leaves in the transaction. A plan that fails at a step fails with that step, whatever its rollback
answers. -/
inductive NestedFailure (write : Query → δ) (r : Registry) (ds : Declarations) (t : τ) (p : Plan) :
    List (Exchange τ) → Error → List δ → Prop where
  | unopened (e : Error) : NestedFailure write r ds t p [.savepoint t (.error e)] e []
  | undone {u : τ} {statements : List (Exchange τ)} {e : Error}
      (steps : StepsRun r ds u 0 ⟨p.ids, []⟩ .empty p.steps statements (.error e)) :
      NestedFailure write r ds t p
        (.savepoint t (.ok u) :: (statements ++ [.rollback u (.ok ())])) e []
  | notUndone {u : τ} {statements : List (Exchange τ)} {e refusal : Error}
      (steps : StepsRun r ds u 0 ⟨p.ids, []⟩ .empty p.steps statements (.error e)) :
      NestedFailure write r ds t p
        (.savepoint t (.ok u) :: (statements ++ [.rollback u (.error refusal)])) e
        (statements.flatMap (Exchange.done write))
  | notReleased {u : τ} {statements : List (Exchange τ)} {result : PlanResult} {e : Error}
      (steps : StepsRun r ds u 0 ⟨p.ids, []⟩ .empty p.steps statements (.ok result)) :
      NestedFailure write r ds t p
        (.savepoint t (.ok u) :: (statements ++ [.commit u (.error e)])) e
        (statements.flatMap (Exchange.done write))

namespace Refusing

variable [DecidableEq τ] {store : Store σ τ} (m : Refusing store δ)

/-- What a caller may hope for when a plan failed in a savepoint of its transaction: none of the plan's
statements is pending there, or the transaction is marked rollback-only. -/
def Spares (t : τ) (s s' : σ) : Prop :=
  (m.ledger s').work t = (m.ledger s).work t ∨ m.marked s' t = true

/-- A plan that failed in a savepoint left statements in the transaction around it. Nothing of it is
durable yet, and the transaction is marked only if it was before. -/
structure LeftIn (t : τ) (w : Work τ δ) (s s' : σ) (left : List δ) : Prop where
  sound : m.sound s'
  durable : (m.ledger s').durable = (m.ledger s).durable
  pending : (m.ledger s').work t = some { w with done := w.done ++ left }
  marked : m.marked s' t = m.marked s t

/-- How the transaction of a caller ends behind a plan that left statements in it. -/
structure EndsWith (t : τ) (done : List δ) (s s' : σ) (left : List δ) : Prop where
  /-- A transaction that was marked rollback-only is rolled back. -/
  marked : m.marked s t = true → ∀ {answer : Except Error Unit} {s'' : σ},
    (Exchange.commit t answer).Takes store s' s'' →
    (m.ledger s'').durable = (m.ledger s).durable
      ∧ (answer = .error .unexpectedRollback
        ∨ ∃ refusal s₁, answer = .error refusal
          ∧ (Exchange.rollback t (.error refusal)).Takes store s' s₁)
  /-- Every other makes durable what the plan left, unless its commit is refused. -/
  unmarked : m.marked s t = false → ∀ {answer : Except Error Unit} {s'' : σ},
    (Exchange.commit t answer).Takes store s' s'' →
    (m.ledger s'').durable
      = (m.ledger s).durable ++ (if answer.isOk then done ++ left else [])

variable {m} {r : Registry} {ds : Declarations} {p : Plan} {t : τ} {w : Work τ δ}

/-! ## 2. What is left -/

/-- Where nothing has changed but events and marks of other transactions, nothing is left. -/
theorem LeftIn.of_same {s s' : σ} (known : (m.ledger s).work t = some w) (sound : m.sound s')
    (same : m.ledger s' = m.ledger s) (flag : m.marked s' t = m.marked s t) :
    m.LeftIn t w s s' [] :=
  ⟨sound, by rw [same], by rw [same, known, List.append_nil], flag⟩

/-- Statements that ran in a savepoint of a transaction. -/
structure RanIn (m : Refusing store δ) (t u : τ) (s s' : σ) (sent : List δ) : Prop where
  sound : m.sound s'
  apart : t ≠ u
  entered : m.ledger s' = ((m.ledger s).opened u (some t)).added u sent
  open_ : (m.ledger s').work u = some ⟨some t, sent⟩
  unmarked : m.marked s' u = false
  marked : m.marked s' t = m.marked s t

/-- A savepoint that has been opened, behind the statements that ran in it. -/
theorem RanIn.of_opened {s s₁ s' : σ} {u : τ} {statements : List (Exchange τ)}
    (known : (m.ledger s).work t = some w) (sound₁ : m.sound s₁)
    (opens : Opens (m.ledger s) (m.ledger s₁) (m.marked s) (m.marked s₁) (some t) (.ok u))
    (runs : ∀ call ∈ statements, call.StatementIn u) (reaches : Reaches store s₁ statements s') :
    m.RanIn t u s s' (statements.flatMap (Exchange.done m.write)) := by
  obtain ⟨fresh, opened, flags₁⟩ := opens
  -- the savepoint is another transaction than the one around it
  have apart : t ≠ u := by
    rintro rfl
    rw [fresh] at known
    cases known
  obtain ⟨sound', entered, flags⟩ :=
    m.runs_all sound₁ (opened ▸ Ledger.work_opened (some t)) runs reaches
  rw [opened] at entered
  refine ⟨sound', apart, entered, ?_, ?_, ?_⟩
  · rw [entered, Ledger.work_added (Ledger.work_opened (some t)), List.nil_append]
  · rw [flags, flags₁, Function.update_self]
  · rw [flags, flags₁, Function.update_of_ne apart]

/-- Nothing is left of a savepoint that was rolled back to. -/
theorem RanIn.undone {s s₁ s' : σ} {u : τ} {sent : List δ} (ran : m.RanIn t u s s₁ sent)
    (known : (m.ledger s).work t = some w) (sound : m.sound s')
    (same : m.ledger s' = m.ledger s₁) (flags : m.marked s' = m.marked s₁) :
    m.LeftIn t w s s' [] := by
  obtain ⟨durable, pending⟩ : (m.ledger s₁).durable = (m.ledger s).durable
      ∧ (m.ledger s₁).work t = (m.ledger s).work t := by
    rw [ran.entered]
    exact Ledger.opened_added ran.apart
  exact ⟨sound, by rw [same, durable], by rw [same, pending, known, List.append_nil],
    by rw [flags, ran.marked]⟩

/-- All of a savepoint is left that is handed on to the transaction around it. -/
theorem RanIn.kept {s s₁ s' : σ} {u : τ} {sent : List δ} (ran : m.RanIn t u s s₁ sent)
    (known : (m.ledger s).work t = some w) (sound : m.sound s')
    (kept : m.ledger s' = (m.ledger s₁).kept u) (flags : m.marked s' = m.marked s₁) :
    m.LeftIn t w s s' sent := by
  rw [ran.entered] at kept
  obtain ⟨durable, pending⟩ := kept ▸ Ledger.opened_kept_savepoint ran.apart known
  exact ⟨sound, durable, pending, by rw [flags, ran.marked]⟩

/-- The calls of a plan that failed in a savepoint say what it left. -/
theorem leftIn_of_nested {j j' : Journal σ} {e : Error} (sound : m.sound j.state)
    (known : (m.ledger j.state).work t = some w)
    (failed : (p.nested store t r ds).perform j = (.error e, j')) :
    ∃ calls left, NestedFailure m.write r ds t p calls e left
      ∧ Reaches store j.state calls j'.state ∧ m.LeftIn t w j.state j'.state left := by
  rcases Action.bind_cases failed with ⟨e', same, refused⟩ | ⟨u, j₁, opened, completes⟩
  · cases same
    have takes : (Exchange.savepoint t (.error e)).Takes store j.state j'.state := ⟨_, _, refused⟩
    obtain ⟨sound', same, flags⟩ := m.savepoints sound known takes
    exact ⟨_, _, .unopened e, .call takes .none, .of_same known sound' same (by rw [flags])⟩
  · have takes : (Exchange.savepoint t (.ok u)).Takes store j.state j₁.state := ⟨_, _, opened⟩
    obtain ⟨sound₁, opens⟩ := m.savepoints sound known takes
    obtain ⟨calls, reaches, execution⟩ := (Follows.of_complete u u r ds p).of_performed completes
    cases execution with
    | @notCommitted _ statements result e steps =>
      obtain ⟨s₂, first, releases⟩ := reaches.of_concat
      have ran := RanIn.of_opened known sound₁ opens steps.statementIn first
      obtain ⟨sound', kept, flags⟩ := m.releases ran.sound ran.open_ ran.unmarked releases
      exact ⟨_, _, .notReleased steps, .call takes reaches, ran.kept known sound' kept flags⟩
    | @rolledBack _ statements index e answer steps =>
      obtain ⟨s₂, first, rolls⟩ := reaches.of_concat
      have ran := RanIn.of_opened known sound₁ opens steps.statementIn first
      obtain ⟨sound', left, flags⟩ := m.undoes ran.sound ran.open_ rolls
      cases answer with
      | ok accepted =>
        exact ⟨_, _, .undone steps, .call takes reaches, ran.undone known sound' left flags⟩
      | error refusal =>
        exact ⟨_, _, .notUndone steps, .call takes reaches, ran.kept known sound' left flags⟩

/-! ## 3. What the caller is told -/

/-- The caller is spared where nothing is left, and where its transaction had been marked before. -/
theorem LeftIn.spares_iff {s s' : σ} {left : List δ} (leftIn : m.LeftIn t w s s' left)
    (known : (m.ledger s).work t = some w) :
    m.Spares t s s' ↔ left = [] ∨ m.marked s t = true := by
  obtain ⟨parent?, done⟩ := w
  rw [Spares, leftIn.pending, leftIn.marked, known]
  simp

/-- An outermost transaction ends with what is left in it. -/
theorem LeftIn.endsWith {s s' : σ} {done left : List δ} (leftIn : m.LeftIn t ⟨none, done⟩ s s' left) :
    m.EndsWith t done s s' left := by
  constructor
  · intro marked answer s'' commits
    obtain ⟨same, fails⟩ := (m.commits leftIn.sound leftIn.pending commits).1
      (leftIn.marked.trans marked)
    exact ⟨by rw [same, leftIn.durable], fails⟩
  · intro unmarked answer s'' commits
    have closed := (m.commits leftIn.sound leftIn.pending commits).2 (leftIn.marked.trans unmarked)
    rw [closed]
    cases answer with
    | ok accepted =>
      show ((m.ledger s').kept t).durable = (m.ledger s).durable ++ (done ++ left)
      rw [Ledger.kept_of_alone leftIn.pending, leftIn.durable]
    | error refusal =>
      show (m.ledger s').durable = (m.ledger s).durable ++ []
      rw [leftIn.durable, List.append_nil]

end Refusing

/-- **A plan that failed in a savepoint may stay.** Let a plan fail in a savepoint of a transaction of the
caller: at any of its steps, at its release, or as there is no savepoint. What it leaves in the
transaction is nothing where the store undoes it, and all that it carried out where the store refuses
the rollback or the release; nothing tells the transaction. So the caller is spared just where nothing
is left or the transaction had been marked rollback-only before. A marked transaction makes nothing
durable, and in every other the statements that are left become durable with it. -/
theorem nested_spares_iff [DecidableEq τ] {store : Store σ τ} (m : Refusing store δ) {r : Registry}
    {ds : Declarations} {p : Plan} {t : τ} {w : Work τ δ} {j j' : Journal σ} {e : Error}
    (sound : m.sound j.state) (known : (m.ledger j.state).work t = some w)
    (failed : (p.executeWithin store t r ds .nested).perform j = (.error e, j')) :
    ∃ calls left, NestedFailure m.write r ds t p calls e left
      ∧ Reaches store j.state calls j'.state
      ∧ m.LeftIn t w j.state j'.state left
      ∧ (m.Spares t j.state j'.state ↔ left = [] ∨ m.marked j.state t = true)
      ∧ (w.parent? = none → m.EndsWith t w.done j.state j'.state left) := by
  obtain ⟨calls, left, failure, reaches, leftIn⟩ := Refusing.leftIn_of_nested sound known failed
  refine ⟨calls, left, failure, reaches, leftIn, leftIn.spares_iff known, ?_⟩
  obtain ⟨parent?, done⟩ := w
  rintro rfl
  exact leftIn.endsWith

namespace FullLog

/-- A server that refuses to end savepoints and rejects what is inserted into the log, with one client. -/
def server : Server.ServerState :=
  (Server.ServerState.start
    ⟨"/run", [⟨"INSERT INTO log", { Server.PeerAnswer.nothing with ending := .rejected }⟩],
      ["rollback to savepoint", "release"], false⟩ ⟨none, none, none, none⟩).connected.2

/-- The server with the calls that are made of it. -/
abbrev State := Server.ServerState × List (Exchange Server.ServerHandle)

/-- Its store. -/
def store : Store State Server.ServerHandle :=
  (Server.store "postgres://reader@%2Frun/library").recording

/-- What is pending there. -/
def refusing : Refusing store Query := Server.refusing "postgres://reader@%2Frun/library"

/-- The client has begun a transaction. -/
def begun : Journal State :=
  ((store.begin (.connection 0)).perform ⟨(server, []), []⟩).2

/-- A plan that executes statements, in a savepoint of the transaction. -/
def nesting (sqls : List String) : Action State PlanResult :=
  (Plan.mk (sqls.zipIdx.map fun (sql, index) => ⟨⟨index⟩, sql, .empty, .execute⟩)).executeWithin
    store (.transaction 0) .empty [] .nested

/-- Statements of which the server rejects the second. -/
def bookAndLog : List String := ["INSERT INTO book VALUES (1)", "INSERT INTO log VALUES (1)"]

theorem sound_begun : refusing.sound begun.state
    ∧ (refusing.ledger begun.state).work (.transaction 0) = some ⟨none, []⟩ := by
  have connected : refusing.sound (server, []) := Server.entered_connected (by decide)
  have ready : refusing.ready (server, []) (.connection 0) := ⟨0, rfl, Nat.zero_lt_one⟩
  have begins : (Exchange.begin (.connection 0) (.ok (.transaction 0))).Takes store (server, [])
      begun.state := ⟨[], _, rfl⟩
  obtain ⟨sound, -, opened, -⟩ := refusing.begins connected ready begins
  exact ⟨sound, by rw [opened, Ledger.work_opened]⟩

/-- On that server a plan leaves its first statement when it fails at the second. -/
theorem nested_spares_iff_bookAndLog :
    ∃ e j' calls left, (nesting bookAndLog).perform begun = (.error e, j')
      ∧ Reaches store begun.state calls j'.state
      ∧ left.map Query.sql = ["INSERT INTO book VALUES (1)"]
      ∧ ¬ refusing.Spares (.transaction 0) begun.state j'.state
      ∧ refusing.EndsWith (.transaction 0) [] begun.state j'.state left := by
  obtain ⟨sound, known⟩ := sound_begun
  rcases performed : (nesting bookAndLog).perform begun with ⟨e | result, j'⟩
  · obtain ⟨calls, left, -, reaches, leftIn, spares, ends⟩ :=
      nested_spares_iff refusing sound known performed
    have waits : ((refusing.ledger ((nesting bookAndLog).perform begun).2.state).work
        (.transaction 0)).map (·.done.map Query.sql) = some ["INSERT INTO book VALUES (1)"] := by
      decide +kernel
    rw [performed, leftIn.pending] at waits
    have left_eq : left.map Query.sql = ["INSERT INTO book VALUES (1)"] := Option.some.inj waits
    refine ⟨e, j', calls, left, rfl, reaches, left_eq, ?_, ends rfl⟩
    rw [spares]
    rintro (rfl | marked)
    · cases left_eq
    · have unmarked : refusing.marked begun.state (.transaction 0) = false := by decide +kernel
      rw [unmarked] at marked
      cases marked
  · have failed : ((nesting bookAndLog).perform begun).1.isOk = false := by decide +kernel
    rw [performed] at failed
    cases failed

/-- The caller behind a plan in a savepoint. -/
def behind (sqls : List String) : Except Error PlanResult × Journal State :=
  (nesting sqls).perform begun

/-- The caller behind the commit of its transaction. -/
def ended (sqls : List String) : Except Error Unit × Journal State :=
  (store.commit (.transaction 0)).perform (behind sqls).2

/-- A plan that failed and yet becomes durable with its first statement, as the transaction of the caller
has it pending, is not marked, and commits. -/
structure Survives (sqls : List String) : Prop where
  failed : (behind sqls).1.isOk = false
  notSpared : ¬ refusing.Spares (.transaction 0) begun.state (behind sqls).2.state
  committed : (ended sqls).1.isOk = true
  durable : (refusing.ledger (ended sqls).2.state).durable.map Query.sql
    = ["INSERT INTO book VALUES (1)"]

theorem not_spares_of_pending {sqls left : List String}
    (pending : ((refusing.ledger (behind sqls).2.state).work (.transaction 0)).map
      (·.done.map Query.sql) = some left) (some_ : left ≠ [])
    (unmarked : refusing.marked (behind sqls).2.state (.transaction 0) = false) :
    ¬ refusing.Spares (.transaction 0) begun.state (behind sqls).2.state := by
  rintro (same | marked)
  · -- nothing was pending before
    rw [same, sound_begun.2] at pending
    exact some_ (Option.some.inj pending).symm
  · rw [unmarked] at marked
    cases marked

/-- The caller is not spared where a plan fails at its second statement and cannot be undone, and where it
fails as it cannot be released. -/
theorem nested_spares_fails : Survives bookAndLog ∧ Survives ["INSERT INTO book VALUES (1)"] := by
  have left : ["INSERT INTO book VALUES (1)"] ≠ [] := List.cons_ne_nil _ _
  constructor
  · refine ⟨by decide +kernel, ?_, by decide +kernel, by decide +kernel⟩
    exact not_spares_of_pending (by decide +kernel) left (by decide +kernel)
  · refine ⟨by decide +kernel, ?_, by decide +kernel, by decide +kernel⟩
    exact not_spares_of_pending (by decide +kernel) left (by decide +kernel)

end FullLog

end TypedStore
