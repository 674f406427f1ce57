/-
What becomes durable of plans that run within a transaction of the caller. A plan in a transaction of
its own is durable as soon as it succeeded; one that joins the transaction or nests in it is entered
with the work of the transaction (`Standing`), which is durable only when the caller commits; and a plan
that joins and fails dooms the transaction, for good. One plan is a step of an account of all plans
(`Dutiful.standing_of_executeWithin`), and any number of them is an induction.
-/
import TypedStore.Proofs.Scripted.Duty
import TypedStore.Proofs.Server.Duty

set_option autoImplicit false

namespace TypedStore

variable {σ τ δ : Type}

/-! ## 1. Plans that ran -/

/-- The statements that an execution of a plan carried out, with its answer: those of its steps up to
the first that failed, or none where no connection was handed out. -/
inductive Plan.Sends (write : Query → δ) (r : Registry) (ds : Declarations) (p : Plan) :
    List δ → Except Error PlanResult → Prop where
  | ran {τ : Type} {t : τ} {calls : List (Exchange τ)} {answer : Except Error PlanResult}
      (steps : StepsRun r ds t 0 ⟨p.ids, []⟩ .empty p.steps calls answer) :
      Sends write r ds p (calls.flatMap (Exchange.done write)) answer
  | refused (e : Error) : Sends write r ds p [] (.error e)

/-- A plan that ran within a transaction of the caller: how, what it carried out, and its answer. -/
structure Ran (δ : Type) where
  plan : Plan
  how : Propagation
  sent : List δ
  answer : Except Error PlanResult

namespace Ran

/-- What is durable at once: the statements of a plan that succeeded in a transaction of its own. -/
def apart : Ran δ → List δ
  | ⟨_, .requiresNew, sent, .ok _⟩ => sent
  | _ => []

/-- What waits for the end of the caller's transaction: the statements of a plan that succeeded in it. -/
def within : Ran δ → List δ
  | ⟨_, .required, sent, .ok _⟩ | ⟨_, .nested, sent, .ok _⟩ => sent
  | _ => []

/-- Whether the plan dooms the caller's transaction: it joined it and failed. -/
def dooms : Ran δ → Bool
  | ⟨_, .required, _, .error _⟩ => true
  | _ => false

end Ran

/-- Runs plans within a transaction, one after the other, whatever they answer. -/
def answersWithin (store : Store σ τ) (t : τ) (r : Registry) (ds : Declarations) :
    List (Plan × Propagation) → Action σ (List (Except Error PlanResult))
  | [] => pure []
  | (p, how) :: rest => do
    let answer ← (p.executeWithin store t r ds how).attempt
    let others ← answersWithin store t r ds rest
    pure (answer :: others)

/-! ## 2. A plan in a transaction of its own or a savepoint -/

theorem Follows.of_performed {store : Store σ τ} {α : Type} {act : Action σ α}
    {act' : Action (σ × List (Exchange τ)) α} {post : List (Exchange τ) → Except Error α → Prop}
    (follows : Follows store act act' post) {j j' : Journal σ} {answer : Except Error α}
    (performed : act.perform j = (answer, j')) :
    ∃ calls, Reaches store j.state calls j'.state ∧ post calls answer := by
  obtain ⟨answer', s', log', calls, plain, -, reaches, holds⟩ := follows j.state j.log []
  rw [performed] at plain
  cases plain
  exact ⟨calls, reaches, holds⟩

/-- The last of several calls, and where it starts. -/
theorem Reaches.of_concat {store : Store σ τ} {s s' : σ} {calls : List (Exchange τ)}
    {call : Exchange τ} (reaches : Reaches store s (calls ++ [call]) s') :
    ∃ s₁, Reaches store s calls s₁ ∧ call.Takes store s₁ s' := by
  obtain ⟨s₁, first, last⟩ := reaches.of_append
  obtain _ | ⟨takes, _ | _⟩ := last
  exact ⟨s₁, first, takes⟩

namespace Dutiful

variable [DecidableEq τ] {store : Store σ τ} (m : Dutiful store δ) {r : Registry} {ds : Declarations}
  {p : Plan}

/-- A plan in a transaction that has just been opened hands on what it carried out when it succeeds, and
nothing when it fails. -/
theorem ledger_of_complete {t : τ} {parent? : Option τ} {j j' : Journal σ}
    {answer : Except Error PlanResult} (sound : m.sound j.state)
    (opened : (m.ledger j.state).work t = some ⟨parent?, []⟩)
    (unmarked : m.marked j.state t = false)
    (performed : (p.complete store t r ds).perform j = (answer, j')) :
    ∃ sent, p.Sends m.write r ds sent answer ∧ m.sound j'.state
      ∧ m.marked j'.state = m.marked j.state
      ∧ m.ledger j'.state = ((m.ledger j.state).added t sent).closed t answer := by
  obtain ⟨calls, reaches, execution⟩ := (Follows.of_complete t t r ds p).of_performed performed
  -- up to the last call all ways are alike
  have run : ∀ {statements : List (Exchange τ)} {last : Exchange τ}
      {result : Except Error PlanResult},
      StepsRun r ds t 0 ⟨p.ids, []⟩ .empty p.steps statements result →
      Reaches store j.state (statements ++ [last]) j'.state →
      ∃ s₁, m.sound s₁ ∧ m.marked s₁ = m.marked j.state
        ∧ m.ledger s₁ = (m.ledger j.state).added t (statements.flatMap (Exchange.done m.write))
        ∧ (∃ w, (m.ledger s₁).work t = some w) ∧ last.Takes store s₁ j'.state := by
    intro statements last result steps reaches
    obtain ⟨s₁, first, takes⟩ := reaches.of_concat
    obtain ⟨sound₁, entered, flags⟩ := m.runs_all sound opened steps.statementIn first
    exact ⟨s₁, sound₁, flags, entered, ⟨_, entered ▸ Ledger.work_added opened⟩, takes⟩
  cases execution with
  | @committed _ statements result steps =>
    obtain ⟨s₁, sound₁, flags, entered, ⟨w, still⟩, commits⟩ := run steps reaches
    obtain ⟨sound', flags', -, keeps⟩ := m.commits sound₁ still commits
    obtain ⟨-, kept⟩ := keeps (by rw [flags, unmarked])
    exact ⟨_, .ran steps, sound', flags'.trans flags, by rw [kept, entered, Ledger.closed]⟩
  | @notCommitted _ statements result e steps =>
    -- a commit that is not refused succeeds
    obtain ⟨s₁, sound₁, flags, entered, ⟨w, still⟩, commits⟩ := run steps reaches
    obtain ⟨sound', flags', -, keeps⟩ := m.commits sound₁ still commits
    obtain ⟨same, -⟩ := keeps (by rw [flags, unmarked])
    cases same
  | @rolledBack _ statements index e answer steps =>
    obtain ⟨s₁, sound₁, flags, entered, ⟨w, still⟩, rolls⟩ := run steps reaches
    obtain ⟨sound', -, same, flags'⟩ := m.rollsBack sound₁ still rolls
    exact ⟨_, .ran steps, sound', flags'.trans flags, by rw [same, entered, Ledger.closed]⟩

/-! ## 3. What a plan leaves -/

/-- Where the caller's transaction stands: what is durable, what the transaction would make durable, and
whether it is doomed. What a doomed transaction has done does not matter. -/
structure Standing (t : τ) (s : σ) (durable pending : List δ) (doomed : Bool) : Prop where
  sound : m.sound s
  durable : (m.ledger s).durable = durable
  marked : m.marked s t = doomed
  open_ : ∃ done, (m.ledger s).work t = some ⟨none, done⟩ ∧ (doomed = false → done = pending)

/-- What no operation undoes: what is durable stays durable, a transaction that is known stays known, and
one that is marked rollback-only stays marked. -/
structure Later (s s' : σ) : Prop where
  durable : (m.ledger s).durable <+: (m.ledger s').durable
  known : ∀ {u : τ}, ((m.ledger s).work u).isSome → ((m.ledger s').work u).isSome
  marked : ∀ {u : τ}, ((m.ledger s).work u).isSome → m.marked s u = true → m.marked s' u = true

variable {m}

/-- Where the ledger and the marks are as before. -/
theorem Later.of_same {s s' : σ} (same : m.ledger s' = m.ledger s) (flags : m.marked s' = m.marked s) :
    m.Later s s' where
  durable := by simp [same]
  known := by simp [same]
  marked _ := by
    rw [flags]
    exact id

theorem Later.trans {s s' s'' : σ} (first : m.Later s s') (second : m.Later s' s'') :
    m.Later s s'' where
  durable := first.durable.trans second.durable
  known h := second.known (first.known h)
  marked h marked := second.marked (first.known h) (first.marked h marked)

/-- A plan that ran within the caller's transaction: what it carried out, and what it left. -/
structure Leaves (m : Dutiful store δ) (r : Registry) (ds : Declarations) (t : τ) (s s' : σ)
    (durable pending : List δ) (doomed : Bool) (ran : Ran δ) : Prop where
  sends : ran.plan.Sends m.write r ds ran.sent ran.answer
  standing : m.Standing t s' (durable ++ ran.apart) (pending ++ ran.within) (doomed || ran.dooms)
  later : m.Later s s'

variable {t : τ} {j j' : Journal σ} {durable pending : List δ} {doomed : Bool}
  {answer : Except Error PlanResult}

/-- A plan that does not doom the transaction leaves what it adds to what is durable and to the work of
the transaction. -/
theorem Standing.leaves {s s' : σ} {ran : Ran δ} (standing : m.Standing t s durable pending doomed)
    (spares : ran.dooms = false) (sends : ran.plan.Sends m.write r ds ran.sent ran.answer)
    (sound : m.sound s') (later : m.Later s s') (flag : m.marked s' t = m.marked s t)
    (entered : (m.ledger s').durable = (m.ledger s).durable ++ ran.apart)
    (waits : ∀ done, (m.ledger s).work t = some ⟨none, done⟩ →
      (m.ledger s').work t = some ⟨none, done ++ ran.within⟩) :
    m.Leaves r ds t s s' durable pending doomed ran := by
  obtain ⟨done, known, exact_⟩ := standing.open_
  refine ⟨sends, ⟨sound, ?_, ?_, _, waits done known, ?_⟩, later⟩
  · rw [entered, standing.durable]
  · rw [flag, standing.marked, spares, Bool.or_false]
  · intro undoomed
    rw [exact_ (Bool.or_eq_false_iff.1 undoomed).1]

/-- A plan that joins the transaction. A failure dooms the transaction. -/
theorem Standing.of_join (standing : m.Standing t j.state durable pending doomed)
    (performed : (p.join store t r ds).perform j = (answer, j')) :
    ∃ sent, m.Leaves r ds t j.state j'.state durable pending doomed
      ⟨p, .required, sent, answer⟩ := by
  obtain ⟨done, known, -⟩ := standing.open_
  obtain ⟨first, j₁, runs, rest⟩ := Action.attempt_cases performed
  obtain ⟨calls, reaches, steps⟩ := (Follows.of_run t r ds p).of_performed runs
  obtain ⟨sound₁, entered, flags⟩ := m.runs_all standing.sound known steps.statementIn reaches
  have durable₁ : (m.ledger j₁.state).durable = (m.ledger j.state).durable := by
    rw [entered, Ledger.durable_added known]
  have later₁ : m.Later j.state j₁.state := by
    constructor
    · simp [durable₁]
    · intro u h
      rw [entered]
      exact Ledger.known_added.2 h
    · intro u h marked
      rwa [flags]
  cases first with
  | ok result =>
    cases rest
    refine ⟨calls.flatMap (Exchange.done m.write), standing.leaves rfl (.ran steps) sound₁ later₁
      (by rw [flags]) ?_ ?_⟩
    · simp [durable₁, Ran.apart]
    · intro done known
      simp [entered, Ledger.work_added known, Ran.within]
  | error e =>
    have known₁ := entered ▸ Ledger.work_added known
    rcases Action.bind_cases rest with ⟨e', -, notes⟩ | ⟨_, j₂, notes, rest⟩
    · cases notes
    · cases notes
      rcases Action.bind_cases rest with ⟨e', -, marks⟩ | ⟨_, j₃, marks, rest⟩
      · -- marking a transaction succeeds
        obtain ⟨-, same, -⟩ := m.marks sound₁ known₁ ⟨_, _, marks⟩
        cases same
      · obtain ⟨sound₂, -, same, flags₂⟩ := m.marks sound₁ known₁ ⟨_, _, marks⟩
        cases rest
        refine ⟨_, .ran steps, ⟨sound₂, ?_, ?_, _, same ▸ known₁, ?_⟩, later₁.trans ?_⟩
        · simp [Ran.apart, same, durable₁, standing.durable]
        · simp [Ran.dooms, flags₂]
        · intro undoomed
          simp [Ran.dooms] at undoomed
        · refine ⟨by simp [same], by simp [same], ?_⟩
          intro u h marked
          rw [flags₂]
          by_cases own : u = t
          · rw [own, Function.update_self]
          · rwa [Function.update_of_ne own]

/-- A plan in a transaction that is opened for it, which is another one than the caller's. -/
theorem Standing.of_opened (standing : m.Standing t j.state durable pending doomed) {u : τ}
    {parent? : Option τ} {j₁ : Journal σ} (sound₁ : m.sound j₁.state)
    (fresh : (m.ledger j.state).work u = none)
    (opened : m.ledger j₁.state = (m.ledger j.state).opened u parent?)
    (flags : m.marked j₁.state = Function.update (m.marked j.state) u false)
    (completes : (p.complete store u r ds).perform j₁ = (answer, j')) :
    t ≠ u ∧ ∃ sent, p.Sends m.write r ds sent answer ∧ m.sound j'.state
      ∧ m.marked j'.state t = m.marked j.state t ∧ m.Later j.state j'.state
      ∧ m.ledger j'.state
        = (((m.ledger j.state).opened u parent?).added u sent).closed u answer := by
  have other : ∀ v, ((m.ledger j.state).work v).isSome → v ≠ u := by
    rintro v h rfl
    rw [fresh] at h
    cases h
  obtain ⟨done, known, -⟩ := standing.open_
  have apart : t ≠ u := other t (by rw [known]; rfl)
  obtain ⟨sent, sends, sound', flags', entered⟩ := m.ledger_of_complete sound₁
    (opened ▸ Ledger.work_opened parent?) (by rw [flags, Function.update_self]) completes
  rw [opened] at entered
  refine ⟨apart, sent, sends, sound', ?_, ?_, entered⟩
  · rw [flags', flags, Function.update_of_ne apart]
  · constructor
    · rw [entered]
      exact (Ledger.prefix_added (l := (m.ledger j.state).opened u parent?)).trans Ledger.prefix_closed
    · intro v h
      rw [entered]
      exact Ledger.known_closed.2 (Ledger.known_added.2 (Ledger.known_opened.2 (.inr h)))
    · intro v h marked
      rwa [flags', flags, Function.update_of_ne (other v h)]

/-- A plan in a savepoint of the transaction. -/
theorem Standing.of_nested (standing : m.Standing t j.state durable pending doomed)
    (performed : (p.nested store t r ds).perform j = (answer, j')) :
    ∃ sent, m.Leaves r ds t j.state j'.state durable pending doomed ⟨p, .nested, sent, answer⟩ := by
  obtain ⟨done, known, -⟩ := standing.open_
  rcases Action.bind_cases performed with ⟨e, -, opens⟩ | ⟨u, j₁, opens, completes⟩
  · -- a savepoint can be opened
    obtain ⟨-, u, same, -⟩ := m.savepoints standing.sound known ⟨_, _, opens⟩
    cases same
  · obtain ⟨sound₁, u', same, fresh, opened, flags⟩ := m.savepoints standing.sound known ⟨_, _, opens⟩
    cases same
    obtain ⟨apart, sent, sends, sound', flag, later, entered⟩ :=
      standing.of_opened sound₁ fresh opened flags completes
    cases answer with
    | ok result =>
      rw [Ledger.closed] at entered
      refine ⟨sent, standing.leaves rfl sends sound' later flag ?_ ?_⟩
      · simp [entered, (Ledger.opened_kept_savepoint apart known).1, Ran.apart]
      · intro done known
        simp [entered, (Ledger.opened_kept_savepoint apart known).2, Ran.within]
    | error e =>
      rw [Ledger.closed] at entered
      refine ⟨sent, standing.leaves rfl sends sound' later flag ?_ ?_⟩
      · simp [entered, (Ledger.opened_added apart).1, Ran.apart]
      · intro done known
        simp [entered, (Ledger.opened_added apart).2, known, Ran.within]

/-- A plan in a transaction of its own, on a connection that may not be handed out. -/
theorem Standing.of_executeNew (standing : m.Standing t j.state durable pending doomed)
    (performed : (p.executeNew store r ds).perform j = (answer, j')) :
    ∃ sent, m.Leaves r ds t j.state j'.state durable pending doomed
      ⟨p, .requiresNew, sent, answer⟩ := by
  rcases Action.bind_cases performed with ⟨e, rfl, acquires⟩ | ⟨c, j₁, acquires, executes⟩
  · -- nothing has happened
    obtain ⟨sound', same, flags, -⟩ := m.acquires standing.sound ⟨_, _, acquires⟩
    refine ⟨[], standing.leaves rfl (.refused e) sound' (.of_same same flags) (by rw [flags]) ?_ ?_⟩
    · simp [same, Ran.apart]
    · intro done known
      simp [same, known, Ran.within]
  · obtain ⟨sound₁, same, flags, usable⟩ := m.acquires standing.sound ⟨_, _, acquires⟩
    have ready := usable c rfl
    rcases Action.bind_cases executes with ⟨e, -, begins⟩ | ⟨u, j₂, begins, completes⟩
    · -- a transaction can be begun
      obtain ⟨-, u, same', -⟩ := m.begins sound₁ ready ⟨_, _, begins⟩
      cases same'
    · obtain ⟨sound₂, u', same', fresh, opened, flags₂⟩ := m.begins sound₁ ready ⟨_, _, begins⟩
      cases same'
      rw [same] at fresh opened
      rw [flags] at flags₂
      obtain ⟨apart, sent, sends, sound', flag, later, entered⟩ :=
        standing.of_opened sound₂ fresh opened flags₂ completes
      cases answer with
      | ok result =>
        rw [Ledger.closed] at entered
        refine ⟨sent, standing.leaves rfl sends sound' later flag ?_ ?_⟩
        · simp [entered, (Ledger.opened_kept_alone apart).1, Ran.apart]
        · intro done known
          simp [entered, (Ledger.opened_kept_alone apart).2, known, Ran.within]
      | error e =>
        rw [Ledger.closed] at entered
        refine ⟨sent, standing.leaves rfl sends sound' later flag ?_ ?_⟩
        · simp [entered, (Ledger.opened_added apart).1, Ran.apart]
        · intro done known
          simp [entered, (Ledger.opened_added apart).2, known, Ran.within]

/-- **One plan.** However a plan runs within the transaction, it leaves what it says. -/
theorem Standing.of_executeWithin {how : Propagation}
    (standing : m.Standing t j.state durable pending doomed)
    (performed : (p.executeWithin store t r ds how).perform j = (answer, j')) :
    ∃ sent, m.Leaves r ds t j.state j'.state durable pending doomed ⟨p, how, sent, answer⟩ := by
  cases how with
  | required => exact standing.of_join performed
  | requiresNew => exact standing.of_executeNew performed
  | nested => exact standing.of_nested performed

/-- **Any number of plans.** The induction is on the plans. -/
theorem Standing.of_answersWithin (r : Registry) (ds : Declarations)
    (standing : m.Standing t j.state durable pending doomed) (plans : List (Plan × Propagation)) :
    ∃ rans : List (Ran δ), ∃ j' : Journal σ,
      rans.map (fun ran => (ran.plan, ran.how)) = plans
        ∧ (answersWithin store t r ds plans).perform j = (.ok (rans.map (·.answer)), j')
        ∧ (∀ ran ∈ rans, ran.plan.Sends m.write r ds ran.sent ran.answer)
        ∧ m.Standing t j'.state (durable ++ rans.flatMap Ran.apart) (pending ++ rans.flatMap Ran.within)
          (doomed || rans.any Ran.dooms)
        ∧ m.Later j.state j'.state := by
  induction plans generalizing j durable pending doomed with
  | nil => exact ⟨[], j, rfl, rfl, by simp, by simpa using standing, .of_same rfl rfl⟩
  | cons first rest ih =>
    obtain ⟨p, how⟩ := first
    rcases runs : (p.executeWithin store t r ds how).perform j with ⟨answer, j₁⟩
    obtain ⟨sent, sends, standing₁, later₁⟩ := standing.of_executeWithin runs
    obtain ⟨rans, j', same, performed, all, standing', later'⟩ := ih standing₁
    refine ⟨⟨p, how, sent, answer⟩ :: rans, j', ?_, ?_, ?_, ?_, later₁.trans later'⟩
    · simp [same]
    · rw [answersWithin, Action.perform_bind, Action.perform_attempt, runs]
      show ((answersWithin store t r ds rest) >>= _).perform j₁ = _
      rw [Action.perform_bind, performed]
      rfl
    · intro ran h
      rcases List.mem_cons.1 h with rfl | h
      · exact sends
      · exact all ran h
    · simpa [List.flatMap_cons, List.append_assoc, Bool.or_assoc] using standing'

/-! ## 4. The end of the transaction -/

/-- What is durable of plans that ran within a transaction of the caller, before the transaction ends
and once it has ended either way. -/
structure Settles (m : Dutiful store δ) (t : τ) (before : List δ) (j : Journal σ)
    (rans : List (Ran δ)) : Prop where
  atOnce : (m.ledger j.state).durable = before ++ rans.flatMap Ran.apart
  doomed : m.marked j.state t = rans.any Ran.dooms
  /-- A doomed transaction refuses to commit, and only a doomed one. -/
  commits : ∃ j', (store.commit t).perform j
      = (if rans.any Ran.dooms then .error .unexpectedRollback else .ok (), j')
    ∧ (m.ledger j'.state).durable = before ++ rans.flatMap Ran.apart
      ++ (if rans.any Ran.dooms then [] else rans.flatMap Ran.within)
    ∧ m.Later j.state j'.state
  rollsBack : ∃ j', (store.rollback t).perform j = (.ok (), j')
    ∧ (m.ledger j'.state).durable = before ++ rans.flatMap Ran.apart
    ∧ m.Later j.state j'.state

/-- The end of the transaction makes its work durable, or nothing of it. -/
theorem Standing.settles {before : List δ} {rans : List (Ran δ)}
    (standing : m.Standing t j.state (before ++ rans.flatMap Ran.apart) (rans.flatMap Ran.within)
      (rans.any Ran.dooms)) : m.Settles t before j rans := by
  obtain ⟨done, known, exact_⟩ := standing.open_
  refine ⟨standing.durable, standing.marked, ?_, ?_⟩
  · rcases ends : (store.commit t).perform j with ⟨answer, j'⟩
    obtain ⟨-, flags, refuses, keeps⟩ := m.commits standing.sound known ⟨_, _, ends⟩
    rw [standing.marked] at refuses keeps
    cases doomed : rans.any Ran.dooms with
    | true =>
      obtain ⟨rfl, same⟩ := refuses doomed
      refine ⟨j', rfl, ?_, .of_same same flags⟩
      simp [same, standing.durable]
    | false =>
      obtain ⟨rfl, kept⟩ := keeps doomed
      refine ⟨j', rfl, ?_, ?_⟩
      · simp [kept, Ledger.kept_of_alone known, standing.durable, exact_ doomed]
      · constructor
        · rw [kept]
          exact Ledger.prefix_kept
        · intro u h
          rw [kept]
          exact Ledger.known_kept.2 h
        · intro u h marked
          rwa [flags]
  · rcases ends : (store.rollback t).perform j with ⟨answer, j'⟩
    obtain ⟨-, rfl, same, flags⟩ := m.rollsBack standing.sound known ⟨_, _, ends⟩
    exact ⟨j', rfl, by rw [same, standing.durable], .of_same same flags⟩

end Dutiful

/-- **Propagation decides what becomes durable.** On a dutiful store, let a transaction be begun and
any plans run within it in any way, each of which may fail at any step. The statements of every plan
that succeeded in a transaction of its own are durable at once and stay so. The others become durable
when the transaction commits, in order, and a commit is refused exactly when a plan that joined the
transaction failed; a plan that fails otherwise leaves no statement and does not mark the transaction.
No mark is ever taken back, and nothing that is durable either. -/
theorem durable_of_plansWithin [DecidableEq τ] {store : Store σ τ} (m : Dutiful store δ) {s : σ}
    {connection : τ} (sound : m.sound s) (ready : m.ready s connection) (r : Registry)
    (ds : Declarations) (plans : List (Plan × Propagation)) (log : List LogRecord) :
    ∃ t j rans j', (store.begin connection).perform ⟨s, log⟩ = (.ok t, j)
      ∧ (answersWithin store t r ds plans).perform j = (.ok (rans.map Ran.answer), j')
      ∧ rans.map (fun ran => (ran.plan, ran.how)) = plans
      ∧ (∀ ran ∈ rans, ran.plan.Sends m.write r ds ran.sent ran.answer)
      ∧ m.Later j.state j'.state
      ∧ m.Settles t (m.ledger s).durable j' rans := by
  rcases begins : (store.begin connection).perform ⟨s, log⟩ with ⟨answer, j⟩
  obtain ⟨sound₁, t, rfl, fresh, opened, flags⟩ := m.begins sound ready ⟨_, _, begins⟩
  have standing : m.Standing t j.state (m.ledger s).durable [] false :=
    ⟨sound₁, by rw [opened, Ledger.durable_opened], by rw [flags, Function.update_self], [],
      by rw [opened, Ledger.work_opened], fun _ => rfl⟩
  obtain ⟨rans, j', same, performed, all, standing', later⟩ :=
    standing.of_answersWithin r ds plans
  rw [List.nil_append, Bool.false_or] at standing'
  exact ⟨t, j, rans, j', rfl, performed, same, all, later, standing'.settles⟩

/-- Plans that join, nest and run apart, of which a nested one fails at its second step. -/
def mixedPlans : List (Plan × Propagation) :=
  let executing (sqls : List String) : Plan :=
    ⟨sqls.zipIdx.map fun (sql, index) => ⟨⟨index⟩, sql, .empty, .execute⟩⟩
  [(executing ["INSERT 1"], .required), (executing ["INSERT 2", "DELETE 1"], .nested),
    (executing ["INSERT 3"], .requiresNew), (executing ["INSERT 4"], .nested)]

/-- A server that answers every statement, with one client. -/
def answeringServer : Server.ServerState :=
  (Server.ServerState.start ⟨"/run", [], [], false⟩ ⟨none, none, none, none⟩).connected.2

/-- On the store by rule, and on a server. There the ledger is that of the calls that were made. -/
theorem durable_of_plansWithin_mixed :
    (∃ t j rans j', (Scripted.store.begin .connection).perform ⟨rejectingDeletes, []⟩ = (.ok t, j)
      ∧ (answersWithin Scripted.store t .empty [] mixedPlans).perform j
        = (.ok (rans.map Ran.answer), j')
      ∧ (rans.map Ran.answer).map Except.isOk = [true, false, true, true]
      ∧ Scripted.dutiful.Settles t [] j' rans
      ∧ ((Scripted.store.commit t).perform j').2.state.committed
        = ["INSERT 3", "INSERT 1", "INSERT 4"])
      ∧ ∃ t rans j', (Server.dutiful "postgres://reader@%2Frun/library").Settles t [] j' rans
        ∧ rans.map (fun ran => (ran.plan, ran.how)) = mixedPlans := by
  constructor
  · have sound : Scripted.dutiful.sound rejectingDeletes := ⟨by decide, nofun⟩
    have ready : Scripted.dutiful.ready rejectingDeletes .connection := trivial
    obtain ⟨t, j, rans, j', began, ran, -, -, -, settles⟩ :=
      durable_of_plansWithin Scripted.dutiful sound ready .empty [] mixedPlans []
    refine ⟨t, j, rans, j', began, ran, ?_, settles, ?_⟩
    · have answers : ((Scripted.store.begin .connection >>= fun t =>
          answersWithin Scripted.store t .empty [] mixedPlans).perform
            ⟨rejectingDeletes, []⟩).1.toOption.map (·.map Except.isOk)
          = some [true, false, true, true] := by decide +kernel
      rw [Action.perform_bind, began] at answers
      simpa [ran, Except.toOption] using answers
    · have committed : ((Scripted.store.begin .connection >>= fun t =>
          answersWithin Scripted.store t .empty [] mixedPlans >>= fun _ =>
            Scripted.store.commit t).perform ⟨rejectingDeletes, []⟩).2.state.committed
          = ["INSERT 3", "INSERT 1", "INSERT 4"] := by decide +kernel
      rw [Action.perform_bind, began] at committed
      simpa [Action.perform_bind, ran] using committed
  · have sound : (Server.dutiful "postgres://reader@%2Frun/library").sound (answeringServer, []) :=
      Server.soundCalls_connected (by decide) nofun
    have ready : (Server.dutiful "postgres://reader@%2Frun/library").ready (answeringServer, [])
        (.connection 0) := ⟨0, rfl, Nat.zero_lt_one⟩
    obtain ⟨t, -, rans, j', -, -, same, -, -, settles⟩ :=
      durable_of_plansWithin _ sound ready .empty [] mixedPlans []
    exact ⟨t, rans, j', settles, same⟩

end TypedStore
