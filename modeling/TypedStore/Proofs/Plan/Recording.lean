/-
What is asked of a store. A store that records keeps every call with its answer beside its state and
otherwise does what the store does. An action written for any store is followed on both at once
(`Follows`): it does the same on each, the calls it makes are those that are recorded, and the state
changes by these calls only. Actions are followed piece by piece, so that what an action calls is read
off its parts.
-/
import TypedStore.Plan.Execution

set_option autoImplicit false

namespace TypedStore

variable {σ τ α β : Type}

/-! ## 1. Calls -/

/-- A call of a store with what the store answered. -/
inductive Exchange (τ : Type) where
  | fetch (target : τ) (q : Query) (answer : Except Error RowStream)
  | execute (target : τ) (q : Query) (answer : Except Error UInt64)
  | begin (connection : τ) (answer : Except Error τ)
  | savepoint (transaction : τ) (answer : Except Error τ)
  | commit (transaction : τ) (answer : Except Error Unit)
  | rollback (transaction : τ) (answer : Except Error Unit)
  | abandon (transaction : τ) (answer : Except Error Unit)
  | setRollbackOnly (transaction : τ) (answer : Except Error Unit)
  | isRollbackOnly (transaction : τ) (answer : Except Error Bool)
  | acquire (answer : Except Error τ)

/-- An action takes one state of a store to another, with an answer and whatever it logs. -/
def Action.Takes (act : Action σ α) (s : σ) (answer : Except Error α) (s' : σ) : Prop :=
  ∃ log log', act.perform ⟨s, log⟩ = (answer, ⟨s', log'⟩)

/-- A call with its answer takes one state of a store to another. -/
def Exchange.Takes (store : Store σ τ) (s s' : σ) : Exchange τ → Prop
  | .fetch target q answer => (store.fetch target q).Takes s answer s'
  | .execute target q answer => (store.execute target q).Takes s answer s'
  | .begin connection answer => (store.begin connection).Takes s answer s'
  | .savepoint transaction answer => (store.savepoint transaction).Takes s answer s'
  | .commit transaction answer => (store.commit transaction).Takes s answer s'
  | .rollback transaction answer => (store.rollback transaction).Takes s answer s'
  | .abandon transaction answer => (store.abandon transaction).Takes s answer s'
  | .setRollbackOnly transaction answer => (store.setRollbackOnly transaction).Takes s answer s'
  | .isRollbackOnly transaction answer => (store.isRollbackOnly transaction).Takes s answer s'
  | .acquire answer => store.acquire.Takes s answer s'

/-- Calls take one state of a store to another, one after the other. -/
inductive Reaches (store : Store σ τ) : σ → List (Exchange τ) → σ → Prop where
  | none {s : σ} : Reaches store s [] s
  | call {s s' s'' : σ} {call : Exchange τ} {calls : List (Exchange τ)}
      (takes : call.Takes store s s') (more : Reaches store s' calls s'') :
      Reaches store s (call :: calls) s''

theorem Reaches.append {store : Store σ τ} {s s' s'' : σ} {calls calls' : List (Exchange τ)}
    (first : Reaches store s calls s') (second : Reaches store s' calls' s'') :
    Reaches store s (calls ++ calls') s'' := by
  induction first with
  | none => exact second
  | call takes _ ih => exact .call takes (ih second)

theorem Reaches.of_append {store : Store σ τ} {s s'' : σ} {calls calls' : List (Exchange τ)}
    (all : Reaches store s (calls ++ calls') s'') :
    ∃ s', Reaches store s calls s' ∧ Reaches store s' calls' s'' := by
  induction calls generalizing s with
  | nil => exact ⟨s, .none, all⟩
  | cons call calls ih =>
    obtain _ | ⟨takes, more⟩ := all
    obtain ⟨s', first, second⟩ := ih more
    exact ⟨s', .call takes first, second⟩

/-! ## 2. Recording stores -/

/-- An operation that also records how it was called and what it answered. -/
def Action.recorded (call : Except Error α → Exchange τ) (act : Action σ α) :
    Action (σ × List (Exchange τ)) α :=
  ExceptT.mk fun j =>
    let (answer, j') := act.perform ⟨j.state.1, j.log⟩
    (answer, ⟨(j'.state, j.state.2 ++ [call answer]), j'.log⟩)

/-- A store that keeps every call with its answer beside its state. -/
def Store.recording (store : Store σ τ) : Store (σ × List (Exchange τ)) τ where
  fetch target q := (store.fetch target q).recorded (.fetch target q)
  execute target q := (store.execute target q).recorded (.execute target q)
  begin connection := (store.begin connection).recorded (.begin connection)
  savepoint transaction := (store.savepoint transaction).recorded (.savepoint transaction)
  commit transaction := (store.commit transaction).recorded (.commit transaction)
  rollback transaction := (store.rollback transaction).recorded (.rollback transaction)
  abandon transaction := (store.abandon transaction).recorded (.abandon transaction)
  setRollbackOnly transaction :=
    (store.setRollbackOnly transaction).recorded (.setRollbackOnly transaction)
  isRollbackOnly transaction :=
    (store.isRollbackOnly transaction).recorded (.isRollbackOnly transaction)
  acquire := store.acquire.recorded .acquire

/-! ## 3. Performing -/

namespace Action

theorem perform_bind (act : Action σ α) (next : α → Action σ β) (j : Journal σ) :
    (act >>= next).perform j
      = match act.perform j with
        | (.ok a, j') => (next a).perform j'
        | (.error e, j') => (.error e, j') := by
  show (ExceptT.bind act next).run.run j = _
  unfold ExceptT.bind perform
  show (ExceptT.bindCont next (act.run.run j).1).run (act.run.run j).2 = _
  rcases act.run.run j with ⟨answer | a, j'⟩ <;> rfl

theorem perform_attempt (act : Action σ α) (j : Journal σ) :
    act.attempt.perform j = (.ok (act.perform j).1, (act.perform j).2) := rfl

/-- Two actions in a row: the first one fails, or the second one starts where the first one ended. -/
theorem bind_cases {act : Action σ α} {next : α → Action σ β} {j j' : Journal σ}
    {answer : Except Error β} (h : (act >>= next).perform j = (answer, j')) :
    (∃ e, answer = .error e ∧ act.perform j = (.error e, j'))
      ∨ ∃ a j₁, act.perform j = (.ok a, j₁) ∧ (next a).perform j₁ = (answer, j') := by
  rw [perform_bind] at h
  rcases first : act.perform j with ⟨e | a, j₁⟩
  · rw [first] at h
    cases h
    exact .inl ⟨e, rfl, rfl⟩
  · rw [first] at h
    exact .inr ⟨a, j₁, rfl, h⟩

/-- An action whose failure is an answer does not stop the one behind it. -/
theorem attempt_cases {act : Action σ α} {next : Except Error α → Action σ β} {j j' : Journal σ}
    {answer : Except Error β} (h : (act.attempt >>= next).perform j = (answer, j')) :
    ∃ first j₁, act.perform j = (first, j₁) ∧ (next first).perform j₁ = (answer, j') := by
  rw [perform_bind, perform_attempt] at h
  exact ⟨(act.perform j).1, (act.perform j).2, rfl, h⟩

end Action

/-! ## 4. Following an action -/

/-- An action on a store and its counterpart on the recording store do the same. The calls that are
recorded take the store from its state before to that after, and together with the answer they are as
`post` says. -/
def Follows (store : Store σ τ) (act : Action σ α) (act' : Action (σ × List (Exchange τ)) α)
    (post : List (Exchange τ) → Except Error α → Prop) : Prop :=
  ∀ s log past, ∃ answer s' log' calls,
    act.perform ⟨s, log⟩ = (answer, ⟨s', log'⟩)
      ∧ act'.perform ⟨(s, past), log⟩ = (answer, ⟨(s', past ++ calls), log'⟩)
      ∧ Reaches store s calls s' ∧ post calls answer

namespace Follows

variable {store : Store σ τ}

theorem imp {act : Action σ α} {act' : Action (σ × List (Exchange τ)) α}
    {post post' : List (Exchange τ) → Except Error α → Prop} (follows : Follows store act act' post)
    (weaker : ∀ calls answer, post calls answer → post' calls answer) :
    Follows store act act' post' := by
  intro s log past
  obtain ⟨answer, s', log', calls, plain, recorded, reaches, holds⟩ := follows s log past
  exact ⟨answer, s', log', calls, plain, recorded, reaches, weaker calls answer holds⟩

theorem of_pure (a : α) : Follows store (pure a) (pure a) fun calls answer =>
    calls = [] ∧ answer = .ok a := by
  intro s log past
  exact ⟨.ok a, s, log, [], rfl, by rw [List.append_nil]; rfl, .none, rfl, rfl⟩

theorem of_throw (e : Error) : Follows (α := α) store (throw e) (throw e) fun calls answer =>
    calls = [] ∧ answer = .error e := by
  intro s log past
  exact ⟨.error e, s, log, [], rfl, by rw [List.append_nil]; rfl, .none, rfl, rfl⟩

theorem of_notes (rs : List LogRecord) :
    Follows store (Action.notes rs) (Action.notes rs) fun calls answer =>
      calls = [] ∧ answer = .ok () := by
  intro s log past
  exact ⟨.ok (), s, log ++ rs, [], rfl, by rw [List.append_nil]; rfl, .none, rfl, rfl⟩

theorem of_ofExcept (answer : Except Error α) :
    Follows store (Action.ofExcept answer) (Action.ofExcept answer) fun calls answer' =>
      calls = [] ∧ answer' = answer := by
  cases answer with
  | ok a => exact of_pure a
  | error e => exact of_throw e

/-- A call of the store is one exchange. -/
theorem of_recorded (act : Action σ α) (call : Except Error α → Exchange τ)
    (takes : ∀ s answer s', act.Takes s answer s' → (call answer).Takes store s s') :
    Follows store act (act.recorded call) fun calls answer => calls = [call answer] := by
  intro s log past
  rcases run : act.perform ⟨s, log⟩ with ⟨answer, s', log'⟩
  -- recording runs the operation on the state it keeps
  have recorded : (act.recorded call).perform ⟨(s, past), log⟩
      = (answer, ⟨(s', past ++ [call answer]), log'⟩) := by
    show (let (answer, j') := act.perform ⟨s, log⟩
      (answer, (⟨(j'.state, past ++ [call answer]), j'.log⟩ : Journal _))) = _
    rw [run]
  exact ⟨answer, s', log', [call answer], rfl, recorded,
    .call (takes s answer s' ⟨log, log', run⟩) .none, rfl⟩

/-- One action after another: the calls of the first are followed by those of the second, which is
not reached when the first fails. -/
theorem bind {act : Action σ α} {act' : Action (σ × List (Exchange τ)) α} {next : α → Action σ β}
    {next' : α → Action (σ × List (Exchange τ)) β} {first : List (Exchange τ) → Except Error α → Prop}
    {post : List (Exchange τ) → Except Error β → Prop} (follows : Follows store act act' first)
    (refused : ∀ calls e, first calls (.error e) → post calls (.error e))
    (went : ∀ calls a, first calls (.ok a) →
      Follows store (next a) (next' a) fun more answer => post (calls ++ more) answer) :
    Follows store (act >>= next) (act' >>= next') post := by
  intro s log past
  obtain ⟨answer, s', log', calls, plain, recorded, reaches, holds⟩ := follows s log past
  cases answer with
  | error e =>
    -- the second action is not performed
    refine ⟨.error e, s', log', calls, ?_, ?_, reaches, refused calls e holds⟩
    · rw [Action.perform_bind, plain]
    · rw [Action.perform_bind, recorded]
  | ok a =>
    -- it starts where the first one ended, with the calls of the first recorded
    obtain ⟨answer, s'', log'', more, plain', recorded', reaches', holds'⟩ :=
      went calls a holds s' log' (past ++ calls)
    refine ⟨answer, s'', log'', calls ++ more, ?_, ?_, reaches.append reaches', holds'⟩
    · rw [Action.perform_bind, plain]
      exact plain'
    · rw [Action.perform_bind, recorded, ← List.append_assoc]
      exact recorded'

/-- What an action that makes no call leaves to the rest. -/
theorem bind_silent {act : Action σ α} {act' : Action (σ × List (Exchange τ)) α}
    {next : α → Action σ β} {next' : α → Action (σ × List (Exchange τ)) β} {known : Except Error α}
    {post : List (Exchange τ) → Except Error β → Prop}
    (follows : Follows store act act' fun calls answer => calls = [] ∧ answer = known)
    (refused : ∀ e, known = .error e → post [] (.error e))
    (went : ∀ a, known = .ok a → Follows store (next a) (next' a) post) :
    Follows store (act >>= next) (act' >>= next') post := by
  refine follows.bind ?_ ?_
  · rintro calls e ⟨rfl, same⟩
    exact refused e same.symm
  · rintro calls a ⟨rfl, same⟩
    exact went a same.symm

/-- An action whose calls are known, and what is made of its answer without a call. -/
theorem bind_known {act : Action σ α} {act' : Action (σ × List (Exchange τ)) α}
    {next : α → Action σ β} {next' : α → Action (σ × List (Exchange τ)) β}
    {first : List (Exchange τ) → Except Error α → Prop} (follows : Follows store act act' first)
    (known : α → Except Error β)
    (rest : ∀ a, Follows store (next a) (next' a) fun calls answer =>
      calls = [] ∧ answer = known a) :
    Follows store (act >>= next) (act' >>= next') fun calls answer =>
      ∃ answer', first calls answer' ∧ answer = answer'.bind known := by
  refine follows.bind ?_ ?_
  · intro calls e holds
    exact ⟨.error e, holds, rfl⟩
  · intro calls a holds
    refine (rest a).imp ?_
    rintro more answer ⟨rfl, rfl⟩
    rw [List.append_nil]
    exact ⟨.ok a, holds, rfl⟩

/-- Two actions without calls, one after the other. -/
theorem silent_bind {act : Action σ α} {act' : Action (σ × List (Exchange τ)) α}
    {next : α → Action σ β} {next' : α → Action (σ × List (Exchange τ)) β}
    {first : Except Error α}
    (follows : Follows store act act' fun calls answer => calls = [] ∧ answer = first)
    (known : α → Except Error β)
    (rest : ∀ a, Follows store (next a) (next' a) fun calls answer =>
      calls = [] ∧ answer = known a) :
    Follows store (act >>= next) (act' >>= next') fun calls answer =>
      calls = [] ∧ answer = first.bind known := by
  refine (follows.bind_known known rest).imp ?_
  rintro calls answer ⟨_, ⟨rfl, rfl⟩, rfl⟩
  exact ⟨rfl, rfl⟩

/-- Logging is not seen by the store and cannot fail. -/
theorem after_notes {rs : List LogRecord} {next : Unit → Action σ β}
    {next' : Unit → Action (σ × List (Exchange τ)) β}
    {post : List (Exchange τ) → Except Error β → Prop}
    (follows : Follows store (next ()) (next' ()) post) :
    Follows store (Action.notes rs >>= next) (Action.notes rs >>= next') post := by
  refine (of_notes rs).bind_silent ?_ fun _ _ => follows
  intro e same
  cases same

theorem after_note {r : LogRecord} {next : Unit → Action σ β}
    {next' : Unit → Action (σ × List (Exchange τ)) β}
    {post : List (Exchange τ) → Except Error β → Prop}
    (follows : Follows store (next ()) (next' ()) post) :
    Follows store (Action.note r >>= next) (Action.note r >>= next') post :=
  after_notes follows

/-- A failure that becomes an answer stops nothing. -/
theorem attempt {act : Action σ α} {act' : Action (σ × List (Exchange τ)) α}
    {post : List (Exchange τ) → Except Error α → Prop} (follows : Follows store act act' post) :
    Follows store act.attempt act'.attempt fun calls answer =>
      ∃ answer', answer = .ok answer' ∧ post calls answer' := by
  intro s log past
  obtain ⟨answer, s', log', calls, plain, recorded, reaches, holds⟩ := follows s log past
  refine ⟨.ok answer, s', log', calls, ?_, ?_, reaches, answer, rfl, holds⟩
  · rw [Action.perform_attempt, plain]
  · rw [Action.perform_attempt, recorded]

/-- An action whose failure becomes its answer, and what is done with the answer. -/
theorem bind_attempt {act : Action σ α} {act' : Action (σ × List (Exchange τ)) α}
    {next : Except Error α → Action σ β} {next' : Except Error α → Action (σ × List (Exchange τ)) β}
    {first : List (Exchange τ) → Except Error α → Prop}
    {post : List (Exchange τ) → Except Error β → Prop} (follows : Follows store act act' first)
    (went : ∀ calls answer, first calls answer →
      Follows store (next answer) (next' answer) fun more answer => post (calls ++ more) answer) :
    Follows store (act.attempt >>= next) (act'.attempt >>= next') post := by
  refine follows.attempt.bind ?_ ?_
  · rintro calls e ⟨answer, same, -⟩
    cases same
  · rintro calls a ⟨answer, same, holds⟩
    obtain rfl := Except.ok.inj same
    exact went calls a holds

end Follows

end TypedStore
