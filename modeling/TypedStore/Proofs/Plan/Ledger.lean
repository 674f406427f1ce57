/-
What the commands of a store say. A ledger tells what is durable and what each transaction and savepoint
has done since it was opened; a statement adds to it, a commit hands the work of a transaction on, to
what is durable or to the transaction that a savepoint was opened in, and a rollback hands on nothing
(`Ledger`). A store is dutiful when its begin, commit, rollback and savepoint succeed and change its
ledger as they say, save that a transaction marked rollback-only refuses to commit (`Dutiful`).
-/
import Mathlib.Logic.Function.Basic
import TypedStore.Proofs.Plan.Durability

set_option autoImplicit false

namespace TypedStore

variable {σ τ δ : Type}

/-! ## 1. Ledgers -/

/-- What a transaction has done, and the transaction that it is a savepoint of, if it is one. -/
structure Work (τ δ : Type) where
  parent? : Option τ
  done : List δ

/-- What is durable, and the work of transactions. Transactions that are over are not taken out, as
nobody can name them any more. -/
structure Ledger (τ δ : Type) where
  durable : List δ
  work : τ → Option (Work τ δ)

namespace Ledger

variable [DecidableEq τ] (l : Ledger τ δ)

/-- A transaction is opened, within another one if it is a savepoint. -/
def opened (t : τ) (parent? : Option τ) : Ledger τ δ :=
  { l with work := Function.update l.work t (some ⟨parent?, []⟩) }

/-- A transaction does more. What is done outside of a transaction is durable at once. -/
def added (t : τ) (more : List δ) : Ledger τ δ :=
  match l.work t with
  | some w => { l with work := Function.update l.work t (some { w with done := w.done ++ more }) }
  | none => { l with durable := l.durable ++ more }

/-- A transaction hands on its work. -/
def kept (t : τ) : Ledger τ δ :=
  match l.work t with
  | some ⟨none, done⟩ => { l with durable := l.durable ++ done }
  | some ⟨some parent, done⟩ => l.added parent done
  | none => l

/-- A transaction ends, and hands on its work where what was done in it succeeded. -/
def closed {α : Type} (t : τ) : Except Error α → Ledger τ δ
  | .ok _ => l.kept t
  | .error _ => l

variable {l} {t u : τ} {w : Work τ δ} {more : List δ}

@[simp] theorem durable_opened (parent? : Option τ) : (l.opened t parent?).durable = l.durable := rfl

@[simp] theorem work_opened (parent? : Option τ) :
    (l.opened t parent?).work t = some ⟨parent?, []⟩ := by
  simp [opened]

theorem work_opened_of_ne {parent? : Option τ} (h : u ≠ t) : (l.opened t parent?).work u = l.work u := by
  simp [opened, h]

theorem durable_added (h : l.work t = some w) : (l.added t more).durable = l.durable := by
  simp [added, h]

theorem work_added (h : l.work t = some w) :
    (l.added t more).work t = some { w with done := w.done ++ more } := by
  simp [added, h]

theorem work_added_of_ne (h : u ≠ t) : (l.added t more).work u = l.work u := by
  unfold added
  split
  · simp [h]
  · rfl

theorem added_added (h : l.work t = some w) (again : List δ) :
    (l.added t more).added t again = l.added t (more ++ again) := by
  simp [added, h, List.append_assoc]

theorem added_nil : l.added t [] = l := by
  unfold added
  split
  · rename_i w h
    rw [List.append_nil, ← h, Function.update_eq_self]
  · rw [List.append_nil]

theorem kept_of_alone (h : l.work t = some ⟨none, more⟩) :
    l.kept t = { l with durable := l.durable ++ more } := by
  simp [kept, h]

theorem kept_of_savepoint (h : l.work t = some ⟨some u, more⟩) : l.kept t = l.added u more := by
  simp [kept, h]

/-- What a transaction opened for some work alone leaves of another one: nothing has changed there. -/
theorem opened_added {parent? : Option τ} (h : t ≠ u) :
    ((l.opened u parent?).added u more).durable = l.durable
      ∧ ((l.opened u parent?).added u more).work t = l.work t := by
  refine ⟨?_, ?_⟩
  · rw [durable_added (work_opened parent?), durable_opened]
  · rw [work_added_of_ne h, work_opened_of_ne h]

/-- Its work is durable once it is handed on. -/
theorem opened_kept_alone (h : t ≠ u) :
    (((l.opened u none).added u more).kept u).durable = l.durable ++ more
      ∧ (((l.opened u none).added u more).kept u).work t = l.work t := by
  obtain ⟨durable, work⟩ : ((l.opened u none).added u more).durable = l.durable ∧ _ := opened_added h
  rw [kept_of_alone (work_added (work_opened none)), List.nil_append]
  exact ⟨by rw [durable], work⟩

/-- The work of a savepoint is handed on to the transaction that it was opened in. -/
theorem opened_kept_savepoint (h : t ≠ u) (known : l.work t = some w) :
    (((l.opened u (some t)).added u more).kept u).durable = l.durable
      ∧ (((l.opened u (some t)).added u more).kept u).work t
        = some { w with done := w.done ++ more } := by
  obtain ⟨durable, work⟩ : ((l.opened u (some t)).added u more).durable = l.durable ∧ _ :=
    opened_added h
  have still := work.trans known
  rw [kept_of_savepoint (work_added (work_opened (some t))), List.nil_append]
  exact ⟨by rw [durable_added still, durable], work_added still⟩

/-- A transaction is known from when it is opened. -/
theorem known_opened {parent? : Option τ} :
    ((l.opened u parent?).work t).isSome ↔ t = u ∨ (l.work t).isSome := by
  by_cases same : t = u
  · subst same
    simp
  · simp [work_opened_of_ne same, same]

theorem known_added : ((l.added u more).work t).isSome ↔ (l.work t).isSome := by
  by_cases same : t = u
  · subst same
    rcases known : l.work t with _ | w
    · simp [added, known]
    · simp [work_added known]
  · rw [work_added_of_ne same]

theorem known_kept : ((l.kept u).work t).isSome ↔ (l.work t).isSome := by
  unfold kept
  split
  · exact Iff.rfl
  · exact known_added
  · exact Iff.rfl

theorem known_closed {α : Type} {answer : Except Error α} :
    ((l.closed u answer).work t).isSome ↔ (l.work t).isSome := by
  cases answer with
  | error e => exact Iff.rfl
  | ok a => exact known_kept

/-- What is durable stays durable. -/
theorem prefix_added : l.durable <+: (l.added u more).durable := by
  unfold added
  split
  · exact List.prefix_rfl
  · exact List.prefix_append _ _

theorem prefix_kept : l.durable <+: (l.kept u).durable := by
  unfold kept
  split
  · exact List.prefix_append _ _
  · exact prefix_added
  · exact List.prefix_rfl

theorem prefix_closed {α : Type} {answer : Except Error α} :
    l.durable <+: (l.closed u answer).durable := by
  cases answer with
  | error e => exact List.prefix_rfl
  | ok a => exact prefix_kept

end Ledger

/-- The statement that a call carried out. One that fails behind its rows is not. -/
def Exchange.done (write : Query → δ) : Exchange τ → List δ
  | .fetch _ q (.ok stream) => if stream.failure?.isSome then [] else [write q]
  | .execute _ q (.ok _) => [write q]
  | _ => []

/-! ## 2. Dutiful stores -/

/-- Boundaries of transactions and savepoints, by the names of their events. -/
def transactionBoundaries : List String :=
  ["begin", "commit", "rollback", "savepoint", "release", "rollback to savepoint"]

/-- A store whose begin, commit, rollback and savepoint commands succeed and do what they say, in
states that are sound. Handing out a connection may fail, and so may every statement. -/
structure Dutiful (store : Store σ τ) (δ : Type) [DecidableEq τ] where
  /-- How a statement is entered. -/
  write : Query → δ
  ledger : σ → Ledger τ δ
  /-- Whether a transaction is marked rollback-only. -/
  marked : σ → τ → Bool
  sound : σ → Prop
  /-- Whether a transaction can be begun on a connection. -/
  ready : σ → τ → Prop
  acquires : ∀ {s s' : σ} {answer : Except Error τ}, sound s →
    (Exchange.acquire answer).Takes store s s' →
    sound s' ∧ ledger s' = ledger s ∧ marked s' = marked s ∧ ∀ c, answer = .ok c → ready s' c
  begins : ∀ {s s' : σ} {c : τ} {answer : Except Error τ}, sound s → ready s c →
    (Exchange.begin c answer).Takes store s s' →
    sound s' ∧ ∃ t, answer = .ok t ∧ (ledger s).work t = none
      ∧ ledger s' = (ledger s).opened t none ∧ marked s' = Function.update (marked s) t false
  savepoints : ∀ {s s' : σ} {t : τ} {w : Work τ δ} {answer : Except Error τ}, sound s →
    (ledger s).work t = some w → (Exchange.savepoint t answer).Takes store s s' →
    sound s' ∧ ∃ u, answer = .ok u ∧ (ledger s).work u = none
      ∧ ledger s' = (ledger s).opened u (some t) ∧ marked s' = Function.update (marked s) u false
  runs : ∀ {s s' : σ} {t : τ} {w : Work τ δ} {call : Exchange τ}, sound s →
    (ledger s).work t = some w → call.StatementIn t → call.Takes store s s' →
    sound s' ∧ ledger s' = (ledger s).added t (call.done write) ∧ marked s' = marked s
  commits : ∀ {s s' : σ} {t : τ} {w : Work τ δ} {answer : Except Error Unit}, sound s →
    (ledger s).work t = some w → (Exchange.commit t answer).Takes store s s' →
    sound s' ∧ marked s' = marked s
      ∧ (marked s t = true → answer = .error .unexpectedRollback ∧ ledger s' = ledger s)
      ∧ (marked s t = false → answer = .ok () ∧ ledger s' = (ledger s).kept t)
  rollsBack : ∀ {s s' : σ} {t : τ} {w : Work τ δ} {answer : Except Error Unit}, sound s →
    (ledger s).work t = some w → (Exchange.rollback t answer).Takes store s s' →
    sound s' ∧ answer = .ok () ∧ ledger s' = ledger s ∧ marked s' = marked s
  marks : ∀ {s s' : σ} {t : τ} {w : Work τ δ} {answer : Except Error Unit}, sound s →
    (ledger s).work t = some w → (Exchange.setRollbackOnly t answer).Takes store s s' →
    sound s' ∧ answer = .ok () ∧ ledger s' = ledger s ∧ marked s' = Function.update (marked s) t true

/-- Where every statement in a transaction is entered, statements one after the other are. The induction
is on the calls. -/
theorem added_of_statements [DecidableEq τ] {store : Store σ τ} {write : Query → δ}
    {ledger : σ → Ledger τ δ} {marked : σ → τ → Bool} {sound : σ → Prop}
    (runs : ∀ {s s' : σ} {t : τ} {w : Work τ δ} {call : Exchange τ}, sound s →
      (ledger s).work t = some w → call.StatementIn t → call.Takes store s s' →
      sound s' ∧ ledger s' = (ledger s).added t (call.done write) ∧ marked s' = marked s)
    {s s' : σ} {t : τ} {w : Work τ δ} {calls : List (Exchange τ)} (sound₀ : sound s)
    (opened : (ledger s).work t = some w) (statements : ∀ call ∈ calls, call.StatementIn t)
    (reaches : Reaches store s calls s') :
    sound s' ∧ ledger s' = (ledger s).added t (calls.flatMap (Exchange.done write))
      ∧ marked s' = marked s := by
  induction reaches generalizing w with
  | none => exact ⟨sound₀, by rw [List.flatMap_nil, Ledger.added_nil], rfl⟩
  | @call _ _ _ first rest takes more ih =>
    obtain ⟨sound₁, entered, flags⟩ := runs sound₀ opened (statements _ List.mem_cons_self) takes
    -- the transaction is still there for the statements that are left
    have still : (ledger _).work t = some { w with done := w.done ++ first.done write } :=
      entered ▸ Ledger.work_added opened
    obtain ⟨sound', entered', flags'⟩ := ih sound₁ still fun call h =>
      statements call (List.mem_cons_of_mem _ h)
    refine ⟨sound', ?_, flags'.trans flags⟩
    rw [entered', entered, Ledger.added_added opened, List.flatMap_cons]

/-- Statements in a transaction are entered one after the other. -/
theorem Dutiful.runs_all [DecidableEq τ] {store : Store σ τ} (m : Dutiful store δ) {s s' : σ} {t : τ}
    {w : Work τ δ} {calls : List (Exchange τ)} (sound : m.sound s)
    (opened : (m.ledger s).work t = some w) (statements : ∀ call ∈ calls, call.StatementIn t)
    (reaches : Reaches store s calls s') :
    m.sound s' ∧ m.ledger s' = (m.ledger s).added t (calls.flatMap (Exchange.done m.write))
      ∧ m.marked s' = m.marked s :=
  added_of_statements m.runs sound opened statements reaches

/-! ## 3. Ledgers of what was called -/

section Replay

variable [DecidableEq τ]

/-- A ledger after a call, where the command behind it does what it says. -/
def Ledger.after (write : Query → δ) (l : Ledger τ δ) : Exchange τ → Ledger τ δ
  | .begin _ (.ok t) => l.opened t none
  | .savepoint t (.ok u) => l.opened u (some t)
  | .commit t answer => l.closed t answer
  | .fetch t q answer => l.added t ((Exchange.fetch t q answer).done write)
  | .execute t q answer => l.added t ((Exchange.execute t q answer).done write)
  | _ => l

/-- The ledger of calls from the beginning. -/
def Ledger.replay (write : Query → δ) (calls : List (Exchange τ)) : Ledger τ δ :=
  calls.foldl (Ledger.after write) ⟨[], fun _ => none⟩

theorem Ledger.replay_concat (write : Query → δ) (calls : List (Exchange τ)) (call : Exchange τ) :
    Ledger.replay write (calls ++ [call]) = (Ledger.replay write calls).after write call := by
  simp [replay]

end Replay

theorem Action.perform_recorded {α : Type} {act : Action σ α} (call : Except Error α → Exchange τ)
    {s s' : σ} {answer : Except Error α} {log log' : List LogRecord}
    (performed : act.perform ⟨s, log⟩ = (answer, ⟨s', log'⟩)) (calls : List (Exchange τ)) :
    (act.recorded call).perform ⟨(s, calls), log⟩
      = (answer, ⟨(s', calls ++ [call answer]), log'⟩) := by
  show ((act.perform ⟨s, log⟩).1, (⟨((act.perform ⟨s, log⟩).2.state,
    calls ++ [call (act.perform ⟨s, log⟩).1]), (act.perform ⟨s, log⟩).2.log⟩ : Journal _)) = _
  rw [performed]

/-- What a recorded operation did, and what was recorded. -/
theorem Action.takes_of_recorded {α : Type} {act : Action σ α} {call : Except Error α → Exchange τ}
    {s s' : σ × List (Exchange τ)} {answer : Except Error α}
    (takes : (act.recorded call).Takes s answer s') :
    act.Takes s.1 answer s'.1 ∧ s'.2 = s.2 ++ [call answer] := by
  obtain ⟨log, log', run⟩ := takes
  rcases plain : act.perform ⟨s.1, log⟩ with ⟨answer', s₁, log₁⟩
  rw [Action.perform_recorded call plain s.2] at run
  cases run
  exact ⟨⟨log, _, plain⟩, rfl⟩

/-- Looking up an entry where one was added at the end, as stores add transactions. -/
theorem getElem?_concat {α : Type} (l : List α) (x : α) (index : Nat) :
    (l ++ [x])[index]? = if index = l.length then some x else l[index]? := by
  rcases Nat.lt_trichotomy index l.length with old | same | beyond
  · rw [List.getElem?_append_left old, if_neg (Nat.ne_of_lt old)]
  · rw [same, List.getElem?_concat_length, if_pos rfl]
  · rw [if_neg (Nat.ne_of_gt beyond), List.getElem?_eq_none (Nat.le_of_lt beyond),
      List.getElem?_eq_none]
    rw [List.length_append, List.length_singleton]
    exact beyond

end TypedStore
