/-
Duty of a server's store. The driver keeps the marks of transactions itself and sends a boundary for each
of their ends; what it answers where a server refuses some of them is said once, for every server that
ends no connection (`Works`). On a server that refuses none, the commands succeed (`Sound`), and what they
say is entered in the ledger of the calls that were made (`SoundCalls`, with a law for each command), so
that what is durable is what a server keeps that does as it is told.
-/
import TypedStore.Proofs.Plan.Ledger
import TypedStore.Server.Store

set_option autoImplicit false

namespace TypedStore

namespace Server

/-! ## 1. States -/

/-- A server that ends no connection, with handles of its own making. It may refuse boundaries. -/
structure Works (s : ServerState) : Prop where
  steady : ∀ rule ∈ s.peer.rules, rule.answer.ending ≠ .severed
  alive : ∀ works ∈ s.connections, works = true
  placed : ∀ t ∈ s.transactions, t.connection < s.connections.length

/-- A server that refuses no boundary and ends no connection, with handles of its own making. -/
structure Sound (s : ServerState) : Prop where
  obliging : ∀ event ∈ transactionBoundaries, s.peer.refused.contains event = false
  steady : ∀ rule ∈ s.peer.rules, rule.answer.ending ≠ .severed
  alive : ∀ works ∈ s.connections, works = true
  placed : ∀ t ∈ s.transactions, t.connection < s.connections.length

theorem Sound.works {s : ServerState} (sound : Sound s) : Works s :=
  ⟨sound.steady, sound.alive, sound.placed⟩

theorem Works.sound {s : ServerState} (works : Works s)
    (obliging : ∀ event ∈ transactionBoundaries, s.peer.refused.contains event = false) : Sound s :=
  ⟨obliging, works.steady, works.alive, works.placed⟩

/-- Whether a handle stands for a connection or a transaction that was opened. -/
def Known (s : ServerState) : ServerHandle → Prop
  | .connection index => index < s.connections.length
  | .transaction index => index < s.transactions.length

theorem connection_of_known {s : ServerState} (works : Works s) {t : ServerHandle}
    (known : Known s t) : (s.transaction t).connection < s.connections.length := by
  cases t with
  | connection index => exact known
  | transaction index =>
    have here : s.transactions[index]? = some s.transactions[index] := List.getElem?_eq_getElem known
    rw [ServerState.transaction, here, Option.getD_some]
    exact works.placed _ (List.getElem_mem known)

theorem isAlive_of_known {s : ServerState} (works : Works s) {t : ServerHandle} (known : Known s t) :
    s.isAlive t = true := by
  have bound := connection_of_known works known
  rw [ServerState.isAlive, List.getElem?_eq_getElem bound, Option.getD_some]
  exact works.alive _ (List.getElem_mem bound)

/-- A boundary is seen, and carried out unless it is refused. -/
theorem perform_command {s : ServerState} (works : Works s) {t : ServerHandle} (known : Known s t)
    (event : String) (log : List LogRecord) :
    (command t event).perform ⟨s, log⟩
      = (.ok (!s.peer.refused.contains event), ⟨s.see [event], log⟩) := by
  have parts : (command t event).perform ⟨s, log⟩
      = (if s.isAlive t then do
          send event
          pure (!s.peer.refused.contains event)
        else pure false : Action ServerState Bool).perform ⟨s, log⟩ := rfl
  rw [parts, isAlive_of_known works known]
  rfl

/-- What a server answers to a boundary. -/
def answerTo (s : ServerState) (event failure : String) : Except Error Unit :=
  if s.peer.refused.contains event then .error (.msg failure) else .ok ()

theorem perform_boundary {s : ServerState} (works : Works s) {t : ServerHandle} (known : Known s t)
    (event failure : String) (log : List LogRecord) :
    (boundary t event failure).perform ⟨s, log⟩
      = (answerTo s event failure, ⟨s.see [event], log⟩) := by
  rw [boundary, Action.perform_bind, perform_command works known, answerTo]
  cases s.peer.refused.contains event <;> rfl

/-- Whether a handle is marked rollback-only. -/
def markedIn (s : ServerState) (t : ServerHandle) : Bool := (s.transaction t).rollbackOnly

/-- Events change nothing else. -/
theorem Works.see {s : ServerState} (works : Works s) (events : List String) : Works (s.see events) :=
  ⟨works.steady, works.alive, works.placed⟩

theorem Sound.see {s : ServerState} (sound : Sound s) (events : List String) : Sound (s.see events) :=
  (sound.works.see events).sound sound.obliging

theorem markedIn_see (s : ServerState) (events : List String) :
    markedIn (s.see events) = markedIn s := by
  funext t
  cases t <;> rfl

theorem see_nil (s : ServerState) : s.see [] = s := by
  simp [ServerState.see]

theorem see_see (s : ServerState) (events more : List String) :
    (s.see events).see more = s.see (events ++ more) := by
  simp [ServerState.see]

/-! ## 2. Statements -/

theorem ending_answer {p : Peer} (steady : ∀ rule ∈ p.rules, rule.answer.ending ≠ .severed)
    (sql : String) : (p.answer sql).ending ≠ .severed := by
  unfold Peer.answer
  split
  · rename_i rule found
    exact steady rule (List.mem_of_find?_eq_some found)
  · simp [PeerAnswer.nothing]

/-- From a state, an action only adds events, and its answer is as `post` has it. -/
def SeesFrom {α : Type} (s : ServerState) (act : Action ServerState α) (post : α → Prop) : Prop :=
  ∀ log, ∃ answer events log', act.perform ⟨s, log⟩ = (answer, ⟨s.see events, log'⟩)
    ∧ ∀ a, answer = .ok a → post a

namespace SeesFrom

variable {α β : Type} {s : ServerState}

theorem of_pure {a : α} {post : α → Prop} (h : post a) : SeesFrom s (pure a) post := by
  intro log
  refine ⟨.ok a, [], log, ?_, ?_⟩
  · rw [see_nil]
    rfl
  · rintro _ ⟨rfl⟩
    exact h

theorem of_throw (e : Error) (post : α → Prop) : SeesFrom s (throw e) post := by
  intro log
  refine ⟨.error e, [], log, ?_, nofun⟩
  rw [see_nil]
  rfl

theorem of_note (r : LogRecord) : SeesFrom s (Action.note r) fun _ => True := by
  intro log
  refine ⟨.ok (), [], log ++ [r], ?_, fun _ _ => trivial⟩
  rw [see_nil]
  rfl

theorem of_send (event : String) : SeesFrom s (send event) fun _ => True :=
  fun log => ⟨.ok (), [event], log, rfl, fun _ _ => trivial⟩

theorem bind {act : Action ServerState α} {next : α → Action ServerState β} {first : α → Prop}
    {post : β → Prop} (sees : SeesFrom s act first)
    (then_ : ∀ a events, first a → SeesFrom (s.see events) (next a) post) :
    SeesFrom s (act >>= next) post := by
  intro log
  obtain ⟨answer, events, log₁, performed, holds⟩ := sees log
  cases answer with
  | error e =>
    refine ⟨.error e, events, log₁, ?_, nofun⟩
    rw [Action.perform_bind, performed]
  | ok a =>
    obtain ⟨answer, more, log₂, performed', holds'⟩ := then_ a events (holds a rfl) log₁
    refine ⟨answer, events ++ more, log₂, ?_, holds'⟩
    rw [Action.perform_bind, performed, ← see_see]
    exact performed'

theorem bind_state {next : ServerState → Action ServerState β} {post : β → Prop}
    (sees : SeesFrom s (next s) post) : SeesFrom s (Action.state >>= next) post := sees

theorem of_failStatement (q : Query) (post : α → Prop) : SeesFrom s (failStatement q) post :=
  (of_note _).bind fun _ _ _ => of_throw _ post

end SeesFrom

theorem sees_prepare (s : ServerState) (t : ServerHandle) (q : Query) :
    SeesFrom s (prepare t q) fun a => a = s.peer.answer (preparedText q.sql) := by
  refine (SeesFrom.of_note _).bind fun _ events _ => SeesFrom.bind_state ?_
  dsimp only
  split
  · exact (SeesFrom.of_failStatement q fun _ => False).bind fun _ _ impossible => impossible.elim
  · refine (SeesFrom.of_send _).bind fun _ more _ => ?_
    split
    · exact (SeesFrom.of_failStatement q fun _ => False).bind fun _ _ impossible => impossible.elim
    · exact SeesFrom.of_pure rfl

theorem sees_launch {s : ServerState} (works : Works s) (t : ServerHandle) (q : Query) :
    SeesFrom s (launch t q) fun _ => True := by
  refine (sees_prepare s t q).bind ?_
  rintro a events rfl
  have steady := ending_answer works.steady (preparedText q.sql)
  dsimp only
  split
  · exact SeesFrom.of_failStatement q _
  · refine (SeesFrom.of_send _).bind fun _ more _ => ?_
    rw [if_neg steady]
    exact SeesFrom.of_pure trivial

theorem sees_fetch {s : ServerState} (works : Works s) (t : ServerHandle) (q : Query) :
    SeesFrom s (fetch t q) fun _ => True :=
  (sees_launch works t q).bind fun _ _ _ => SeesFrom.of_pure trivial

theorem sees_execute {s : ServerState} (works : Works s) (t : ServerHandle) (q : Query) :
    SeesFrom s (execute t q) fun _ => True := by
  refine (sees_launch works t q).bind fun a events _ => ?_
  split
  · exact (SeesFrom.of_failStatement q fun _ => False).bind fun _ _ impossible => impossible.elim
  · exact SeesFrom.of_pure trivial

/-- What an action that only adds events leaves. -/
theorem SeesFrom.of_takes {α : Type} {s s' : ServerState} {act : Action ServerState α}
    {post : α → Prop} {answer : Except Error α} (sees : SeesFrom s act post)
    (takes : act.Takes s answer s') : ∃ events, s' = s.see events := by
  obtain ⟨log, log', run⟩ := takes
  obtain ⟨answer', events, log₁, performed, -⟩ := sees log
  rw [performed] at run
  cases run
  exact ⟨events, rfl⟩

theorem takes_statement (address : String) {s s' : ServerState} {t : ServerHandle}
    {call : Exchange ServerHandle} (works : Works s) (statement : call.StatementIn t)
    (takes : call.Takes (store address) s s') : ∃ events, s' = s.see events := by
  cases statement with
  | fetch => exact (sees_fetch works t _).of_takes takes
  | execute => exact (sees_execute works t _).of_takes takes

/-! ## 3. Boundaries -/

/-- Opening a transaction or savepoint behind its boundary: the handle is new, and not marked. -/
theorem works_opened {s : ServerState} (works : Works s) {t : ServerHandle} (known : Known s t)
    (isSavepoint : Bool) : Works (s.opened t isSavepoint).2 where
  steady := works.steady
  alive := works.alive
  placed := by
    intro new mem
    rcases List.mem_append.1 mem with old | new
    · exact works.placed _ old
    · rw [List.mem_singleton.1 new]
      exact connection_of_known works known

theorem markedIn_opened (s : ServerState) (t : ServerHandle) (isSavepoint : Bool) :
    markedIn (s.opened t isSavepoint).2
      = Function.update (markedIn s) (.transaction s.transactions.length) false := by
  funext u
  cases u with
  | connection index => simp [markedIn, ServerState.transaction]
  | transaction index =>
    show ((s.transactions ++ [_])[index]?.getD _).rollbackOnly = _
    rw [getElem?_concat]
    by_cases same : index = s.transactions.length
    · simp [same]
    · simp [same, markedIn, ServerState.transaction, ServerState.opened]

theorem Known.see {s : ServerState} {t : ServerHandle} (known : Known s t) (events : List String) :
    Known (s.see events) t := known

/-- What is left of a server that was to open a transaction or a savepoint by a boundary. A boundary that
is refused opens nothing. -/
inductive Opening (s : ServerState) (t : ServerHandle) (event : String) (isSavepoint : Bool) :
    Except Error ServerHandle → ServerState → Prop where
  | refused {e : Error} {events : List String} (refused : s.peer.refused.contains event = true) :
      Opening s t event isSavepoint (.error e) (s.see events)
  | opened (accepted : s.peer.refused.contains event = false) :
      Opening s t event isSavepoint (.ok (.transaction s.transactions.length))
        ((s.see [event]).opened t isSavepoint).2

/-- A transaction is begun, or that is refused and rolled back at once. -/
theorem takes_beginOn {s s' : ServerState} (works : Works s) {c : ServerHandle} (known : Known s c)
    {answer : Except Error ServerHandle} (takes : (beginOn c).Takes s answer s') :
    Opening s c "begin" false answer s' := by
  obtain ⟨log, log', run⟩ := takes
  rw [beginOn, Action.perform_bind, perform_command works known] at run
  cases refused : s.peer.refused.contains "begin" with
  | true =>
    rw [refused] at run
    change (command c "rollback" >>= fun _ => throw (.msg "While starting a transaction")).perform _
      = _ at run
    rw [Action.perform_bind, perform_command (works.see _) (known.see _), see_see] at run
    cases run
    exact .refused refused
  | false =>
    rw [refused] at run
    cases run
    exact .opened refused

/-- A savepoint is opened, or that is refused. -/
theorem takes_savepoint {s s' : ServerState} (works : Works s) {t : ServerHandle} (known : Known s t)
    {answer : Except Error ServerHandle} (takes : (savepoint t).Takes s answer s') :
    Opening s t "savepoint" true answer s' := by
  obtain ⟨log, log', run⟩ := takes
  rw [savepoint, Action.perform_bind, perform_boundary works known, answerTo] at run
  cases refused : s.peer.refused.contains "savepoint" with
  | true =>
    rw [refused, if_pos rfl] at run
    cases run
    exact .refused refused
  | false =>
    rw [refused, if_neg Bool.false_ne_true] at run
    cases run
    exact .opened refused

theorem perform_rollback {s : ServerState} (works : Works s) {t : ServerHandle} (known : Known s t)
    (log : List LogRecord) :
    (rollback t).perform ⟨s, log⟩
      = (answerTo s (rollbackEvent (s.transaction t)) "While rolling back a transaction",
          ⟨s.see [rollbackEvent (s.transaction t)], log⟩) :=
  perform_boundary works known _ _ log

theorem takes_rollback {s s' : ServerState} (works : Works s) {t : ServerHandle} (known : Known s t)
    {answer : Except Error Unit} (takes : (rollback t).Takes s answer s') :
    answer = answerTo s (rollbackEvent (s.transaction t)) "While rolling back a transaction"
      ∧ s' = s.see [rollbackEvent (s.transaction t)] := by
  obtain ⟨log, log', run⟩ := takes
  rw [perform_rollback works known] at run
  cases run
  exact ⟨rfl, rfl⟩

/-- A commit of a transaction that is marked rollback-only rolls it back and fails. -/
theorem takes_commit {s s' : ServerState} (works : Works s) {t : ServerHandle} (known : Known s t)
    {answer : Except Error Unit} (takes : (commit t).Takes s answer s') :
    (markedIn s t = true →
        answer = (answerTo s (rollbackEvent (s.transaction t)) "While rolling back a transaction").bind
          (fun _ => .error .unexpectedRollback)
        ∧ s' = s.see [rollbackEvent (s.transaction t)])
      ∧ (markedIn s t = false →
        answer = answerTo s (commitEvent (s.transaction t)) "While committing a transaction"
        ∧ s' = s.see [commitEvent (s.transaction t)]) := by
  obtain ⟨log, log', run⟩ := takes
  have parts : (commit t).perform ⟨s, log⟩
      = (if markedIn s t then do
          Action.note (.debug "Rolling back a transaction marked rollback-only")
          rollback t
          throw .unexpectedRollback
        else boundary t (commitEvent (s.transaction t)) "While committing a transaction"
        : Action ServerState Unit).perform ⟨s, log⟩ := rfl
  rw [parts] at run
  cases marked : markedIn s t with
  | true =>
    rw [marked, if_pos rfl] at run
    rcases Action.bind_cases run with ⟨e, -, notes⟩ | ⟨_, j₁, notes, run⟩
    · cases notes
    · cases notes
      rw [Action.perform_bind, perform_rollback works known] at run
      refine ⟨fun _ => ?_, nofun⟩
      cases rolled : answerTo s (rollbackEvent (s.transaction t)) "While rolling back a transaction" with
      | ok u =>
        rw [rolled] at run
        cases run
        exact ⟨rfl, rfl⟩
      | error e =>
        rw [rolled] at run
        cases run
        exact ⟨rfl, rfl⟩
  | false =>
    rw [marked, if_neg Bool.false_ne_true, perform_boundary works known] at run
    cases run
    exact ⟨nofun, fun _ => ⟨rfl, rfl⟩⟩

/-- A server that refuses no boundary refuses no end of a transaction. -/
theorem Sound.answerTo_end {s : ServerState} (sound : Sound s) {t : ServerTransaction} {event : String}
    (ends : event = commitEvent t ∨ event = rollbackEvent t) (failure : String) :
    answerTo s event failure = .ok () := by
  have boundary : event ∈ transactionBoundaries := by
    unfold commitEvent rollbackEvent at ends
    rcases ends with rfl | rfl <;> split <;> decide
  rw [answerTo, sound.obliging event boundary, if_neg Bool.false_ne_true]

theorem takes_mark {s s' : ServerState} {t : ServerHandle} {answer : Except Error Unit}
    (takes : (Action.change fun s => s.marked t).Takes s answer s') :
    answer = .ok () ∧ s' = s.marked t := by
  obtain ⟨log, log', run⟩ := takes
  cases run
  exact ⟨rfl, rfl⟩

theorem markedIn_marked {s : ServerState} {index : Nat} (known : index < s.transactions.length) :
    markedIn (s.marked (.transaction index))
      = Function.update (markedIn s) (.transaction index) true := by
  funext t
  cases t with
  | connection other => simp [markedIn, ServerState.transaction]
  | transaction other =>
    by_cases same : other = index
    · subst same
      simp [markedIn, ServerState.transaction, ServerState.marked, known]
    · simp [markedIn, ServerState.transaction, ServerState.marked, same, Ne.symm same]

theorem sound_marked {s : ServerState} (sound : Sound s) (t : ServerHandle) : Sound (s.marked t) := by
  cases t with
  | connection index => exact sound
  | transaction index =>
    refine ⟨sound.obliging, sound.steady, sound.alive, ?_⟩
    intro t mem
    obtain ⟨k, hk⟩ := List.mem_iff_getElem?.1 mem
    simp only [ServerState.marked] at hk
    rw [List.getElem?_modify] at hk
    obtain ⟨before, there, rfl⟩ := Option.map_eq_some_iff.1 hk
    have placed := sound.placed before (List.mem_of_getElem? there)
    split <;> exact placed

/-! ## 4. Connections -/

/-- A connection is opened under a new handle, or it is not. -/
theorem takes_connect {address : String} {s s' : ServerState} {answer : Except Error ServerHandle}
    (takes : (connect address).Takes s answer s') :
    ∃ events, (∃ e, answer = .error e ∧ s' = s.see events)
      ∨ answer = .ok (.connection s.connections.length) ∧ s' = (s.see events).connected.2 := by
  obtain ⟨log, log', run⟩ := takes
  -- an address that cannot be read leaves everything as it is
  have refused : ∀ e, (answer, s') = (Except.error e, s) →
      ∃ events, (∃ e, answer = .error e ∧ s' = s.see events)
        ∨ answer = .ok (.connection s.connections.length) ∧ s' = (s.see events).connected.2 := by
    rintro e ⟨rfl, rfl⟩
    exact ⟨[], .inl ⟨e, rfl, (see_nil s).symm⟩⟩
  unfold connect at run
  dsimp only at run
  split at run
  · cases run
    exact refused _ rfl
  · split at run
    · cases run
      exact refused _ rfl
    · split at run
      · cases run
        exact refused _ rfl
      · rename_i u _
        rcases Action.bind_cases run with ⟨e, -, reads⟩ | ⟨s₁, j₁, reads, run⟩
        · cases reads
        · cases reads
          split at run
          · cases run
            exact ⟨_, .inr ⟨rfl, rfl⟩⟩
          · cases run
            exact ⟨_, .inl ⟨_, rfl, rfl⟩⟩

theorem works_connected {s : ServerState} (works : Works s) : Works s.connected.2 where
  steady := works.steady
  alive := by
    intro works' mem
    rcases List.mem_append.1 mem with old | new
    · exact works.alive works' old
    · rw [List.mem_singleton.1 new]
  placed := by
    intro t mem
    show t.connection < (s.connections ++ [true]).length
    rw [List.length_append, List.length_singleton]
    exact Nat.lt_succ_of_lt (works.placed t mem)

theorem sound_connected {s : ServerState} (sound : Sound s) : Sound s.connected.2 :=
  (works_connected sound.works).sound sound.obliging

theorem markedIn_connected (s : ServerState) : markedIn s.connected.2 = markedIn s := by
  funext t
  cases t with
  | connection index => rfl
  | transaction index =>
    show (s.transactions[index]?.getD _).rollbackOnly = (s.transactions[index]?.getD _).rollbackOnly
    cases s.transactions[index]? <;> rfl

/-! ## 5. Ledgers -/

/-- The transactions of a ledger were opened. -/
def Covers (s : ServerState) (l : Ledger ServerHandle Query) : Prop :=
  ∀ t, (l.work t).isSome → ∃ index, t = .transaction index ∧ index < s.transactions.length

namespace Covers

variable {s s' : ServerState} {l l' : Ledger ServerHandle Query}

/-- A transaction that is in the ledger was opened. -/
theorem known (covers : Covers s l) {t : ServerHandle} {w : Work ServerHandle Query}
    (entered : l.work t = some w) : Known s t := by
  obtain ⟨index, rfl, bound⟩ := covers t (by rw [entered]; rfl)
  exact bound

/-- The next handle is not in the ledger. -/
theorem fresh (covers : Covers s l) : l.work (.transaction s.transactions.length) = none := by
  by_contra known
  obtain ⟨index, same, bound⟩ := covers _ (Option.isSome_iff_ne_none.2 known)
  cases same
  exact Nat.lt_irrefl _ bound

/-- A ledger that gets no other transaction. -/
theorem of_known (covers : Covers s l) (grows : s.transactions.length ≤ s'.transactions.length)
    (same : ∀ t, (l'.work t).isSome → (l.work t).isSome) : Covers s' l' := by
  intro t entered
  obtain ⟨index, here, bound⟩ := covers t (same t entered)
  exact ⟨index, here, Nat.lt_of_lt_of_le bound grows⟩

/-- A ledger that gets the transaction that is opened. -/
theorem opened (covers : Covers s l) (t : ServerHandle) (isSavepoint : Bool)
    (parent? : Option ServerHandle) :
    Covers (s.opened t isSavepoint).2 (l.opened (.transaction s.transactions.length) parent?) := by
  intro u entered
  have longer : (s.opened t isSavepoint).2.transactions.length = s.transactions.length + 1 :=
    List.length_append
  rw [longer]
  rcases Ledger.known_opened.1 entered with new | old
  · exact ⟨_, new, Nat.lt_succ_self _⟩
  · obtain ⟨index, here, bound⟩ := covers u old
    exact ⟨index, here, Nat.lt_succ_of_lt bound⟩

/-- Behind its boundary, what is opened is new to the ledger and not marked. -/
theorem opens (covers : Covers s l) (works : Works s) {t : ServerHandle} (known : Known s t)
    (event : String) (isSavepoint : Bool) (parent? : Option ServerHandle) :
    Works ((s.see [event]).opened t isSavepoint).2
      ∧ Covers ((s.see [event]).opened t isSavepoint).2
        (l.opened (.transaction s.transactions.length) parent?)
      ∧ l.work (.transaction s.transactions.length) = none
      ∧ markedIn ((s.see [event]).opened t isSavepoint).2
        = Function.update (markedIn s) (.transaction s.transactions.length) false := by
  refine ⟨works_opened (works.see _) (known.see _) isSavepoint, covers.opened t isSavepoint parent?,
    covers.fresh, ?_⟩
  rw [markedIn_opened, markedIn_see]
  rfl

end Covers

/-! ## 6. Calls -/

/-- A server's store with the calls that were made of it. Transactions that are in the ledger were
opened. -/
structure SoundCalls (x : ServerState × List (Exchange ServerHandle)) : Prop where
  sound : Sound x.1
  opened : ∀ {t : ServerHandle},
    (((Ledger.replay id x.2 : Ledger ServerHandle Query)).work t).isSome →
    ∃ index, t = .transaction index ∧ index < x.1.transactions.length

/-- A server that refuses no boundary and ends no connection, once its first client has connected. -/
theorem soundCalls_connected {peer : Peer} {defaults : EncryptionDefaults}
    (obliging : ∀ event ∈ transactionBoundaries, peer.refused.contains event = false)
    (steady : ∀ rule ∈ peer.rules, rule.answer.ending ≠ .severed) :
    SoundCalls ((ServerState.start peer defaults).connected.2, []) where
  sound := sound_connected ⟨obliging, steady, nofun, nofun⟩
  opened := nofun

/-- A client that has connected. -/
def Connected (s : ServerState) (c : ServerHandle) : Prop :=
  ∃ index, c = .connection index ∧ index < s.connections.length

theorem Connected.known {s : ServerState} {c : ServerHandle} (connected : Connected s c) :
    Known s c := by
  obtain ⟨index, rfl, bound⟩ := connected
  exact bound

section Recording

variable {address : String} {s s' : ServerState} {calls calls' : List (Exchange ServerHandle)}
  {t : ServerHandle} {w : Work ServerHandle Query} {call : Exchange ServerHandle}

/-- A statement only adds events, and is recorded. -/
theorem takes_recordedStatement (works : Works s) (statement : call.StatementIn t)
    (takes : call.Takes (store address).recording (s, calls) (s', calls')) :
    (∃ events, s' = s.see events) ∧ calls' = calls ++ [call] := by
  have called : call.Takes (store address) s s' ∧ calls' = calls ++ [call] := by
    cases statement <;> exact Action.takes_of_recorded takes
  exact ⟨takes_statement address works statement called.1, called.2⟩

namespace SoundCalls

theorem covers (sound : SoundCalls (s, calls)) : Covers s (Ledger.replay id calls) :=
  fun _ => sound.opened

/-- A call after which the server is sound and the ledger is covered keeps everything sound. -/
theorem of_call (sound : Sound s) (covers : Covers s ((Ledger.replay id calls).after id call)) :
    SoundCalls (s, calls ++ [call]) where
  sound := sound
  opened := by
    rw [Ledger.replay_concat]
    exact covers _

/-- A call that only adds events, where it enters no other transaction. -/
theorem of_see (sound : SoundCalls (s, calls)) (call : Exchange ServerHandle) (events : List String)
    {l : Ledger ServerHandle Query} (after : (Ledger.replay id calls).after id call = l)
    (same : ∀ u, (l.work u).isSome → ((Ledger.replay id calls).work u).isSome) :
    SoundCalls (s.see events, calls ++ [call]) ∧ Ledger.replay id (calls ++ [call]) = l
      ∧ markedIn (s.see events) = markedIn s := by
  subst after
  exact ⟨.of_call (sound.sound.see events) (sound.covers.of_known (Nat.le_refl _) same),
    Ledger.replay_concat .., markedIn_see s events⟩

/-- A call that opens a transaction or a savepoint is not refused. -/
theorem of_opening {entry : Except Error ServerHandle → Exchange ServerHandle} {event : String}
    {isSavepoint : Bool} {parent? : Option ServerHandle} {answer : Except Error ServerHandle}
    (sound : SoundCalls (s, calls)) (known : Known s t) (boundary : event ∈ transactionBoundaries)
    (after : ∀ u, (Ledger.replay id calls).after id (entry (.ok u))
      = (Ledger.replay id calls).opened u parent?)
    (opening : Opening s t event isSavepoint answer s') :
    SoundCalls (s', calls ++ [entry answer]) ∧ ∃ u, answer = .ok u
      ∧ (Ledger.replay id calls).work u = none
      ∧ Ledger.replay id (calls ++ [entry answer]) = (Ledger.replay id calls).opened u parent?
      ∧ markedIn s' = Function.update (markedIn s) u false := by
  cases opening with
  | refused refused =>
    rw [sound.sound.obliging event boundary] at refused
    cases refused
  | opened =>
    obtain ⟨works, covers, fresh, flags⟩ :=
      sound.covers.opens sound.sound.works known event isSavepoint parent?
    refine ⟨.of_call (works.sound sound.sound.obliging) ?_, _, rfl, fresh, ?_, flags⟩
    · rwa [after]
    · rw [Ledger.replay_concat, after]

/-- Connecting enters nothing. -/
theorem acquires {answer : Except Error ServerHandle} (sound : SoundCalls (s, calls))
    (takes : (Exchange.acquire answer).Takes (store address).recording (s, calls) (s', calls')) :
    SoundCalls (s', calls') ∧ Ledger.replay id calls' = Ledger.replay id calls
      ∧ markedIn s' = markedIn s ∧ ∀ c, answer = .ok c → Connected s' c := by
  obtain ⟨takes, rfl⟩ := Action.takes_of_recorded takes
  obtain ⟨events, ⟨e, rfl, rfl⟩ | ⟨rfl, rfl⟩⟩ := takes_connect takes
  · obtain ⟨sound', entered, flags⟩ := sound.of_see (.acquire (.error e)) events rfl fun _ => id
    exact ⟨sound', entered, flags, nofun⟩
  · refine ⟨.of_call (sound_connected (sound.sound.see events)) sound.covers,
      Ledger.replay_concat .., ?_, ?_⟩
    · exact (markedIn_connected _).trans (markedIn_see s events)
    · rintro _ ⟨rfl⟩
      refine ⟨_, rfl, ?_⟩
      show s.connections.length < (s.connections ++ [true]).length
      simp

theorem begins {c : ServerHandle} {answer : Except Error ServerHandle} (sound : SoundCalls (s, calls))
    (connected : Connected s c)
    (takes : (Exchange.begin c answer).Takes (store address).recording (s, calls) (s', calls')) :
    SoundCalls (s', calls') ∧ ∃ u, answer = .ok u ∧ (Ledger.replay id calls).work u = none
      ∧ Ledger.replay id calls' = (Ledger.replay id calls).opened u none
      ∧ markedIn s' = Function.update (markedIn s) u false := by
  obtain ⟨takes, rfl⟩ := Action.takes_of_recorded takes
  have opening := takes_beginOn sound.sound.works connected.known takes
  exact sound.of_opening connected.known (by decide) (fun _ => rfl) opening

theorem savepoints {answer : Except Error ServerHandle} (sound : SoundCalls (s, calls))
    (entered : (Ledger.replay id calls).work t = some w)
    (takes : (Exchange.savepoint t answer).Takes (store address).recording (s, calls) (s', calls')) :
    SoundCalls (s', calls') ∧ ∃ u, answer = .ok u ∧ (Ledger.replay id calls).work u = none
      ∧ Ledger.replay id calls' = (Ledger.replay id calls).opened u (some t)
      ∧ markedIn s' = Function.update (markedIn s) u false := by
  obtain ⟨takes, rfl⟩ := Action.takes_of_recorded takes
  have known := sound.covers.known entered
  have opening := takes_savepoint sound.sound.works known takes
  exact sound.of_opening known (by decide) (fun _ => rfl) opening

theorem runs (sound : SoundCalls (s, calls)) (statement : call.StatementIn t)
    (takes : call.Takes (store address).recording (s, calls) (s', calls')) :
    SoundCalls (s', calls')
      ∧ Ledger.replay id calls' = (Ledger.replay id calls).added t (call.done id)
      ∧ markedIn s' = markedIn s := by
  obtain ⟨⟨events, rfl⟩, rfl⟩ := takes_recordedStatement sound.sound.works statement takes
  refine sound.of_see call events ?_ fun u => Ledger.known_added.1
  cases statement <;> rfl

/-- A commit is refused where the transaction is marked rollback-only, and only there. -/
theorem commits {answer : Except Error Unit} (sound : SoundCalls (s, calls))
    (entered : (Ledger.replay id calls).work t = some w)
    (takes : (Exchange.commit t answer).Takes (store address).recording (s, calls) (s', calls')) :
    SoundCalls (s', calls') ∧ markedIn s' = markedIn s
      ∧ (markedIn s t = true → answer = .error .unexpectedRollback
        ∧ Ledger.replay id calls' = Ledger.replay id calls)
      ∧ (markedIn s t = false → answer = .ok ()
        ∧ Ledger.replay id calls' = (Ledger.replay id calls).kept t) := by
  obtain ⟨takes, rfl⟩ := Action.takes_of_recorded takes
  obtain ⟨refuses, keeps⟩ := takes_commit sound.sound.works (sound.covers.known entered) takes
  rw [sound.sound.answerTo_end (.inr rfl)] at refuses
  rw [sound.sound.answerTo_end (.inl rfl)] at keeps
  cases marked : markedIn s t with
  | true =>
    obtain ⟨rfl, rfl⟩ := refuses marked
    obtain ⟨sound', entered', flags⟩ := sound.of_see (.commit t (.error .unexpectedRollback)) _
      rfl fun _ => id
    exact ⟨sound', flags, fun _ => ⟨rfl, entered'⟩, nofun⟩
  | false =>
    obtain ⟨rfl, rfl⟩ := keeps marked
    obtain ⟨sound', entered', flags⟩ := sound.of_see (.commit t (.ok ())) _ rfl
      fun _ => Ledger.known_kept.1
    exact ⟨sound', flags, nofun, fun _ => ⟨rfl, entered'⟩⟩

theorem rollsBack {answer : Except Error Unit} (sound : SoundCalls (s, calls))
    (entered : (Ledger.replay id calls).work t = some w)
    (takes : (Exchange.rollback t answer).Takes (store address).recording (s, calls) (s', calls')) :
    SoundCalls (s', calls') ∧ answer = .ok () ∧ Ledger.replay id calls' = Ledger.replay id calls
      ∧ markedIn s' = markedIn s := by
  obtain ⟨takes, rfl⟩ := Action.takes_of_recorded takes
  obtain ⟨answered, rfl⟩ := takes_rollback sound.sound.works (sound.covers.known entered) takes
  rw [sound.sound.answerTo_end (.inr rfl)] at answered
  subst answered
  obtain ⟨sound', entered', flags⟩ := sound.of_see (.rollback t (.ok ())) _ rfl fun _ => id
  exact ⟨sound', rfl, entered', flags⟩

theorem marks {answer : Except Error Unit} (sound : SoundCalls (s, calls))
    (entered : (Ledger.replay id calls).work t = some w)
    (takes : (Exchange.setRollbackOnly t answer).Takes (store address).recording (s, calls)
      (s', calls')) :
    SoundCalls (s', calls') ∧ answer = .ok () ∧ Ledger.replay id calls' = Ledger.replay id calls
      ∧ markedIn s' = Function.update (markedIn s) t true := by
  obtain ⟨takes, rfl⟩ := Action.takes_of_recorded takes
  obtain ⟨index, rfl, bound⟩ := sound.opened (by rw [entered]; rfl)
  obtain ⟨rfl, rfl⟩ := takes_mark takes
  refine ⟨.of_call (sound_marked sound.sound _) ?_, rfl, Ledger.replay_concat ..,
    markedIn_marked bound⟩
  exact sound.covers.of_known (by simp [ServerState.marked]) fun u => id

end SoundCalls

end Recording

/-! ## 7. The store -/

/-- A server's store is dutiful where the server refuses no boundary and ends no connection. What is
durable is what the calls made so, where the commands behind them do what they say. -/
def dutiful (address : String) : Dutiful (store address).recording Query where
  write := id
  ledger x := Ledger.replay id x.2
  marked x := markedIn x.1
  sound := SoundCalls
  ready x := Connected x.1
  acquires := SoundCalls.acquires
  begins := SoundCalls.begins
  savepoints := SoundCalls.savepoints
  runs sound _ := SoundCalls.runs sound
  commits := SoundCalls.commits
  rollsBack := SoundCalls.rollsBack
  marks := SoundCalls.marks

end Server

end TypedStore
