/-
Duty of the store that answers by rule. While it refuses no boundary of transactions, its commands
succeed and do what they say, with what it committed and what its transactions wait with for a ledger.
-/
import TypedStore.Proofs.Plan.Ledger

set_option autoImplicit false

namespace TypedStore

namespace Scripted

/-! ## 1. States -/

/-- What is committed, and what transactions wait with. -/
def ledgerOf (s : ScriptedStore) : Ledger ScriptedHandle String where
  durable := s.committed
  work
    | .connection => none
    | .transaction index =>
      s.transactions[index]?.map fun t => ⟨t.parent?.map .transaction, t.pending⟩

/-- No boundary is refused, and savepoints belong to transactions that were opened. -/
structure Sound (s : ScriptedStore) : Prop where
  obliging : ∀ event ∈ transactionBoundaries, s.refused.contains event = false
  parents : ∀ t ∈ s.transactions, ∀ parent, t.parent? = some parent → parent < s.transactions.length

/-- Whether a transaction is marked rollback-only. -/
def markedIn (s : ScriptedStore) (t : ScriptedHandle) : Bool := (s.transaction t).rollbackOnly

theorem perform_boundary_of_sound {s : ScriptedStore} (sound : Sound s) {event : String}
    (h : event ∈ transactionBoundaries) (log : List LogRecord) :
    (boundary event).perform ⟨s, log⟩ = (.ok (), ⟨s.see event, log⟩) := by
  rw [perform_boundary, sound.obliging event h]
  rfl

/-- A transaction that is known, by its place. -/
theorem of_known {s : ScriptedStore} {t : ScriptedHandle} {w : Work ScriptedHandle String}
    (known : (ledgerOf s).work t = some w) :
    ∃ index found, t = .transaction index ∧ s.transactions[index]? = some found
      ∧ w = ⟨found.parent?.map .transaction, found.pending⟩ := by
  cases t with
  | connection => cases known
  | transaction index =>
    obtain ⟨found, here, same⟩ := Option.map_eq_some_iff.1 known
    exact ⟨index, found, rfl, here, same.symm⟩

/-- States that differ in the answers, the catalog or the events only. -/
structure Alike (s s' : ScriptedStore) : Prop where
  refused : s'.refused = s.refused
  committed : s'.committed = s.committed
  transactions : s'.transactions = s.transactions

theorem Alike.sound {s s' : ScriptedStore} (h : Alike s s') (sound : Sound s) : Sound s' where
  obliging := h.refused ▸ sound.obliging
  parents := h.transactions ▸ sound.parents

theorem Alike.ledgerOf {s s' : ScriptedStore} (h : Alike s s') : ledgerOf s' = ledgerOf s := by
  simp only [Scripted.ledgerOf, h.committed, h.transactions]

theorem Alike.markedIn {s s' : ScriptedStore} (h : Alike s s') : markedIn s' = markedIn s := by
  funext t
  cases t with
  | connection => rfl
  | transaction index => simp only [Scripted.markedIn, ScriptedStore.transaction, h.transactions]

theorem alike_see (s : ScriptedStore) (event : String) : Alike s (s.see event) := ⟨rfl, rfl, rfl⟩

theorem alike_answer (s : ScriptedStore) (q : Query) : Alike s (s.answer q).2 := by
  obtain ⟨transactions, committed⟩ := answer_keeps s q
  refine ⟨?_, committed, transactions⟩
  unfold ScriptedStore.answer
  split
  · rfl
  · split <;> rfl

theorem markedIn_update (s : ScriptedStore) {index : Nat} {found : ScriptedTransaction}
    (here : s.transactions[index]? = some found) (f : ScriptedTransaction → ScriptedTransaction) :
    markedIn (s.changeTransaction index f)
      = Function.update (markedIn s) (.transaction index) (f found).rollbackOnly := by
  funext t
  cases t with
  | connection => simp [markedIn, ScriptedStore.transaction]
  | transaction other =>
    by_cases same : other = index
    · subst same
      simp [markedIn, ScriptedStore.transaction, ScriptedStore.changeTransaction, here]
    · simp [markedIn, ScriptedStore.transaction, ScriptedStore.changeTransaction, same, Ne.symm same]

/-- A change that keeps what a transaction is part of keeps the state sound. -/
theorem Sound.changeTransaction {s : ScriptedStore} (sound : Sound s) (index : Nat)
    {f : ScriptedTransaction → ScriptedTransaction} (keeps : ∀ t, (f t).parent? = t.parent?) :
    Sound (s.changeTransaction index f) where
  obliging := sound.obliging
  parents := by
    intro t mem parent same
    simp only [ScriptedStore.changeTransaction, List.length_modify] at mem ⊢
    obtain ⟨k, hk⟩ := List.mem_iff_getElem?.1 mem
    rw [List.getElem?_modify] at hk
    obtain ⟨before, there, rfl⟩ := Option.map_eq_some_iff.1 hk
    refine sound.parents before (List.mem_of_getElem? there) parent ?_
    split at same
    · rwa [keeps] at same
    · exact same

/-- Statements that are added to a transaction are entered there. -/
theorem ledgerOf_addStatements {s : ScriptedStore} {index : Nat}
    (bound : index < s.transactions.length) (more : List String) :
    ledgerOf (s.addStatements (some index) more) = (ledgerOf s).added (.transaction index) more := by
  have known : (ledgerOf s).work (.transaction index)
      = some ⟨s.transactions[index].parent?.map .transaction, s.transactions[index].pending⟩ := by
    simp [ledgerOf, bound]
  unfold Ledger.added
  rw [known]
  simp only [ledgerOf, ScriptedStore.addStatements, ScriptedStore.changeTransaction, Ledger.mk.injEq,
    true_and]
  funext t
  cases t with
  | connection => simp
  | transaction other =>
    by_cases same : other = index
    · subst same
      simp [bound]
    · simp [same, Ne.symm same]

theorem sound_addStatements {s : ScriptedStore} (sound : Sound s) (parent? : Option Nat)
    (more : List String) : Sound (s.addStatements parent? more) := by
  cases parent? with
  | none => exact ⟨sound.obliging, sound.parents⟩
  | some index => exact sound.changeTransaction index fun _ => rfl

theorem markedIn_addStatements {s : ScriptedStore} (parent? : Option Nat)
    (bound : ∀ index, parent? = some index → index < s.transactions.length) (more : List String) :
    markedIn (s.addStatements parent? more) = markedIn s := by
  cases parent? with
  | none => rfl
  | some index =>
    have inBounds := bound index rfl
    have here := List.getElem?_eq_getElem inBounds
    have flag : markedIn s (.transaction index) = s.transactions[index].rollbackOnly := by
      simp [markedIn, ScriptedStore.transaction, here]
    rw [ScriptedStore.addStatements, markedIn_update s here, ← flag, Function.update_eq_self]

/-! ## 2. Operations -/

/-- Opening a transaction, on its own or in another one. -/
theorem takes_openAt {s s' : ScriptedStore} {event : String} {parent? : Option Nat}
    {answer : Except Error ScriptedHandle} (sound : Sound s) (h : event ∈ transactionBoundaries)
    (within : ∀ parent, parent? = some parent → parent < s.transactions.length)
    (takes : (openAt event parent?).Takes s answer s') :
    Sound s' ∧ ∃ t, answer = .ok t ∧ (ledgerOf s).work t = none
      ∧ ledgerOf s' = (ledgerOf s).opened t (parent?.map .transaction)
      ∧ markedIn s' = Function.update (markedIn s) t false := by
  obtain ⟨log, log', run⟩ := takes
  rw [openAt, Action.perform_bind, perform_boundary_of_sound sound h] at run
  cases run
  refine ⟨⟨sound.obliging, ?_⟩, .transaction s.transactions.length, rfl, ?_, ?_, ?_⟩
  · intro t mem parent same
    have bound : parent < s.transactions.length := by
      rcases List.mem_append.1 mem with old | new
      · exact sound.parents t old parent same
      · rw [List.mem_singleton.1 new] at same
        exact within parent same
    show parent < (s.transactions ++ [_]).length
    simp only [List.length_append, List.length_singleton]
    omega
  · simp [ledgerOf]
  · simp only [ledgerOf, Ledger.opened, Ledger.mk.injEq]
    refine ⟨rfl, ?_⟩
    funext t
    cases t with
    | connection => simp
    | transaction index =>
      show Option.map _ (s.transactions ++ [_])[index]? = _
      rw [getElem?_concat]
      by_cases same : index = s.transactions.length <;> simp [same]
  · funext t
    cases t with
    | connection => simp [markedIn, ScriptedStore.transaction]
    | transaction index =>
      show ((s.transactions ++ [_])[index]?.getD _).rollbackOnly = _
      rw [getElem?_concat]
      by_cases same : index = s.transactions.length
      · simp [same]
      · simp [same, markedIn, ScriptedStore.transaction]

/-- A statement in a transaction is entered unless it fails. -/
theorem runStatement_of_known {s : ScriptedStore} {t : ScriptedHandle}
    {w : Work ScriptedHandle String} (sound : Sound s) (known : (ledgerOf s).work t = some w)
    (q : Query) :
    Sound (s.runStatement t q).2 ∧ markedIn (s.runStatement t q).2 = markedIn s
      ∧ ledgerOf (s.runStatement t q).2
        = (ledgerOf s).added t (if ((s.runStatement t q).1.failure? q).isSome then [] else [q.sql]) := by
  obtain ⟨index, found, rfl, here, -⟩ := of_known known
  -- seeing and answering leave everything alone
  have alike : Alike s ((s.see ("run " ++ q.display)).answer q).2 := by
    obtain ⟨refused, committed, transactions⟩ := alike_answer (s.see ("run " ++ q.display)) q
    exact ⟨refused, committed, transactions⟩
  unfold ScriptedStore.runStatement
  rcases run : (s.see ("run " ++ q.display)).answer q with ⟨a, s₁⟩
  rw [run] at alike
  have bound : index < s₁.transactions.length := by
    rw [alike.transactions]
    exact (List.getElem?_eq_some_iff.1 here).1
  cases failed : (a.failure? q).isSome with
  | true =>
    simp only [failed, if_true, Ledger.added_nil]
    exact ⟨alike.sound sound, alike.markedIn, alike.ledgerOf⟩
  | false =>
    simp only [failed, Bool.false_eq_true, if_false]
    refine ⟨sound_addStatements (alike.sound sound) _ _, ?_, ?_⟩
    · rw [markedIn_addStatements _ _ _, alike.markedIn]
      rintro _ ⟨rfl⟩
      exact bound
    · rw [ledgerOf_addStatements bound, alike.ledgerOf]

theorem takes_statement {s s' : ScriptedStore} {t : ScriptedHandle}
    {w : Work ScriptedHandle String} {call : Exchange ScriptedHandle} (sound : Sound s)
    (known : (ledgerOf s).work t = some w) (statement : call.StatementIn t)
    (takes : call.Takes store s s') :
    Sound s' ∧ ledgerOf s' = (ledgerOf s).added t (call.done Query.sql) ∧ markedIn s' = markedIn s := by
  cases statement with
  | @fetch q answer =>
    obtain ⟨log, log', run⟩ := takes
    obtain ⟨rfl, rfl⟩ : answer = .ok ((s.runStatement t q).1.stream q)
        ∧ s' = (s.runStatement t q).2 := by
      cases run
      exact ⟨rfl, rfl⟩
    obtain ⟨sound', flags, entered⟩ := runStatement_of_known sound known q
    have failed : ((s.runStatement t q).1.stream q).failure?.isSome
        = ((s.runStatement t q).1.failure? q).isSome := Option.isSome_map
    refine ⟨sound', ?_, flags⟩
    rw [entered, Exchange.done, failed]
  | @execute q answer =>
    obtain ⟨log, log', run⟩ := takes
    have parts : (store.execute t q).perform ⟨s, log⟩
        = (Action.ofExcept ((s.runStatement t q).1.affected q)).perform
          ⟨(s.runStatement t q).2, log⟩ := rfl
    rw [parts] at run
    obtain ⟨sound', flags, entered⟩ := runStatement_of_known sound known q
    unfold ScriptedAnswer.affected at run
    cases failed : (s.runStatement t q).1.failure? q with
    | some e =>
      rw [failed] at run entered
      cases run
      exact ⟨sound', entered, flags⟩
    | none =>
      rw [failed] at run entered
      cases run
      exact ⟨sound', entered, flags⟩

/-- A commit of a transaction that is marked rollback-only is refused; every other hands on what the
transaction waits with. -/
theorem takes_commit {s s' : ScriptedStore} {t : ScriptedHandle} {w : Work ScriptedHandle String}
    {answer : Except Error Unit} (sound : Sound s) (known : (ledgerOf s).work t = some w)
    (takes : (store.commit t).Takes s answer s') :
    Sound s' ∧ markedIn s' = markedIn s
      ∧ (markedIn s t = true → answer = .error .unexpectedRollback ∧ ledgerOf s' = ledgerOf s)
      ∧ (markedIn s t = false → answer = .ok () ∧ ledgerOf s' = (ledgerOf s).kept t) := by
  obtain ⟨index, found, rfl, here, same⟩ := of_known known
  obtain ⟨log, log', run⟩ := takes
  have there : s.transaction (.transaction index) = found := by
    rw [ScriptedStore.transaction, here, Option.getD_some]
  have parts : (store.commit (.transaction index)).perform ⟨s, log⟩
      = (if (s.transaction (.transaction index)).rollbackOnly then do
          Action.change fun s₁ => s₁.see "rollback"
          throw .unexpectedRollback
        else do
          boundary (if (s.transaction (.transaction index)).parent?.isSome
            then "release" else "commit")
          Action.change fun s₁ => s₁.addStatements
            (s.transaction (.transaction index)).parent? (s.transaction (.transaction index)).pending
        : Action ScriptedStore Unit).perform ⟨s, log⟩ := rfl
  have flag : markedIn s (.transaction index) = found.rollbackOnly := by rw [markedIn, there]
  rw [parts, there] at run
  rw [flag]
  cases marked : found.rollbackOnly with
  | true =>
    rw [marked] at run
    cases run
    exact ⟨(alike_see s _).sound sound, (alike_see s _).markedIn, fun _ => ⟨rfl, rfl⟩,
      fun unmarked => by cases unmarked⟩
  | false =>
    have boundaryKnown : (if found.parent?.isSome then "release" else "commit")
        ∈ transactionBoundaries := by
      split <;> decide
    rw [marked, if_neg Bool.false_ne_true, Action.perform_bind,
      perform_boundary_of_sound sound boundaryKnown] at run
    cases run
    have parentKnown : ∀ parent, found.parent? = some parent → parent < s.transactions.length :=
      sound.parents found (List.mem_of_getElem? here)
    refine ⟨sound_addStatements ((alike_see s _).sound sound) _ _, ?_,
      (fun marked => by cases marked), fun _ => ⟨rfl, ?_⟩⟩
    · exact markedIn_addStatements (s := s.see _) found.parent? parentKnown found.pending
    · rw [same] at known
      cases within : found.parent? with
      | none =>
        rw [within] at known
        rw [Ledger.kept_of_alone known]
        rfl
      | some parent =>
        rw [within] at known
        rw [Ledger.kept_of_savepoint known]
        exact ledgerOf_addStatements (s := s.see _) (parentKnown parent within) found.pending

theorem takes_rollback {s s' : ScriptedStore} {t : ScriptedHandle} {answer : Except Error Unit}
    (sound : Sound s) (takes : (store.rollback t).Takes s answer s') :
    Sound s' ∧ answer = .ok () ∧ ledgerOf s' = ledgerOf s ∧ markedIn s' = markedIn s := by
  obtain ⟨log, log', run⟩ := takes
  have parts : (store.rollback t).perform ⟨s, log⟩ = (boundary (if (s.transaction t).parent?.isSome
      then "rollback to savepoint" else "rollback")).perform ⟨s, log⟩ := rfl
  have boundaryKnown : (if (s.transaction t).parent?.isSome then "rollback to savepoint"
      else "rollback") ∈ transactionBoundaries := by
    split <;> decide
  rw [parts, perform_boundary_of_sound sound boundaryKnown] at run
  cases run
  exact ⟨(alike_see s _).sound sound, rfl, rfl, (alike_see s _).markedIn⟩

/-- Marking changes nothing but the mark. -/
theorem takes_setRollbackOnly {s s' : ScriptedStore} {t : ScriptedHandle}
    {w : Work ScriptedHandle String} {answer : Except Error Unit} (sound : Sound s)
    (known : (ledgerOf s).work t = some w) (takes : (store.setRollbackOnly t).Takes s answer s') :
    Sound s' ∧ answer = .ok () ∧ ledgerOf s' = ledgerOf s
      ∧ markedIn s' = Function.update (markedIn s) t true := by
  obtain ⟨index, found, rfl, here, -⟩ := of_known known
  obtain ⟨log, log', run⟩ := takes
  cases run
  refine ⟨sound.changeTransaction index fun _ => rfl, rfl, ?_, markedIn_update s here _⟩
  simp only [ledgerOf, ScriptedStore.changeTransaction, Ledger.mk.injEq, true_and]
  funext t
  cases t with
  | connection => rfl
  | transaction other =>
    by_cases same : other = index
    · subst same
      simp [here]
    · simp [Ne.symm same]

/-! ## 3. The store -/

/-- The store that answers by rule is dutiful where no boundary is refused. Statements are entered by
their texts. -/
def dutiful : Dutiful store String where
  write := Query.sql
  ledger := ledgerOf
  marked := markedIn
  sound := Sound
  ready _ _ := True
  acquires := by
    rintro s s' answer sound ⟨log, log', run⟩
    have parts : store.acquire.perform ⟨s, log⟩
        = (boundary "acquire" >>= fun _ => pure .connection).perform ⟨s, log⟩ := rfl
    rw [parts, Action.perform_bind, perform_boundary] at run
    have alike := alike_see s "acquire"
    -- whether it is refused or not, nothing but the events changes
    generalize s.refused.contains "acquire" = refused at run
    cases refused <;> cases run <;>
      exact ⟨alike.sound sound, alike.ledgerOf, alike.markedIn, fun _ _ => trivial⟩
  begins := by
    intro s s' c answer sound _ takes
    have opens : (openAt "begin" none).Takes s answer s' := takes
    refine takes_openAt sound (by decide) ?_ opens
    intro parent same
    cases same
  savepoints := by
    intro s s' t w answer sound known takes
    obtain ⟨index, found, rfl, here, -⟩ := of_known known
    refine takes_openAt sound (by decide) ?_ takes
    rintro _ ⟨rfl⟩
    exact (List.getElem?_eq_some_iff.1 here).1
  runs := takes_statement
  commits := takes_commit
  rollsBack sound _ takes := takes_rollback sound takes
  marks := takes_setRollbackOnly

end Scripted

end TypedStore
