/-
A step on its own and a plan of that step. A step that runs on its own has no other steps to refer to,
and neither has the only step of a plan: its references find the same in either place
(`Step.query_congr`). On stores that answer alike both send the same statement, or none, make the same of
the answer and fail alike, up to the position that a plan puts in front of a failure (`Agrees`).
-/
import TypedStore.Proofs.Plan.Handles
import TypedStore.Proofs.Plan.Propagation

set_option autoImplicit false

namespace TypedStore

variable {σ σ' τ τ' α : Type}

/-! ## 1. References to the same outputs -/

namespace Progress

/-- A reference sees of a run only what the steps left that it reads from. -/
theorem resolve_congr {p p' : Progress} {r : Reference}
    (same : ∀ id ∈ r.sources, p.output id = p'.output id) : p.resolve r = p'.resolve r := by
  induction r with
  | value v => rfl
  | fromStep id part => rw [resolve, resolve, same id (List.mem_singleton.2 rfl)]
  | mapped source convert ih => rw [resolve, resolve, ih same]

theorem resolveAll_congr {p p' : Progress} {entries : List (String × Reference)}
    (same : ∀ id ∈ entries.flatMap fun entry => entry.2.sources, p.output id = p'.output id) :
    p.resolveAll entries = p'.resolveAll entries := by
  induction entries with
  | nil => rfl
  | cons entry rest ih =>
    rw [List.flatMap_cons] at same
    rw [resolveAll, resolveAll, resolve_congr fun id source => same id (List.mem_append_left _ source),
      ih fun id source => same id (List.mem_append_right _ source)]

theorem resolveParams_congr {p p' : Progress} {params : StepParams}
    (same : ∀ id ∈ params.entries.flatMap fun entry => entry.2.sources,
      p.output id = p'.output id) :
    p.resolveParams params = p'.resolveParams params := by
  rw [resolveParams, resolveParams, resolveAll_congr same]

/-- Where nothing has run, every step that is not planned is unknown. -/
theorem output_of_not_planned {planned : List StepId} {id : StepId} (other : id ∉ planned) :
    (⟨planned, []⟩ : Progress).output id = .error (.unknownHandle id) := by
  simp [output, output?, other]

/-- Outside of any plan a reference to a step is refused, whatever it does with what it reads. -/
theorem resolve_none_of_source {r : Reference} {id : StepId} (source : id ∈ r.sources) :
    Progress.none.resolve r = .error (.unknownHandle id) := by
  induction r with
  | value v => cases source
  | fromStep id' part =>
    obtain rfl := List.mem_singleton.1 source
    rw [resolve, none, output_of_not_planned List.not_mem_nil]
    rfl
  | mapped inner convert ih =>
    rw [resolve, ih source]
    rfl

/-- The first reference to a step is refused, if no constant in front of it is. -/
theorem resolveAll_none_of_source {entries : List (String × Reference)} {id : StepId}
    {others : List StepId}
    (sources : (entries.flatMap fun entry => entry.2.sources) = id :: others)
    (constants : ∀ entry ∈ entries, entry.2.sources = [] → (Progress.none.resolve entry.2).isOk) :
    Progress.none.resolveAll entries = .error (.unknownHandle id) := by
  induction entries with
  | nil => cases sources
  | cons entry rest ih =>
    rw [List.flatMap_cons] at sources
    rw [resolveAll]
    rcases reads : entry.2.sources with _ | ⟨id', more⟩
    · -- a constant, which resolves
      rw [reads, List.nil_append] at sources
      have fine := constants entry List.mem_cons_self reads
      rcases resolved : Progress.none.resolve entry.2 with e | first
      · rw [resolved] at fine
        cases fine
      · rw [ih sources fun other mem => constants other (List.mem_cons_of_mem _ mem)]
        rfl
    · rw [reads, List.cons_append] at sources
      obtain rfl := (List.cons.inj sources).1
      rw [resolve_none_of_source (reads ▸ List.mem_cons_self)]
      rfl

end Progress

/-- The statement of a step depends on what the steps left that it reads from. -/
theorem Step.query_congr (r : Registry) {p p' : Progress} {s : Step}
    (same : ∀ id ∈ s.sources, p.output id = p'.output id) : s.query r p = s.query r p' := by
  rw [Step.query, Step.query, Progress.resolveParams_congr same]

/-- A step that does not read from itself has the same statement on its own and as the only step of a
plan. -/
theorem Step.query_alone (r : Registry) {s : Step} {id : StepId} (apart : id ∉ s.sources) :
    s.query r ⟨[id], []⟩ = s.query r .none := by
  refine Step.query_congr r fun other source => ?_
  have different : other ∉ [id] := by
    intro mem
    rw [List.mem_singleton.1 mem] at source
    exact apart source
  rw [Progress.none, Progress.output_of_not_planned different,
    Progress.output_of_not_planned List.not_mem_nil]

/-- A step that reads from a step has no statement on its own. -/
theorem Step.query_none_of_source (r : Registry) {s : Step} {id : StepId} {others : List StepId}
    (sources : s.sources = id :: others)
    (constants : ∀ entry ∈ s.params.entries, entry.2.sources = [] →
      (Progress.none.resolve entry.2).isOk) :
    s.query r .none = .error (.unknownHandle id) := by
  rw [Step.query, Progress.resolveParams, Progress.resolveAll_none_of_source sources constants]
  rfl

/-! ## 2. Stores that answer alike -/

/-- Two stores, each at a target and in a state, answer every statement alike. What was logged before
is no concern of theirs. -/
structure AnswersAlike (store : Store σ τ) (t : τ) (s : σ) (store' : Store σ' τ') (t' : τ')
    (s' : σ') : Prop where
  fetch : ∀ q log log', ((store.fetch t q).perform ⟨s, log⟩).1 = ((store'.fetch t' q).perform ⟨s', log'⟩).1
  execute : ∀ q log log',
    ((store.execute t q).perform ⟨s, log⟩).1 = ((store'.execute t' q).perform ⟨s', log'⟩).1

/-- What a store by rule answers depends on the answers that it has left, not on who asks. -/
theorem Scripted.runStatement_congr {s s' : ScriptedStore} (tape : s'.tape = s.tape)
    (rules : s'.rules = s.rules) (t t' : ScriptedHandle) (q : Query) :
    (s'.runStatement t' q).1 = (s.runStatement t q).1 := by
  have alone : ∀ (s : ScriptedStore) (t : ScriptedHandle),
      (s.runStatement t q).1 = ((s.see ("run " ++ q.display)).answer q).1 := by
    intro s t
    unfold ScriptedStore.runStatement
    dsimp only
    split
    · rfl
    · cases t <;> rfl
  rw [alone, alone, ScriptedStore.answer, ScriptedStore.answer, ScriptedStore.see, ScriptedStore.see,
    tape, rules]
  dsimp only
  split
  · rfl
  · split <;> rfl

/-- Stores by rule answer alike when they have the same answers left, whatever else they hold. -/
theorem Scripted.answersAlike {s s' : ScriptedStore} (tape : s'.tape = s.tape)
    (rules : s'.rules = s.rules) (t t' : ScriptedHandle) :
    AnswersAlike Scripted.store t s Scripted.store t' s' := by
  constructor
  · intro q log log'
    show Except.ok ((s.runStatement t q).1.stream q) = .ok ((s'.runStatement t' q).1.stream q)
    rw [runStatement_congr tape rules]
  · intro q log log'
    show ((Action.ofExcept ((s.runStatement t q).1.affected q)).perform
      ⟨(s.runStatement t q).2, log⟩).1 = ((Action.ofExcept ((s'.runStatement t' q).1.affected q)).perform
        ⟨(s'.runStatement t' q).2, log'⟩).1
    rw [runStatement_congr tape rules t t']
    cases (s.runStatement t q).1.affected q <;> rfl

/-- A statement as it is sent: for rows, or for the number of rows it affects. -/
inductive Request where
  | fetch (q : Query)
  | execute (q : Query)

/-- The statement that a call sends, if it sends one. -/
def Exchange.request? : Exchange τ → Option Request
  | .fetch _ q _ => some (.fetch q)
  | .execute _ q _ => some (.execute q)
  | _ => none

/-- How a strategy sends a statement. -/
def Strategy.request : Strategy → Query → Request
  | .execute, q => .execute q
  | .rows, q | .row, q | .scalar, q | .scalarColumn, q => .fetch q

/-- What a step sends on its own: nothing when a reference, the expansion or the binding fails, and else
its one statement. -/
def Step.requests (r : Registry) (s : Step) : List Request :=
  match s.query r .none with
  | .ok q => [s.form.strategy.request q]
  | .error _ => []

theorem Answered.request? {r : Registry} {t : τ} {q : Query} {strategy : Strategy}
    {call : Exchange τ} {output : Except Error StepOutput}
    (answered : Answered r t q strategy call output) :
    call.request? = some (strategy.request q) := by
  cases answered <;> rfl

/-- What a strategy keeps of alike answers is the same. -/
theorem Answered.eq_of_alike {store : Store σ τ} {store' : Store σ' τ'} {t : τ} {t' : τ'} {s s₁ : σ}
    {s' s₁' : σ'} (alike : AnswersAlike store t s store' t' s') {r : Registry} {q : Query}
    {strategy : Strategy} {call : Exchange τ} {call' : Exchange τ'}
    {output output' : Except Error StepOutput} (answered : Answered r t q strategy call output)
    (answered' : Answered r t' q strategy call' output') (takes : call.Takes store s s₁)
    (takes' : call'.Takes store' s' s₁') : output = output' := by
  -- a strategy fetches in both places or executes in both, and gets the same answer
  have fetched : ∀ {answer answer' : Except Error RowStream},
      (store.fetch t q).Takes s answer s₁ → (store'.fetch t' q).Takes s' answer' s₁' →
        answer = answer' := by
    rintro answer answer' ⟨log, _, one⟩ ⟨log', _, other⟩
    simpa [one, other] using alike.fetch q log log'
  have executed : ∀ {answer answer' : Except Error UInt64},
      (store.execute t q).Takes s answer s₁ → (store'.execute t' q).Takes s' answer' s₁' →
        answer = answer' := by
    rintro answer answer' ⟨log, _, one⟩ ⟨log', _, other⟩
    simpa [one, other] using alike.execute q log log'
  cases answered with
  | execute answer =>
    obtain _ | answer' := answered'
    rw [executed takes takes']
  | rows answer =>
    obtain _ | answer' := answered'
    rw [fetched takes takes']
  | row answer =>
    obtain _ | answer' := answered'
    rw [fetched takes takes']
  | scalar answer =>
    obtain _ | answer' := answered'
    rw [fetched takes takes']
  | scalarColumn answer =>
    obtain _ | answer' := answered'
    rw [fetched takes takes']

/-! ## 3. What runs -/

/-- What an action that is written for any store does on one, from a state on: the calls it makes, in
order, and its answer. -/
def Performs (store : Store σ τ) (act : {σ : Type} → Store σ τ → Action σ α) (s : σ)
    (log : List LogRecord) (calls : List (Exchange τ)) (answer : Except Error α) : Prop :=
  ∃ s' log', (act store).perform ⟨s, log⟩ = (answer, ⟨s', log'⟩)
    ∧ (act store.recording).perform ⟨(s, []), log⟩ = (answer, ⟨(s', calls), log'⟩)

theorem Follows.performs {store : Store σ τ} (act : {σ : Type} → Store σ τ → Action σ α)
    {post : List (Exchange τ) → Except Error α → Prop}
    (follows : Follows store (act store) (act store.recording) post) (s : σ) (log : List LogRecord) :
    ∃ calls answer s', Performs store act s log calls answer ∧ Reaches store s calls s'
      ∧ post calls answer := by
  obtain ⟨answer, s', log', calls, plain, recorded, reaches, holds⟩ := follows s log []
  exact ⟨calls, answer, s', ⟨s', log', plain, recorded⟩, reaches, holds⟩

/-- The calls of a plan that joins a transaction. A failure marks the transaction. -/
inductive JoinRun (r : Registry) (ds : Declarations) (t : τ) (p : Plan) :
    List (Exchange τ) → Except Error PlanResult → Prop where
  | succeeded {statements : List (Exchange τ)} {result : PlanResult}
      (steps : StepsRun r ds t 0 ⟨p.ids, []⟩ .empty p.steps statements (.ok result)) :
      JoinRun r ds t p statements (.ok result)
  | failed {statements : List (Exchange τ)} {e : Error} {marking : Except Error Unit}
      (steps : StepsRun r ds t 0 ⟨p.ids, []⟩ .empty p.steps statements (.error e)) :
      JoinRun r ds t p (statements ++ [.setRollbackOnly t marking])
        (marking.bind fun _ => .error e)

namespace Follows

variable {store : Store σ τ}

/-- A step on its own is a step of a plan without its output. -/
theorem of_runStep (t : τ) (r : Registry) (ds : Declarations) (s : Step) :
    Follows store (runStep store t r ds s) (runStep store.recording t r ds s) fun calls answer =>
      ∃ left, StepRun r ds t .none s calls left ∧ answer = left.map (·.2) := by
  have converts : ∀ output, Follows store _ _ fun calls answer => calls = [] ∧ answer = _ :=
    fun output => of_ofExcept (s.form.convert ds output)
  refine ((of_performStep t r .none s).bind_known _ converts).imp ?_
  rintro calls answer ⟨_, ⟨e, refused, rfl, rfl⟩ | ⟨q, call, bound, rfl, answered⟩, rfl⟩
  · exact ⟨_, .unsent refused, rfl⟩
  · refine ⟨_, .sent bound answered, ?_⟩
    rename_i output
    rcases output with e | output
    · rfl
    · show s.form.convert ds output = Except.map _ ((s.form.convert ds output).bind _)
      rcases s.form.convert ds output with e | typed <;> rfl

theorem of_join (t : τ) (r : Registry) (ds : Declarations) (p : Plan) :
    Follows store (p.join store t r ds) (p.join store.recording t r ds) (JoinRun r ds t p) := by
  have marks : Follows store (store.setRollbackOnly t) (store.recording.setRollbackOnly t)
      fun calls answer => calls = [.setRollbackOnly t answer] :=
    of_recorded _ _ fun _ _ _ takes => takes
  refine (of_run t r ds p).bind_attempt ?_
  intro statements answer steps
  cases answer with
  | ok result =>
    refine (of_pure result).imp ?_
    rintro more answer ⟨rfl, rfl⟩
    rw [List.append_nil]
    exact .succeeded steps
  | error e =>
    refine after_note (marks.bind ?_ ?_)
    · rintro calls failure rfl
      exact .failed steps
    · rintro calls _ rfl
      refine (of_throw e).imp ?_
      rintro more answer ⟨rfl, rfl⟩
      rw [List.append_nil]
      exact .failed steps

end Follows

/-- Runs of the same step that make the same statement leave the same, where the store answers alike. -/
theorem StepRun.eq_of_alike {store : Store σ τ} {store' : Store σ' τ'} {t : τ} {t' : τ'} {s s₁ : σ}
    {s' s₁' : σ'} (alike : AnswersAlike store t s store' t' s') {r : Registry} {ds : Declarations}
    {p p' : Progress} {step : Step} {calls : List (Exchange τ)} {calls' : List (Exchange τ')}
    {left left' : Except Error (StepOutput × StepResult)} (same : step.query r p' = step.query r p)
    (run : StepRun r ds t p step calls left) (run' : StepRun r ds t' p' step calls' left')
    (reaches : Reaches store s calls s₁) (reaches' : Reaches store' s' calls' s₁') : left = left' := by
  cases run with
  | unsent refused =>
    rw [← same] at refused
    cases run' with
    | unsent refused' => rw [Except.error.inj (refused.symm.trans refused')]
    | sent bound' => cases refused.symm.trans bound'
  | sent bound answered =>
    rw [← same] at bound
    cases run' with
    | unsent refused' => cases bound.symm.trans refused'
    | sent bound' answered' =>
      obtain rfl := Except.ok.inj (bound.symm.trans bound')
      obtain _ | ⟨takes, _⟩ := reaches
      obtain _ | ⟨takes', _⟩ := reaches'
      rw [answered.eq_of_alike alike answered' takes takes']

/-- A step sends what it sends on its own, wherever it has the same statement. -/
theorem StepRun.requests {r : Registry} {ds : Declarations} {t : τ} {p : Progress} {s : Step}
    {calls : List (Exchange τ)} {left : Except Error (StepOutput × StepResult)}
    (run : StepRun r ds t p s calls left) (same : s.query r p = s.query r .none) :
    calls.filterMap Exchange.request? = s.requests r := by
  cases run with
  | unsent refused =>
    rw [Step.requests, ← same, refused]
    rfl
  | sent bound answered =>
    rw [Step.requests, ← same, bound]
    simp [answered.request?]

/-- The only step of a plan decides what the plan leaves. -/
theorem StepsRun.of_single {r : Registry} {ds : Declarations} {t : τ} {progress : Progress} {id : StepId}
    {s : Step} {calls : List (Exchange τ)} {answer : Except Error PlanResult}
    (run : StepsRun r ds t 0 progress .empty [⟨id, s⟩] calls answer) :
    ∃ left, StepRun r ds t progress s calls left
      ∧ answer = (left.mapError (.step 0)).map fun pair => PlanResult.empty.record id pair.2 := by
  cases run with
  | failed run => exact ⟨_, run, rfl⟩
  | next run others =>
    cases others
    rw [List.append_nil]
    exact ⟨_, run, rfl⟩

theorem PlanResult.get_record (result : PlanResult) (id : StepId) (x : StepResult) :
    (result.record id x).get id = .ok x := by
  simp [record, get]

/-! ## 4. Alone and as a plan -/

/-- The calls and the answers of a step on its own and of a plan of that step agree. -/
structure Agrees (r : Registry) (s : Step) (id : StepId) (calls : List (Exchange τ))
    (answer : Except Error StepResult) (calls' : List (Exchange τ'))
    (answer' : Except Error PlanResult) : Prop where
  sends : calls.filterMap Exchange.request? = s.requests r
  sends' : calls'.filterMap Exchange.request? = s.requests r
  result : ∀ x, answer = .ok x ↔ ∃ results, answer' = .ok results ∧ results.get id = .ok x
  failure : ∀ e, answer = .error e ↔ answer' = .error (.step 0 e)
  /-- A step that reads from a step finds none, unless a constant is refused before. -/
  unknown : ∀ source others, s.sources = source :: others →
    (∀ entry ∈ s.params.entries, entry.2.sources = [] → (Progress.none.resolve entry.2).isOk) →
    s.requests r = [] ∧ answer = .error (.unknownHandle source)

/-- Two runs that make the same of their answers agree. -/
theorem agrees_of_runs {r : Registry} {ds : Declarations} {s : Step} {id : StepId} {t : τ} {t' : τ'}
    {calls : List (Exchange τ)} {calls' : List (Exchange τ')}
    {left : Except Error (StepOutput × StepResult)} (apart : id ∉ s.sources)
    (run : StepRun r ds t .none s calls left) (run' : StepRun r ds t' ⟨[id], []⟩ s calls' left)
    {ends : List (Exchange τ')} (silent : ends.filterMap Exchange.request? = []) :
    Agrees r s id calls (left.map (·.2)) (calls' ++ ends)
      ((left.mapError (.step 0)).map fun pair => PlanResult.empty.record id pair.2) where
  sends := run.requests rfl
  sends' := by
    rw [List.filterMap_append, silent, List.append_nil]
    exact run'.requests (Step.query_alone r apart)
  result x := by
    rcases left with e | ⟨output, typed⟩
    · simp [Except.map, Except.mapError]
    · simp [Except.map, Except.mapError, PlanResult.get_record]
  failure e := by
    rcases left with e' | pair <;> simp [Except.map, Except.mapError]
  unknown source others sources constants := by
    have refused := Step.query_none_of_source r sources constants
    refine ⟨by rw [Step.requests, refused], ?_⟩
    cases run with
    | unsent refused' =>
      rw [← Except.error.inj (refused.symm.trans refused')]
      rfl
    | sent bound _ => cases refused.symm.trans bound

/-- **A step runs on its own as it runs as a plan.** Let a program hold a plan of one step, however it
built it, and let two stores answer alike. The step on its own, run on the one, and the plan, run within
a transaction of the other, send the same statements, the step's one or none; the step succeeds with
what the plan holds for its handle, and fails with what the plan reports for its first step. -/
theorem step_agrees_with_plan {calls : List PlanCall} {w : Workshop}
    (built : Workshop.start.follow calls = some w) {n : Nat} {d : Draft} (held : w.drafts n = some d)
    {id : StepId} {s : Step} (only : d.plan.steps = [⟨id, s⟩]) {store : Store σ τ} {t : τ} {st : σ}
    {store' : Store σ' τ'} {t' : τ'} {st' : σ'} (alike : AnswersAlike store t st store' t' st')
    (marks : ∀ j, ((store'.setRollbackOnly t').perform j).1 = .ok ()) (r : Registry)
    (ds : Declarations) (log log' : List LogRecord) :
    ∃ made answer made' answer',
      Performs store (fun store => runStep store t r ds s) st log made answer
        ∧ Performs store' (fun store => d.plan.join store t' r ds) st' log' made' answer'
        ∧ Agrees r s id made answer made' answer' := by
  have sound := Workshop.sound_start.of_follow built
  -- the sources of the step have smaller numbers than the step itself
  have apart : id ∉ s.sources := by
    intro source
    have planned := sound.planned held ⟨id, s⟩ (by rw [only]; exact List.mem_singleton.2 rfl)
    exact Nat.lt_irrefl _ (sound.earlier planned id source)
  have planned : d.plan.ids = [id] := by rw [Plan.ids, only, List.map_singleton]
  have same := Step.query_alone r apart
  obtain ⟨made, answer, st₁, performs, reaches, left, run, rfl⟩ :=
    (Follows.of_runStep t r ds s).performs (fun store => runStep store t r ds s) st log
  obtain ⟨made', answer', st₁', performs', reaches', joins⟩ :=
    (Follows.of_join t' r ds d.plan).performs (fun store => d.plan.join store t' r ds) st' log'
  refine ⟨made, _, made', answer', performs, performs', ?_⟩
  cases joins with
  | succeeded steps =>
    rw [planned, only] at steps
    obtain ⟨left', run', result⟩ := steps.of_single
    obtain rfl := run.eq_of_alike alike same run' reaches reaches'
    rw [result, ← List.append_nil made']
    exact agrees_of_runs apart run run' rfl
  | @failed statements e marking steps =>
    rw [planned, only] at steps
    obtain ⟨left', run', result⟩ := steps.of_single
    obtain ⟨st₂', statements', takes⟩ := reaches'.of_concat
    obtain rfl := run.eq_of_alike alike same run' reaches statements'
    -- marking a transaction cannot fail, so the failure of the step is the answer
    obtain ⟨before, after, marked⟩ := takes
    obtain rfl : marking = .ok () := by
      have := marks ⟨st₂', before⟩
      rwa [marked] at this
    show Agrees r s id made _ _ (.error e)
    rw [result]
    exact agrees_of_runs apart run run' rfl

/-- Two plans of one step. The step of the second reads from that of the first. -/
def twoSingles : List PlanCall :=
  [.new 0, .add 0 ⟨"INSERT 1", .empty, .execute⟩, .new 1,
    .add 1 ⟨"INSERT :one", Dict.empty.insert "one" (.valueOf ⟨1⟩), .execute⟩]

/-- On a connection of a store by rule, and in a transaction of another one with the same rules: the
first step runs either way, the second reads from a step that is not there. -/
theorem step_agrees_with_plan_twoSingles :
    ∃ w d e, Workshop.start.follow twoSingles = some w ∧ w.drafts 0 = some d ∧ w.drafts 1 = some e
      ∧ (∃ made x made' result,
          Performs Scripted.store (fun store => runStep store .connection .empty []
            ⟨"INSERT 1", .empty, .execute⟩) rejectingDeletes [] made (.ok x)
          ∧ Performs Scripted.store (fun store => d.plan.join store (.transaction 0) .empty [])
            (rejectingDeletes.opened none).2 [] made' (.ok result)
          ∧ result.get ⟨1⟩ = .ok x
          ∧ made'.filterMap Exchange.request? = made.filterMap Exchange.request?
          ∧ (made.filterMap Exchange.request?).length = 1)
      ∧ ∃ made', Performs Scripted.store (fun store => e.plan.join store (.transaction 0) .empty [])
            (rejectingDeletes.opened none).2 [] made' (.error (.step 0 (.unknownHandle ⟨1⟩)))
          ∧ made'.filterMap Exchange.request? = [] := by
  have alike : AnswersAlike Scripted.store .connection rejectingDeletes Scripted.store
      (.transaction 0) (rejectingDeletes.opened none).2 := Scripted.answersAlike (by rfl) (by rfl) _ _
  have marks : ∀ j, ((Scripted.store.setRollbackOnly (.transaction 0)).perform j).1 = .ok () :=
    fun _ => rfl
  have built : Workshop.start.follow twoSingles = some _ := rfl
  refine ⟨_, _, _, built, rfl, rfl, ?_, ?_⟩
  · obtain ⟨made, answer, made', answer', performs, performs', agrees⟩ :=
      step_agrees_with_plan built (n := 0) rfl rfl alike marks .empty [] [] []
    have succeeds : ((runStep Scripted.store .connection .empty []
        ⟨"INSERT 1", .empty, .execute⟩).perform ⟨rejectingDeletes, []⟩).1.isOk = true := by
      decide +kernel
    obtain ⟨x, rfl⟩ : ∃ x, answer = .ok x := by
      obtain ⟨_, _, performed, -⟩ := performs
      rw [performed] at succeeds
      cases answer with
      | ok x => exact ⟨x, rfl⟩
      | error e => cases succeeds
    obtain ⟨result, rfl, found⟩ := (agrees.result x).1 rfl
    have one : (Step.requests .empty ⟨"INSERT 1", .empty, .execute⟩).length = 1 := by decide +kernel
    exact ⟨made, x, made', result, performs, performs', found, agrees.sends'.trans agrees.sends.symm,
      by rw [agrees.sends, one]⟩
  · obtain ⟨made, answer, made', answer', performs, performs', agrees⟩ :=
      step_agrees_with_plan built (n := 1) rfl rfl alike marks .empty [] [] []
    obtain ⟨silent, unknown⟩ := agrees.unknown ⟨1⟩ [] rfl (by
      -- the only parameter is no constant
      intro entry mem constant
      obtain rfl := List.mem_singleton.1 mem
      cases constant)
    rw [(agrees.failure _).1 unknown] at performs'
    exact ⟨made', performs', agrees.sends'.trans silent⟩

end TypedStore
