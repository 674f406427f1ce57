/-
What handles mean while a plan runs. The steps in front pass, each leaving an output and a typed result
(`Plan.Passes`), up to the end or to the first step that fails (`Plan.Ends`); this is every run of a plan
on any store. At each point of it, a handle that was given out for a step reads the output of that very
step, and the results of a run are those of its steps under their handles.
-/
import TypedStore.Proofs.Plan.References

set_option autoImplicit false

namespace TypedStore

variable {σ τ : Type}

/-! ## 1. Runs -/

namespace Plan

/-- Steps of a plan that succeed, from the first on, each on the journal that the one before it left,
with what they leave and their typed results. -/
inductive Passes (store : Store σ τ) (t : τ) (r : Registry) (ds : Declarations) (p : Plan)
    (j : Journal σ) : List (StepOutput × StepResult) → Journal σ → Prop where
  | none : Passes store t r ds p j [] j
  | next {done : List (StepOutput × StepResult)} {j₁ j₂ : Journal σ} {s : PlannedStep}
      {left : StepOutput × StepResult} (before : Passes store t r ds p j done j₁)
      (here : p.steps[done.length]? = some s)
      (run : (runPlanned store t r ds (p.progress (done.map (·.1))) s.step).perform j₁
        = (.ok left, j₂)) :
      Passes store t r ds p j (done ++ [left]) j₂

/-- The typed results of the first steps. -/
def results (p : Plan) (typed : List StepResult) : PlanResult :=
  (p.ids.zip typed).foldl (fun result left => result.record left.1 left.2) .empty

/-- How a run ends: every step succeeded, or the first that did not is the failure of the run. -/
inductive Ends (store : Store σ τ) (t : τ) (r : Registry) (ds : Declarations) (p : Plan)
    (done : List (StepOutput × StepResult)) (j : Journal σ) : Except Error PlanResult → Prop where
  | passed (all : done.length = p.length) : Ends store t r ds p done j (.ok (p.results (done.map (·.2))))
  | failed {s : PlannedStep} {e : Error} {j₁ : Journal σ} (here : p.steps[done.length]? = some s)
      (run : (runPlanned store t r ds (p.progress (done.map (·.1))) s.step).perform j
        = (.error e, j₁)) :
      Ends store t r ds p done j (.error (.step done.length e))

variable {store : Store σ τ} {t : τ} {r : Registry} {ds : Declarations} {p : Plan} {j : Journal σ}

theorem Passes.length_le {done : List (StepOutput × StepResult)} {j' : Journal σ}
    (passes : p.Passes store t r ds j done j') : done.length ≤ p.length := by
  induction passes with
  | none => exact Nat.zero_le _
  | next _ here _ _ =>
    obtain ⟨h, -⟩ := List.getElem?_eq_some_iff.1 here
    rw [List.length_append, List.length_singleton]
    exact h

/-- The typed result of a step is converted from what the step left. -/
theorem convert_of_runPlanned {progress : Progress} {s : Step} {left : StepOutput × StepResult}
    {j' : Journal σ} (run : (runPlanned store t r ds progress s).perform j = (.ok left, j')) :
    s.form.convert ds left.1 = .ok left.2 := by
  rcases Action.bind_cases run with ⟨e, refused, -⟩ | ⟨output, j₁, -, run⟩
  · cases refused
  · rcases converted : s.form.convert ds output with e | typed
    · simp only [converted] at run
      cases run
    · simp only [converted] at run
      cases run
      exact converted

/-- Every step that passed left what its typed result is converted from. -/
theorem Passes.converted {done : List (StepOutput × StepResult)} {j' : Journal σ}
    (passes : p.Passes store t r ds j done j') {k : Nat} {s : PlannedStep}
    {left : StepOutput × StepResult} (here : p.steps[k]? = some s) (passed : done[k]? = some left) :
    s.step.form.convert ds left.1 = .ok left.2 := by
  induction passes with
  | none => simp at passed
  | @next done j₁ j₂ s' left' before last run ih =>
    by_cases earlier : k < done.length
    · rw [List.getElem?_append_left earlier] at passed
      exact ih passed
    · -- the step that passed last
      have bound := (List.getElem?_eq_some_iff.1 passed).1
      rw [List.length_append, List.length_singleton] at bound
      obtain rfl : k = done.length := by omega
      rw [List.getElem?_concat_length] at passed
      rw [last] at here
      cases passed
      cases here
      exact convert_of_runPlanned run

/-! ## 2. Running is passing -/

theorem zip_concat {α β : Type} {as : List α} {bs : List β} {a : α} (b : β)
    (here : as[bs.length]? = some a) : as.zip (bs ++ [b]) = as.zip bs ++ [(a, b)] := by
  induction bs generalizing as with
  | nil =>
    cases as with
    | nil => simp at here
    | cons first rest =>
      simp at here
      simp [here]
  | cons c bs ih =>
    cases as with
    | nil => simp at here
    | cons first rest =>
      simp only [List.length_cons, List.getElem?_cons_succ] at here
      simp [ih here]

theorem progress_concat {outputs : List StepOutput} {s : PlannedStep} (output : StepOutput)
    (here : p.steps[outputs.length]? = some s) :
    p.progress (outputs ++ [output]) = (p.progress outputs).record s.id output := by
  have own : p.ids[outputs.length]? = some s.id := by rw [getElem?_ids, here, Option.map_some]
  rw [progress, zip_concat output own, List.foldl_concat, progress]

theorem results_concat {typed : List StepResult} {s : PlannedStep} (result : StepResult)
    (here : p.steps[typed.length]? = some s) :
    p.results (typed ++ [result]) = (p.results typed).record s.id result := by
  have own : p.ids[typed.length]? = some s.id := by rw [getElem?_ids, here, Option.map_some]
  rw [results, zip_concat result own, List.foldl_concat, results]

/-- Running a step and the ones behind it: these are run when it succeeds, and else its failure is that
of the run. -/
theorem perform_runSteps_cons (store : Store σ τ) (t : τ) (r : Registry) (ds : Declarations)
    (index : Nat) (progress : Progress) (result : PlanResult) (s : PlannedStep)
    (rest : List PlannedStep) (j : Journal σ) :
    ∃ noted : Error → Journal σ → Journal σ,
      (runSteps store t r ds index progress result (s :: rest)).perform j
        = match (runPlanned store t r ds progress s.step).perform j with
          | (.ok left, j₁) => (runSteps store t r ds (index + 1) (progress.record s.id left.1)
              (result.record s.id left.2) rest).perform j₁
          | (.error e, j₁) => (.error (.step index e), noted e j₁) := by
  refine ⟨fun e j₁ => ⟨j₁.state, j₁.log ++ [.debug ("Step " ++ Text.natText index ++ " " ++ s.id.text
    ++ " failed: " ++ e.logText)]⟩, ?_⟩
  rw [runSteps, Action.perform_bind, Action.perform_attempt]
  rcases (runPlanned store t r ds progress s.step).perform j with ⟨e | left, j₁⟩
  · rfl
  · rfl

/-- Running the steps that are left, once the others have passed. The induction is on the steps that
are left. -/
theorem runSteps_ends {done : List (StepOutput × StepResult)} {rest : List PlannedStep}
    {j₁ : Journal σ} (passes : p.Passes store t r ds j done j₁)
    (left : p.steps.drop done.length = rest) :
    ∃ done' j₂ answer j₃,
      (runSteps store t r ds done.length (p.progress (done.map (·.1))) (p.results (done.map (·.2)))
          rest).perform j₁ = (answer, j₃)
        ∧ p.Passes store t r ds j done' j₂ ∧ p.Ends store t r ds done' j₂ answer := by
  induction rest generalizing done j₁ with
  | nil =>
    have all : done.length = p.length :=
      Nat.le_antisymm passes.length_le (List.drop_eq_nil_iff.1 left)
    exact ⟨done, j₁, _, j₁, rfl, passes, .passed all⟩
  | cons s rest ih =>
    have here : p.steps[done.length]? = some s := by
      rw [← List.head?_drop, left, List.head?_cons]
    obtain ⟨noted, runs⟩ := perform_runSteps_cons store t r ds done.length
      (p.progress (done.map (·.1))) (p.results (done.map (·.2))) s rest j₁
    rcases run : (runPlanned store t r ds (p.progress (done.map (·.1))) s.step).perform j₁
      with ⟨e | output, j₂⟩
    · rw [run] at runs
      exact ⟨done, j₁, _, _, runs, passes, .failed here run⟩
    · rw [run] at runs
      -- with this step the steps in front are those that have passed
      have behind : p.steps.drop (done ++ [output]).length = rest := by
        rw [List.length_append, List.length_singleton, ← List.drop_drop, left, List.drop_one,
          List.tail_cons]
      obtain ⟨done', j₃, answer, j₄, runs', passes', ends⟩ := ih (passes.next here run) behind
      refine ⟨done', j₃, answer, j₄, ?_, passes', ends⟩
      rw [runs]
      rw [List.map_append, List.map_append, List.map_singleton, List.map_singleton,
        progress_concat output.1 (by simpa using here), results_concat output.2 (by simpa using here),
        List.length_append, List.length_singleton] at runs'
      exact runs'

/-- A run is some steps that pass and then an end. -/
theorem run_ends (store : Store σ τ) (t : τ) (r : Registry) (ds : Declarations) (p : Plan)
    (j : Journal σ) :
    ∃ j₀ done j₁ answer j₂, (p.run store t r ds).perform j = (answer, j₂)
      ∧ p.Passes store t r ds j₀ done j₁ ∧ p.Ends store t r ds done j₁ answer := by
  -- two records are logged before the first step
  have runs : ∃ j₀, (p.run store t r ds).perform j
      = (runSteps store t r ds 0 (p.progress []) (p.results []) p.steps).perform j₀ := by
    refine ⟨⟨j.state, j.log ++ [PlanState.pending.note (" with " ++ Text.natText p.length ++ " steps")]
      ++ [PlanState.running.note ""]⟩, ?_⟩
    simp only [progress, results, List.zip_nil_right, List.foldl_nil]
    rfl
  obtain ⟨j₀, runs⟩ := runs
  obtain ⟨done, j₁, answer, j₂, ends⟩ := runSteps_ends (.none (j := j₀)) (List.drop_zero)
  exact ⟨j₀, done, j₁, answer, j₂, runs.trans ends.1, ends.2⟩

/-! ## 3. Results -/

theorem results_eq {p : Plan} (distinct : p.ids.Nodup) (typed : List StepResult) :
    p.results typed = ⟨(p.ids.zip typed).reverse⟩ := by
  -- a result under a new identity takes the place of no other
  have folds : ∀ (entries : List (StepId × StepResult)) (result : PlanResult),
      ((result.values ++ entries).map (·.1)).Nodup →
      entries.foldl (fun result left => result.record left.1 left.2) result
        = ⟨entries.reverse ++ result.values⟩ := by
    intro entries
    induction entries with
    | nil => simp
    | cons entry rest ih =>
      intro result unused
      have kept : (result.erase entry.1).values = result.values := by
        simp only [PlanResult.erase, List.filter_eq_self, bne_iff_ne]
        intro other mem same
        rw [List.map_append, List.nodup_append'] at unused
        exact unused.2.2 (List.mem_map_of_mem mem) (same ▸ List.mem_map_of_mem List.mem_cons_self)
      rw [List.foldl_cons, ih]
      · simp [PlanResult.record, kept]
      · have same : ((result.record entry.1 entry.2).values ++ rest).Perm
            (result.values ++ entry :: rest) := by
          simp only [PlanResult.record, kept, List.cons_append]
          exact List.perm_middle.symm
        exact (same.map _).nodup_iff.2 unused
  rw [results, folds]
  · simp [PlanResult.empty]
  · simpa [PlanResult.empty] using nodup_keys_zip distinct typed

theorem get_results {p : Plan} (distinct : p.ids.Nodup) {typed : List StepResult} {id : StepId}
    {k : Nat} {x : StepResult} (stands : p.position? id = some k) (here : typed[k]? = some x) :
    (p.results typed).get id = .ok x := by
  have keys : (((p.ids.zip typed).reverse).map (·.1)).Nodup := by
    rw [List.map_reverse, List.nodup_reverse]
    exact nodup_keys_zip distinct typed
  have mem : (id, x) ∈ (p.ids.zip typed).reverse := by
    rw [List.mem_reverse, mem_zip_iff]
    exact ⟨k, (position?_eq_some distinct).1 stands, here⟩
  rw [PlanResult.get, results_eq distinct, (find?_entry keys).2 mem]

/-- Exactly one result for each step. -/
theorem perm_results {p : Plan} (distinct : p.ids.Nodup) {typed : List StepResult}
    (all : typed.length = p.length) : ((p.results typed).values.map (·.1)).Perm p.ids := by
  rw [results_eq distinct, List.map_reverse]
  refine (List.reverse_perm _).trans ?_
  have enough : p.ids.length ≤ typed.length := by simp [all]
  rw [List.map_fst_zip enough]

/-! ## 4. Executions -/

/-- The ways to execute a plan: on a connection, or relative to a transaction of the caller. -/
inductive Executes (store : Store σ τ) (r : Registry) (ds : Declarations) (p : Plan) :
    Action σ PlanResult → Prop where
  | alone (connection : τ) : Executes store r ds p (p.execute store connection r ds)
  | within (transaction : τ) (propagation : Propagation) :
      Executes store r ds p (p.executeWithin store transaction r ds propagation)

end Plan

/-- A failure of a store to hand out a connection, to open or to commit a transaction or to mark one. -/
inductive Store.Refuses (store : Store σ τ) (e : Error) : Prop where
  | acquire {j j' : Journal σ} (failed : store.acquire.perform j = (.error e, j'))
  | begin {connection : τ} {j j' : Journal σ}
      (failed : (store.begin connection).perform j = (.error e, j'))
  | savepoint {t : τ} {j j' : Journal σ} (failed : (store.savepoint t).perform j = (.error e, j'))
  | commit {t : τ} {j j' : Journal σ} (failed : (store.commit t).perform j = (.error e, j'))
  | mark {t : τ} {j j' : Journal σ} (failed : (store.setRollbackOnly t).perform j = (.error e, j'))

namespace Plan

variable {store : Store σ τ} {r : Registry} {ds : Declarations} {p : Plan}

/-- An answer is that of a run of the plan, or the store refused to open or to end a transaction. -/
def RunOrRefused (store : Store σ τ) (r : Registry) (ds : Declarations) (p : Plan)
    (answer : Except Error PlanResult) : Prop :=
  (∃ t j₀ j₁, (p.run store t r ds).perform j₀ = (answer, j₁))
    ∨ ∃ e, answer = .error e ∧ store.Refuses e

theorem runOrRefused_of_complete {t : τ} {j j' : Journal σ} {answer : Except Error PlanResult}
    (h : (p.complete store t r ds).perform j = (answer, j')) : p.RunOrRefused store r ds answer := by
  obtain ⟨first, j₁, runs, h⟩ := Action.attempt_cases h
  cases first with
  | error e =>
    -- whatever the rollback answers, the failure is that of the run
    obtain ⟨rolledBack, j₂, -, h⟩ := Action.attempt_cases h
    refine .inl ⟨t, j, j₁, ?_⟩
    cases rolledBack with
    | ok =>
      cases h
      exact runs
    | error failure =>
      cases h
      exact runs
  | ok result =>
    obtain ⟨committed, j₂, commits, h⟩ := Action.attempt_cases h
    cases committed with
    | ok =>
      cases h
      exact .inl ⟨t, j, j₁, runs⟩
    | error failure =>
      cases h
      exact .inr ⟨failure, rfl, .commit commits⟩

theorem runOrRefused_of_execute {connection : τ} {j j' : Journal σ}
    {answer : Except Error PlanResult}
    (h : (p.execute store connection r ds).perform j = (answer, j')) :
    p.RunOrRefused store r ds answer := by
  rcases Action.bind_cases h with ⟨e, rfl, begins⟩ | ⟨t, j₁, -, h⟩
  · exact .inr ⟨e, rfl, .begin begins⟩
  · exact runOrRefused_of_complete h

theorem runOrRefused_of_join {t : τ} {j j' : Journal σ} {answer : Except Error PlanResult}
    (h : (p.join store t r ds).perform j = (answer, j')) : p.RunOrRefused store r ds answer := by
  obtain ⟨first, j₁, runs, h⟩ := Action.attempt_cases h
  cases first with
  | ok result =>
    cases h
    exact .inl ⟨t, j, _, runs⟩
  | error e =>
    rcases Action.bind_cases h with ⟨e', -, notes⟩ | ⟨_, j₂, -, h⟩
    · cases notes
    · rcases Action.bind_cases h with ⟨e', rfl, marks⟩ | ⟨_, j₃, -, h⟩
      · exact .inr ⟨e', rfl, .mark marks⟩
      · cases h
        exact .inl ⟨t, j, _, runs⟩

/-- However a plan is executed, the answer is that of one run of its steps, or the store refused to
open or to end a transaction. -/
theorem Executes.answer {act : Action σ PlanResult} (executes : p.Executes store r ds act)
    {j j' : Journal σ} {answer : Except Error PlanResult} (h : act.perform j = (answer, j')) :
    p.RunOrRefused store r ds answer := by
  cases executes with
  | alone connection => exact runOrRefused_of_execute h
  | within t propagation =>
    cases propagation with
    | required => exact runOrRefused_of_join h
    | requiresNew =>
      rcases Action.bind_cases h with ⟨e, rfl, acquires⟩ | ⟨connection, j₁, -, h⟩
      · exact .inr ⟨e, rfl, .acquire acquires⟩
      · exact runOrRefused_of_execute h
    | nested =>
      rcases Action.bind_cases h with ⟨e, rfl, opens⟩ | ⟨savepoint, j₁, -, h⟩
      · exact .inr ⟨e, rfl, .savepoint opens⟩
      · exact runOrRefused_of_complete h

end Plan

/-! ## 5. What handles mean -/

/-- What handles mean in the runs of a plan in a transaction, on a store that may answer anything. -/
structure Draft.KeepsHandles (d : Draft) (handles : List (StepId × Step)) (store : Store σ τ) (t : τ)
    (r : Registry) (ds : Declarations) (j : Journal σ) : Prop where
  /-- Running the plan is passing some steps, and then an end. -/
  runs : ∃ j₀ done j₁ answer j₂, (d.plan.run store t r ds).perform j = (answer, j₂)
    ∧ d.plan.Passes store t r ds j₀ done j₁ ∧ d.plan.Ends store t r ds done j₁ answer
  /-- A reference to a step in front reads what that step left. -/
  reads : ∀ {done : List (StepOutput × StepResult)} {j' : Journal σ},
    d.plan.Passes store t r ds j done j' →
    ∀ {id : StepId} {k : Nat}, d.plan.position? id = some k → k < done.length →
    ∃ left, done[k]? = some left
      ∧ ∀ part, (d.plan.progress (done.map (·.1))).resolve (.fromStep id part) = left.1.read id part
  /-- It fails because the step comes later where its position is not smaller, and only there. -/
  later : ∀ {done : List (StepOutput × StepResult)} {j' : Journal σ},
    d.plan.Passes store t r ds j done j' → ∀ (id id' : StepId) (part : ResultPart),
    (d.plan.progress (done.map (·.1))).resolve (.fromStep id part)
        = .error (.dependencyOnFutureStep id')
      ↔ id' = id ∧ ∃ k, d.plan.position? id = some k ∧ done.length ≤ k
  /-- It fails because the step is unknown where the plan has no such step, and only there. -/
  unknown : ∀ {done : List (StepOutput × StepResult)} {j' : Journal σ},
    d.plan.Passes store t r ds j done j' → ∀ (id id' : StepId) (part : ResultPart),
    (d.plan.progress (done.map (·.1))).resolve (.fromStep id part) = .error (.unknownHandle id')
      ↔ id' = id ∧ d.plan.position? id = none
  /-- Where no plan was taken in, the steps that the next step reads from do not come later. -/
  backwards : d.joined = false → ∀ {done : List (StepOutput × StepResult)} {j' : Journal σ},
    d.plan.Passes store t r ds j done j' → ∀ {s : PlannedStep}, d.plan.steps[done.length]? = some s →
    ∀ id ∈ s.step.sources, ∀ (id' : StepId) (part : ResultPart),
      (d.plan.progress (done.map (·.1))).resolve (.fromStep id part)
        ≠ .error (.dependencyOnFutureStep id')
  /-- So a run does not fail for that reason, unless a conversion of the program makes it up. -/
  never : d.joined = false → ∀ {k : Nat} {id : StepId} {j' : Journal σ},
    (d.plan.run store t r ds).perform j = (.error (.step k (.dependencyOnFutureStep id)), j') →
    ∃ s convert v, d.plan.steps[k]? = some s ∧ convert ∈ s.step.conversions
      ∧ convert v = .error (.dependencyOnFutureStep id)
  /-- The result of a run has one entry for each step, and under the handle of a step stands what was
  converted from the output of that very step. -/
  results : ∀ {result : PlanResult} {j' : Journal σ},
    (d.plan.run store t r ds).perform j = (.ok result, j') →
    (result.values.map (·.1)).Perm d.plan.ids
      ∧ ∃ j₀ done j₁, d.plan.Passes store t r ds j₀ done j₁ ∧ done.length = d.plan.length
        ∧ ∀ {id : StepId} {s : Step} {k : Nat}, (id, s) ∈ handles → d.plan.position? id = some k →
          ∃ left, done[k]? = some left ∧ result.get id = .ok left.2
            ∧ s.form.convert ds left.1 = .ok left.2

namespace Workshop

variable {w : Workshop} {n : Nat} {d : Draft}

/-- A step of a plan that took no other in does not read from a later one. -/
theorem Sound.resolve_ne_later (sound : w.Sound) (held : w.drafts n = some d)
    (unjoined : d.joined = false) {outputs : List StepOutput} {s : PlannedStep}
    (here : d.plan.steps[outputs.length]? = some s) {id : StepId} (source : id ∈ s.step.sources)
    (id' : StepId) (part : ResultPart) :
    (d.plan.progress outputs).resolve (.fromStep id part) ≠ .error (.dependencyOnFutureStep id') := by
  rw [ne_eq, Plan.resolve_later_iff (sound.once held)]
  rintro ⟨-, k, stands, behind⟩
  have front := sound.position?_lt_of_source held unjoined here source stands
  omega

/-- How a run of such a plan can fail because a step comes later: a conversion makes it up. -/
theorem Sound.conversion_of_run (sound : w.Sound) (held : w.drafts n = some d)
    (unjoined : d.joined = false) {store : Store σ τ} {t : τ} {r : Registry} {ds : Declarations}
    {k : Nat} {id : StepId} {j j' : Journal σ}
    (run : (d.plan.run store t r ds).perform j
      = (.error (.step k (.dependencyOnFutureStep id)), j')) :
    ∃ s convert v, d.plan.steps[k]? = some s ∧ convert ∈ s.step.conversions
      ∧ convert v = .error (.dependencyOnFutureStep id) := by
  obtain ⟨j₀, done, j₁, answer, j₂, runs, passes, ends⟩ := d.plan.run_ends store t r ds j
  rw [run] at runs
  cases runs
  -- the step behind those that passed is the one that failed
  cases ends with
  | @failed s e j₃ here failed =>
    obtain ⟨answer, _, _, calls, plain, -, -, stepRun⟩ :=
      (Follows.of_runPlanned t r ds (d.plan.progress (done.map (·.1))) s.step : Follows store _ _ _)
        j₁.state j₁.log []
    rw [failed] at plain
    cases plain
    cases stepRun.blamed trivial with
    | @lookUp source' source failed =>
      have here' : d.plan.steps[(done.map (·.1)).length]? = some s := by simpa using here
      have resolves : (d.plan.progress (done.map (·.1))).resolve (.fromStep source' (.row 0))
          = .error (.dependencyOnFutureStep id) := by
        rw [Progress.resolve, failed]
        rfl
      exact absurd resolves (sound.resolve_ne_later held unjoined here' source id (.row 0))
    | conversion passes failed => exact ⟨s, _, _, here, passes, failed⟩

/-- What a run that succeeds returns. -/
theorem Sound.results_of_run (sound : w.Sound) (held : w.drafts n = some d) {store : Store σ τ}
    {t : τ} {r : Registry} {ds : Declarations} {result : PlanResult} {j j' : Journal σ}
    (run : (d.plan.run store t r ds).perform j = (.ok result, j')) :
    (result.values.map (·.1)).Perm d.plan.ids
      ∧ ∃ j₀ done j₁, d.plan.Passes store t r ds j₀ done j₁ ∧ done.length = d.plan.length
        ∧ ∀ {id : StepId} {s : Step} {k : Nat}, (id, s) ∈ w.handles →
          d.plan.position? id = some k →
          ∃ left, done[k]? = some left ∧ result.get id = .ok left.2
            ∧ s.form.convert ds left.1 = .ok left.2 := by
  obtain ⟨j₀, done, j₁, answer, j₂, runs, passes, ends⟩ := d.plan.run_ends store t r ds j
  rw [run] at runs
  cases runs
  cases ends with
  | passed all =>
    refine ⟨Plan.perm_results (sound.once held) (by simpa using all), j₀, done, j₁, passes, all, ?_⟩
    intro id s k handle stands
    have bound : k < done.length := all ▸ Plan.position?_lt stands
    have left : done[k]? = some done[k] := List.getElem?_eq_getElem bound
    refine ⟨done[k], left, ?_, ?_⟩
    · exact Plan.get_results (sound.once held) stands (by simp [left])
    · exact passes.converted (sound.step_of_position? held handle stands) left

/-- Handles keep their meaning in every run of a plan that the calls left. -/
theorem Sound.keepsHandles (sound : w.Sound) (held : w.drafts n = some d) (store : Store σ τ) (t : τ)
    (r : Registry) (ds : Declarations) (j : Journal σ) :
    d.KeepsHandles w.handles store t r ds j where
  runs := d.plan.run_ends store t r ds j
  reads := by
    intro done j' passes id k stands front
    have left : done[k]? = some done[k] := List.getElem?_eq_getElem front
    refine ⟨done[k], left, fun part => ?_⟩
    rw [Plan.resolve_progress (sound.once held), stands]
    simp [left]
  later := by
    intro done j' passes id id' part
    rw [Plan.resolve_later_iff (sound.once held), List.length_map]
  unknown := by
    intro done j' passes id id' part
    exact Plan.resolve_unknown_iff (sound.once held)
  backwards := by
    intro unjoined done j' passes s here id source id' part
    exact sound.resolve_ne_later held unjoined (by simpa using here) source id' part
  never unjoined _ _ _ run := sound.conversion_of_run held unjoined run
  results run := sound.results_of_run held run

end Workshop

/-- **Handles stay valid and mean the right step.** Whatever calls build plans, identities are distinct
over all of them and stand for the steps they were handed out for; a plan that takes in another one
keeps the order of both, its own positions, and shifts those of the other by its length; and in every
run of a plan, on any store, references and results under a handle are those of its step. However the
plan is executed, the answer is that of a run, or the store refused to open or to end a transaction. -/
theorem handles_meanTheirSteps {calls : List PlanCall} {w : Workshop}
    (built : Workshop.start.follow calls = some w) :
    w.Distinct
      ∧ (∀ {n m : Nat} {w' : Workshop}, w.call (.addPlan n m) = some w' →
        ∃ d e joined, w.drafts n = some d ∧ w.drafts m = some e ∧ w'.drafts n = some joined
          ∧ joined.plan.TookIn d.plan e.plan)
      ∧ ∀ {n : Nat} {d : Draft}, w.drafts n = some d →
        ∀ {σ τ : Type} (store : Store σ τ) (r : Registry) (ds : Declarations) (j : Journal σ),
          (∀ t, d.KeepsHandles w.handles store t r ds j)
            ∧ ∀ {act : Action σ PlanResult} {answer : Except Error PlanResult} {j' : Journal σ},
              d.plan.Executes store r ds act → act.perform j = (answer, j') →
              d.plan.RunOrRefused store r ds answer := by
  have sound := Workshop.sound_start.of_follow built
  refine ⟨sound.distinct, fun h => sound.tookIn h, ?_⟩
  intro n d held σ τ store r ds j
  exact ⟨fun t => sound.keepsHandles held store t r ds j, fun executes performs =>
    executes.answer performs⟩

/-- Calls that let a plan take in another one, whose step was added first and reads from its own. -/
def joinedCalls : List PlanCall :=
  let author : Step := ⟨"INSERT INTO author VALUES (:name) RETURNING id",
    Dict.ofList [("name", .value (.text "Frank"))], .scalar (.scalar .int64)⟩
  let book : Step := ⟨"INSERT INTO book VALUES (:author)",
    Dict.ofList [("author", .valueOf ⟨1⟩)], .execute⟩
  [.new 0, .new 1, .add 0 author, .add 1 book, .addPlan 1 0]

/-- In the plan of these calls the step with the first handle has come behind the one that reads from
it: the reference fails because the step comes later, in every run. -/
theorem handles_meanTheirSteps_joined :
    ∃ w d, Workshop.start.follow joinedCalls = some w ∧ w.drafts 1 = some d
      ∧ d.plan.ids = [⟨2⟩, ⟨1⟩] ∧ w.Distinct
      ∧ ∀ {σ τ : Type} (store : Store σ τ) (t : τ) (r : Registry) (ds : Declarations)
          (j : Journal σ),
        d.KeepsHandles w.handles store t r ds j
          ∧ (d.plan.progress []).resolve (.valueOf ⟨1⟩) = .error (.dependencyOnFutureStep ⟨1⟩) := by
  obtain ⟨w, built⟩ := Option.isSome_iff_exists.1
    (show (Workshop.start.follow joinedCalls).isSome = true by decide)
  obtain ⟨d, held⟩ : ∃ d, w.drafts 1 = some d := by
    cases built
    exact ⟨_, rfl⟩
  have ids : d.plan.ids = [⟨2⟩, ⟨1⟩] := by
    cases built
    cases held
    rfl
  obtain ⟨distinct, -, keeps⟩ := handles_meanTheirSteps built
  refine ⟨w, d, built, held, ids, distinct, ?_⟩
  intro σ τ store t r ds j
  have kept := (keeps held store r ds j).1 t
  refine ⟨kept, (kept.later .none ⟨1⟩ ⟨1⟩ _).2 ⟨rfl, 1, ?_, Nat.zero_le _⟩⟩
  rw [Plan.position?, ids]
  rfl

end TypedStore
