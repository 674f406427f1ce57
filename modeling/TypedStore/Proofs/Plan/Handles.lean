/-
Handles. A program builds plans call by call: it starts a plan, adds a step, whose references read from
steps it was given a handle for, or lets one plan take in another (`Workshop`). Whatever it calls, no
identity is handed out twice, each stands for the step it was handed out for, and the steps of a plan
that took in no other read from steps in front of them only (`Workshop.Sound`).
-/
import Mathlib.Data.List.Nodup
import Mathlib.Logic.Function.Basic
import TypedStore.Plan.Step

set_option autoImplicit false

namespace TypedStore

/-! ## 1. Positions -/

namespace Plan

/-- Adding steps behind those that a plan has. -/
@[simp] theorem ids_append (p q : Plan) : (p.append q).ids = p.ids ++ q.ids := by
  simp [ids, append]

@[simp] theorem length_ids (p : Plan) : p.ids.length = p.length := by
  simp [ids, length]

theorem mem_ids {p : Plan} {id : StepId} : id ∈ p.ids ↔ ∃ s ∈ p.steps, s.id = id := by
  simp [ids]

theorem getElem?_ids (p : Plan) (k : Nat) : p.ids[k]? = (p.steps[k]?).map (·.id) := by
  simp [ids]

theorem position?_eq_none {p : Plan} {id : StepId} : p.position? id = none ↔ id ∉ p.ids := by
  rw [position?, List.findIdx?_eq_none_iff]
  constructor
  · intro h mem
    simpa using h id mem
  · intro h other mem
    rw [beq_eq_false_iff_ne]
    rintro rfl
    exact h mem

/-- Where identities are distinct, a step stands at the one position that has its identity. -/
theorem position?_eq_some {p : Plan} (distinct : p.ids.Nodup) {id : StepId} {k : Nat} :
    p.position? id = some k ↔ p.ids[k]? = some id := by
  unfold position?
  rw [List.findIdx?_eq_some_iff_getElem]
  constructor
  · rintro ⟨hk, here, -⟩
    rw [List.getElem?_eq_getElem hk, eq_of_beq here]
  · intro here
    obtain ⟨hk, same⟩ := List.getElem?_eq_some_iff.1 here
    refine ⟨hk, by simp [same], ?_⟩
    intro j hj equal
    -- an earlier step of the same identity would be the same step
    have : j = k := (List.Nodup.getElem_inj_iff distinct).1 ((eq_of_beq equal).trans same.symm)
    omega

theorem position?_lt {p : Plan} {id : StepId} {k : Nat} (h : p.position? id = some k) :
    k < p.length := by
  obtain ⟨hk, -⟩ := List.findIdx?_eq_some_iff_getElem.1 h
  simpa using hk

/-- Steps of the plan that takes another one in stay where they are. -/
theorem position?_append_left {p : Plan} (q : Plan) {id : StepId} (mem : id ∈ p.ids) :
    (p.append q).position? id = p.position? id := by
  have known : p.position? id ≠ none := fun h => position?_eq_none.1 h mem
  unfold position? at known ⊢
  rw [ids_append, List.findIdx?_append]
  rcases found : p.ids.findIdx? (· == id) with _ | k
  · exact absurd found known
  · simp

/-- Steps of the plan that is taken in move behind those of the other. -/
theorem position?_append_right {p q : Plan} {id : StepId} (other : id ∉ p.ids) :
    (p.append q).position? id = (q.position? id).map (· + p.length) := by
  have unknown := position?_eq_none.2 other
  unfold position? at unknown ⊢
  rw [ids_append, List.findIdx?_append, unknown, length_ids, Option.none_or]

end Plan

/-! ## 2. Calls -/

/-- The steps that a reference reads from. -/
def Reference.sources : Reference → List StepId
  | .value _ => []
  | .fromStep id _ => [id]
  | .mapped source _ => source.sources

/-- The steps that a step reads from. -/
def Step.sources (s : Step) : List StepId :=
  s.params.entries.flatMap fun entry => entry.2.sources

/-- A plan under construction, and whether it took in another one. -/
structure Draft where
  plan : Plan
  joined : Bool

/-- What a program calls to build plans, which it holds under numbers. -/
inductive PlanCall where
  /-- Starts a plan. One that was held under the number is dropped. -/
  | new (number : Nat)
  | add (number : Nat) (s : Step)
  /-- Lets a plan take in another one, which is gone then. -/
  | addPlan (number other : Nat)

/-- What the calls of a program left: the handles that it got, with the steps it got them for, and the
plans that it holds. -/
structure Workshop where
  mint : StepMint
  handles : List (StepId × Step)
  drafts : Nat → Option Draft

namespace Workshop

/-- Nothing called yet. -/
def start : Workshop := ⟨.start, [], fun _ => none⟩

/-- The identities that were handed out. -/
def issued (w : Workshop) : List StepId := w.handles.map (·.1)

/-- One call. A program can only name plans that it holds and handles that it got. -/
def call (w : Workshop) : PlanCall → Option Workshop
  | .new number => some { w with drafts := Function.update w.drafts number (some ⟨.empty, false⟩) }
  | .add number s =>
    match w.drafts number with
    | none => none
    | some d =>
      if s.sources ⊆ w.issued then
        let (p, id, mint) := d.plan.add s w.mint
        some ⟨mint, w.handles ++ [(id, s)], Function.update w.drafts number (some { d with plan := p })⟩
      else none
  | .addPlan number other =>
    match w.drafts number, w.drafts other with
    | some d, some e =>
      if number = other then none
      else some { w with
        drafts := Function.update (Function.update w.drafts other none) number
          (some ⟨d.plan.append e.plan, true⟩) }
    | _, _ => none

/-- Calls one after the other. -/
def follow (w : Workshop) (calls : List PlanCall) : Option Workshop := calls.foldlM call w

/-! ## 3. What a call does -/

/-- What there is of plans and handles after a call. -/
inductive Called (w : Workshop) : Workshop → Prop where
  | new (number : Nat) :
      Called w { w with drafts := Function.update w.drafts number (some ⟨.empty, false⟩) }
  | add {number : Nat} {d : Draft} {s : Step} (held : w.drafts number = some d)
      (known : s.sources ⊆ w.issued) :
      Called w ⟨⟨w.mint.next + 1⟩, w.handles ++ [(⟨w.mint.next⟩, s)],
        Function.update w.drafts number
          (some ⟨⟨d.plan.steps ++ [⟨⟨w.mint.next⟩, s⟩]⟩, d.joined⟩)⟩
  | addPlan {number other : Nat} {d e : Draft} (held : w.drafts number = some d)
      (taken : w.drafts other = some e) (apart : number ≠ other) :
      Called w { w with
        drafts := Function.update (Function.update w.drafts other none) number
          (some ⟨d.plan.append e.plan, true⟩) }

theorem called_of_call {w w' : Workshop} {c : PlanCall} (h : w.call c = some w') : Called w w' := by
  cases c with
  | new number =>
    cases h
    exact .new number
  | add number s =>
    rcases held : w.drafts number with _ | d
    · simp [call, held] at h
    · by_cases known : s.sources ⊆ w.issued
      · simp only [call, held, if_pos known] at h
        cases h
        exact .add held known
      · simp [call, held, known] at h
  | addPlan number other =>
    rcases held : w.drafts number with _ | d
    · simp [call, held] at h
    · rcases taken : w.drafts other with _ | e
      · simp [call, held, taken] at h
      · by_cases same : number = other
        · simp [call, taken, same] at h
        · simp only [call, held, taken, if_neg same] at h
          cases h
          exact .addPlan held taken same

/-! ## 4. What holds after any calls -/

/-- What calls keep. Numbers are handed out in rising order and never again, so the steps that a step
reads from have smaller numbers than its own. -/
structure Sound (w : Workshop) : Prop where
  rising : w.issued.Pairwise fun a b => a.number < b.number
  below : ∀ {h : StepId × Step}, h ∈ w.handles → h.1.number < w.mint.next
  earlier : ∀ {h : StepId × Step}, h ∈ w.handles → ∀ id ∈ h.2.sources, id.number < h.1.number
  /-- Plans have no steps but those that handles were given out for. -/
  planned : ∀ {n : Nat} {d : Draft}, w.drafts n = some d → ∀ s ∈ d.plan.steps,
    (s.id, s.step) ∈ w.handles
  once : ∀ {n : Nat} {d : Draft}, w.drafts n = some d → d.plan.ids.Nodup
  apart : ∀ {n m : Nat} {d e : Draft}, n ≠ m → w.drafts n = some d → w.drafts m = some e →
    d.plan.ids.Disjoint e.plan.ids
  /-- Steps stand in the order in which they were added, unless a plan took in another. -/
  inOrder : ∀ {n : Nat} {d : Draft}, w.drafts n = some d → d.joined = false →
    d.plan.ids.Pairwise fun a b => a.number < b.number

theorem sound_start : start.Sound where
  rising := .nil
  below h := nomatch h
  earlier h := nomatch h
  planned h := nomatch h
  once h := nomatch h
  apart _ h := nomatch h
  inOrder h := nomatch h

theorem Sound.lt_next {w : Workshop} (sound : w.Sound) {n : Nat} {d : Draft}
    (held : w.drafts n = some d) {id : StepId} (mem : id ∈ d.plan.ids) :
    id.number < w.mint.next := by
  obtain ⟨s, hs, rfl⟩ := Plan.mem_ids.1 mem
  exact sound.below (sound.planned held s hs)

/-- The next identity is in no plan. -/
theorem Sound.next_not_mem {w : Workshop} (sound : w.Sound) {n : Nat} {d : Draft}
    (held : w.drafts n = some d) : (⟨w.mint.next⟩ : StepId) ∉ d.plan.ids := by
  intro mem
  exact Nat.lt_irrefl _ (sound.lt_next held mem)

/-- A call changes the plan held under one number, so it is enough to look at that plan and at how it
differs from the others. -/
theorem eq_or_held_of_update {drafts : Nat → Option Draft} {number n : Nat} {new : Option Draft}
    {d : Draft} (h : Function.update drafts number new n = some d) :
    (n = number ∧ new = some d) ∨ (n ≠ number ∧ drafts n = some d) := by
  by_cases same : n = number
  · subst same
    exact .inl ⟨rfl, by simpa using h⟩
  · exact .inr ⟨same, by simpa [same] using h⟩

theorem Sound.of_new {w : Workshop} (sound : w.Sound) (number : Nat) :
    Sound { w with drafts := Function.update w.drafts number (some ⟨.empty, false⟩) } where
  rising := sound.rising
  below := sound.below
  earlier := sound.earlier
  planned := by
    intro n d h
    rcases eq_or_held_of_update h with ⟨-, new⟩ | ⟨-, held⟩
    · cases new
      exact fun s hs => nomatch hs
    · exact sound.planned held
  once := by
    intro n d h
    rcases eq_or_held_of_update h with ⟨-, new⟩ | ⟨-, held⟩
    · cases new
      exact .nil
    · exact sound.once held
  apart := by
    intro n m d e different h h'
    rcases eq_or_held_of_update h with ⟨hn, new⟩ | ⟨-, held⟩
    · cases new
      exact fun id mem => nomatch mem
    · rcases eq_or_held_of_update h' with ⟨-, new'⟩ | ⟨-, held'⟩
      · cases new'
        exact fun id _ mem => nomatch mem
      · exact sound.apart different held held'
  inOrder := by
    intro n d h unjoined
    rcases eq_or_held_of_update h with ⟨-, new⟩ | ⟨-, held⟩
    · cases new
      exact .nil
    · exact sound.inOrder held unjoined

theorem Sound.of_add {w : Workshop} (sound : w.Sound) {number : Nat} {d : Draft} {s : Step}
    (held : w.drafts number = some d) (known : s.sources ⊆ w.issued) :
    Sound ⟨⟨w.mint.next + 1⟩, w.handles ++ [(⟨w.mint.next⟩, s)],
      Function.update w.drafts number
        (some ⟨⟨d.plan.steps ++ [⟨⟨w.mint.next⟩, s⟩]⟩, d.joined⟩)⟩ := by
  -- what was handed out before has a smaller number
  have smaller : ∀ id ∈ w.issued, id.number < w.mint.next := by
    intro id mem
    obtain ⟨h, hh, rfl⟩ := List.mem_map.1 mem
    exact sound.below hh
  have ids : (⟨d.plan.steps ++ [⟨⟨w.mint.next⟩, s⟩]⟩ : Plan).ids = d.plan.ids ++ [⟨w.mint.next⟩] := by
    simp [Plan.ids]
  refine ⟨?_, ?_, ?_, ?_, ?_, ?_, ?_⟩
  · simp only [issued, List.map_append, List.map_cons, List.map_nil]
    refine List.pairwise_append.2 ⟨sound.rising, List.pairwise_singleton _ _, ?_⟩
    intro a ha b hb
    rw [List.mem_singleton.1 hb]
    exact smaller a ha
  · intro h hh
    rcases List.mem_append.1 hh with old | new
    · exact Nat.lt_succ_of_lt (sound.below old)
    · rw [List.mem_singleton.1 new]
      exact Nat.lt_succ_self _
  · intro h hh id source
    rcases List.mem_append.1 hh with old | new
    · exact sound.earlier old id source
    · rw [List.mem_singleton.1 new] at source ⊢
      exact smaller id (known source)
  · intro n e h t ht
    apply List.mem_append.2
    rcases eq_or_held_of_update h with ⟨-, new⟩ | ⟨-, other⟩
    · cases new
      rcases List.mem_append.1 ht with old | new
      · exact .inl (sound.planned held t old)
      · rw [List.mem_singleton.1 new]
        exact .inr (List.mem_singleton.2 rfl)
    · exact .inl (sound.planned other t ht)
  · intro n e h
    rcases eq_or_held_of_update h with ⟨-, new⟩ | ⟨-, other⟩
    · cases new
      rw [ids, List.nodup_append']
      refine ⟨sound.once held, List.nodup_singleton _, ?_⟩
      intro id mem new
      rw [List.mem_singleton.1 new] at mem
      exact sound.next_not_mem held mem
    · exact sound.once other
  · -- the new identity is in no other plan
    have away : ∀ {m : Nat} {e : Draft}, m ≠ number → w.drafts m = some e →
        (d.plan.ids ++ [(⟨w.mint.next⟩ : StepId)]).Disjoint e.plan.ids := by
      intro m e hm other id mem mem'
      rcases List.mem_append.1 mem with old | new
      · exact sound.apart hm.symm held other old mem'
      · rw [List.mem_singleton.1 new] at mem'
        exact sound.next_not_mem other mem'
    intro n m e e' different h h'
    rcases eq_or_held_of_update h with ⟨hn, new⟩ | ⟨hn, other⟩
    · cases new
      rcases eq_or_held_of_update h' with ⟨hm, -⟩ | ⟨hm, other'⟩
      · exact absurd (hn.trans hm.symm) different
      · rw [ids]
        exact away hm other'
    · rcases eq_or_held_of_update h' with ⟨-, new'⟩ | ⟨-, other'⟩
      · cases new'
        rw [ids]
        exact List.disjoint_symm (away hn other)
      · exact sound.apart different other other'
  · intro n e h unjoined
    rcases eq_or_held_of_update h with ⟨-, new⟩ | ⟨-, other⟩
    · cases new
      rw [ids]
      refine List.pairwise_append.2 ⟨sound.inOrder held unjoined, List.pairwise_singleton _ _, ?_⟩
      intro a ha b hb
      rw [List.mem_singleton.1 hb]
      exact sound.lt_next held ha
    · exact sound.inOrder other unjoined

theorem Sound.of_addPlan {w : Workshop} (sound : w.Sound) {number other : Nat} {d e : Draft}
    (held : w.drafts number = some d) (taken : w.drafts other = some e) (different : number ≠ other) :
    Sound { w with
      drafts := Function.update (Function.update w.drafts other none) number
        (some ⟨d.plan.append e.plan, true⟩) } := by
  -- a plan that is not the one grown was there before, under another number than the one taken in
  have kept : ∀ {n : Nat} {c : Draft}, Function.update w.drafts other none n = some c →
      n ≠ other ∧ w.drafts n = some c := by
    intro n c h
    rcases eq_or_held_of_update h with ⟨-, gone⟩ | rest
    · cases gone
    · exact rest
  refine ⟨sound.rising, sound.below, sound.earlier, ?_, ?_, ?_, ?_⟩
  · intro n c h s hs
    rcases eq_or_held_of_update h with ⟨-, new⟩ | ⟨-, old⟩
    · cases new
      rcases List.mem_append.1 hs with front | back
      · exact sound.planned held s front
      · exact sound.planned taken s back
    · exact sound.planned (kept old).2 s hs
  · intro n c h
    rcases eq_or_held_of_update h with ⟨-, new⟩ | ⟨-, old⟩
    · cases new
      rw [Plan.ids_append, List.nodup_append']
      exact ⟨sound.once held, sound.once taken, sound.apart different held taken⟩
    · exact sound.once (kept old).2
  · -- both parts of the grown plan are apart from every other plan
    have away : ∀ {m : Nat} {c : Draft}, m ≠ number → m ≠ other → w.drafts m = some c →
        (d.plan.append e.plan).ids.Disjoint c.plan.ids := by
      intro m c hm hm' old
      rw [Plan.ids_append, List.disjoint_append_left]
      exact ⟨sound.apart hm.symm held old, sound.apart hm'.symm taken old⟩
    intro n m c c' apart h h'
    rcases eq_or_held_of_update h with ⟨hn, new⟩ | ⟨hn, old⟩
    · cases new
      rcases eq_or_held_of_update h' with ⟨hm, -⟩ | ⟨hm, old'⟩
      · exact absurd (hn.trans hm.symm) apart
      · exact away hm (kept old').1 (kept old').2
    · rcases eq_or_held_of_update h' with ⟨-, new'⟩ | ⟨-, old'⟩
      · cases new'
        exact List.disjoint_symm (away hn (kept old).1 (kept old).2)
      · exact sound.apart apart (kept old).2 (kept old').2
  · intro n c h unjoined
    rcases eq_or_held_of_update h with ⟨-, new⟩ | ⟨-, old⟩
    · cases new
      cases unjoined
    · exact sound.inOrder (kept old).2 unjoined

/-- One call keeps it. -/
theorem Sound.of_called {w w' : Workshop} (sound : w.Sound) (called : Called w w') : w'.Sound := by
  cases called with
  | new number => exact sound.of_new number
  | add held known => exact sound.of_add held known
  | addPlan held taken apart => exact sound.of_addPlan held taken apart

/-- Calls keep it, by induction on the calls. -/
theorem Sound.of_follow {w w' : Workshop} (sound : w.Sound) {calls : List PlanCall}
    (h : w.follow calls = some w') : w'.Sound := by
  induction calls generalizing w with
  | nil =>
    cases h
    exact sound
  | cons c rest ih =>
    simp only [follow, List.foldlM_cons, Option.bind_eq_bind, Option.bind_eq_some_iff] at h
    obtain ⟨w₁, one, others⟩ := h
    exact ih (sound.of_called (called_of_call one)) others

/-! ## 5. Handles -/

/-- Identities are distinct over all plans, and steps stand under the handles they were added for. -/
structure Distinct (w : Workshop) : Prop where
  handles : w.issued.Nodup
  within : ∀ {n : Nat} {d : Draft}, w.drafts n = some d → d.plan.ids.Nodup
  between : ∀ {n m : Nat} {d e : Draft}, n ≠ m → w.drafts n = some d → w.drafts m = some e →
    d.plan.ids.Disjoint e.plan.ids
  steps : ∀ {n : Nat} {d : Draft}, w.drafts n = some d → ∀ s ∈ d.plan.steps,
    (s.id, s.step) ∈ w.handles

theorem Sound.distinct {w : Workshop} (sound : w.Sound) : w.Distinct where
  handles := sound.rising.imp fun {a b} hlt same => by
    rw [same] at hlt
    exact Nat.lt_irrefl _ hlt
  within := sound.once
  between := sound.apart
  steps := sound.planned

/-- A handle stands for the step it was given out for, wherever the step went. -/
theorem Sound.step_of_position? {w : Workshop} (sound : w.Sound) {n : Nat} {d : Draft}
    (held : w.drafts n = some d) {id : StepId} {s : Step} (handle : (id, s) ∈ w.handles) {k : Nat}
    (stands : d.plan.position? id = some k) : d.plan.steps[k]? = some ⟨id, s⟩ := by
  rw [Plan.position?_eq_some (sound.once held), Plan.getElem?_ids] at stands
  obtain ⟨t, here, rfl⟩ := Option.map_eq_some_iff.1 stands
  have planned := sound.planned held t (List.mem_of_getElem? here)
  -- the handle of the step that stands there has the same identity, so it is the same handle
  have same := List.inj_on_of_nodup_map sound.distinct.handles planned handle rfl
  rw [here, ← (Prod.mk.inj same).2]

/-- A step of a plan that took in no other reads from steps in front of it only. -/
theorem Sound.position?_lt_of_source {w : Workshop} (sound : w.Sound) {n : Nat} {d : Draft}
    (held : w.drafts n = some d) (unjoined : d.joined = false) {k : Nat} {s : PlannedStep}
    (here : d.plan.steps[k]? = some s) {id : StepId} (source : id ∈ s.step.sources) {i : Nat}
    (stands : d.plan.position? id = some i) : i < k := by
  have earlier : id.number < s.id.number :=
    sound.earlier (sound.planned held s (List.mem_of_getElem? here)) id source
  rw [Plan.position?_eq_some (sound.once held)] at stands
  have own : d.plan.ids[k]? = some s.id := by rw [Plan.getElem?_ids, here, Option.map_some]
  obtain ⟨hi, atI⟩ := List.getElem?_eq_some_iff.1 stands
  obtain ⟨hk, atK⟩ := List.getElem?_eq_some_iff.1 own
  have order := List.pairwise_iff_getElem.1 (sound.inOrder held unjoined)
  -- a step at its own place or behind it would have a number that is not smaller
  by_contra not
  rcases Nat.lt_or_eq_of_le (Nat.le_of_not_lt not) with behind | same
  · have later := order k i hk hi behind
    rw [atI, atK] at later
    omega
  · subst same
    rw [atI] at atK
    rw [atK] at earlier
    omega

end Workshop

/-- A plan is another one that took a third one in: both keep their order, the first one its
positions, and those of the second are shifted by the length of the first. -/
structure Plan.TookIn (joined p q : Plan) : Prop where
  order : joined.steps = p.steps ++ q.steps
  front : ∀ id ∈ p.ids, joined.position? id = p.position? id
  back : ∀ id ∈ q.ids, joined.position? id = (q.position? id).map (· + p.length)

/-- What a call of `addPlan` leaves under the number of the plan that grows. -/
theorem Workshop.Sound.tookIn {w w' : Workshop} (sound : w.Sound) {n m : Nat}
    (h : w.call (.addPlan n m) = some w') :
    ∃ d e joined, w.drafts n = some d ∧ w.drafts m = some e ∧ w'.drafts n = some joined
      ∧ joined.plan.TookIn d.plan e.plan := by
  rcases held : w.drafts n with _ | d
  · simp [call, held] at h
  · rcases taken : w.drafts m with _ | e
    · simp [call, taken] at h
    · by_cases same : n = m
      · simp [call, taken, same] at h
      · simp only [call, held, taken, if_neg same] at h
        cases h
        refine ⟨d, e, ⟨d.plan.append e.plan, true⟩, rfl, rfl, Function.update_self .., rfl, ?_, ?_⟩
        · intro id mem
          exact Plan.position?_append_left e.plan mem
        · intro id mem
          exact Plan.position?_append_right fun mem' => sound.apart same held taken mem' mem

end TypedStore
