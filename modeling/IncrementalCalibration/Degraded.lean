import IncrementalCalibration.Throws
import IncrementalCalibration.Protocol

/-!
# Once the marginalized group goes missing

`orderMarginalizedDesignVariables` throws when no batch declares the marginalized group, and the
call that ran it keeps what it did before: after a caught exception the estimator holds batches
that do not declare the group.  This module follows the estimator from there, along the calls of a
client that catches every exception and goes on (`Call.run`).

* `step_of_not_declares`, `run_of_not_declares`: where no batch declares the group, a call that
  adds no batch declaring it throws, or is a `removeBatch(batch)` of a batch not held, which
  returns nothing and changes nothing; and the batches go on declaring no such group.  Only the
  batches and the ordering change: the values, the cache, `_mi` and the solver's structure stay as
  the throw left them.
* `step_declares_of_not_declares`: the group comes back only through an `addBatch` of a batch that
  declares it and is accepted, kept or forced; the ordering then ends with the group and the
  solver holds the layout of the problem.  A rejected batch is taken out again, and with it the
  group.
* `InStepWhenDeclared`: so along every client run from construction (`run_inStepWhenDeclared`),
  whenever some batch declares the marginalized group the ordering ends with it and the solver
  holds the layout of the problem.  The stale state a throw leaves is confined to the stretch in
  which no batch declares the group.
-/

namespace IncrementalCalibration.IncrementalEstimator

open IncrementalOptimizationProblem (declares)

variable {R V J : Type}

/-! ## 1. Calls where no batch declares the marginalized group -/

section Missing

/-- Whether a call adds a batch that declares group `m`. -/
def addsGroup (m : Nat) : Call → Bool
  | .addBatch batch _ => declares [batch] m
  | _ => false

/-- `e'` is `e` with other batches and another groups ordering, and nothing else changed. -/
def onlyBatches (e e' : IncrementalEstimator R V) : Prop :=
  e' = { e with problem := { e.problem with
    optimizationProblems := e'.problem.optimizationProblems,
    groupsOrdering := e'.problem.groupsOrdering } }

theorem onlyBatches_refl (e : IncrementalEstimator R V) : onlyBatches e e := rfl

theorem onlyBatches.trans {e₁ e₂ e₃ : IncrementalEstimator R V} (h₁ : onlyBatches e₁ e₂)
    (h₂ : onlyBatches e₂ e₃) : onlyBatches e₁ e₃ := by
  unfold onlyBatches at *
  rw [h₂, h₁]

theorem onlyBatches.margGroupId {e e' : IncrementalEstimator R V} (h : onlyBatches e e') :
    e'.margGroupId = e.margGroupId := by
  rw [h]

/-- What a client sees return is what the call returned. -/
theorem returnedState_of_outcome {α : Type} {ret : α → Option (ReturnValue R)}
    {r : EStateM.Result Exception (IncrementalEstimator R V) α} {v : Option (ReturnValue R)}
    (h : (outcome ret r).1 = .ok v) : returnedState r = some (outcome ret r).2 := by
  cases r with
  | ok a s => rfl
  | error x s => cases h

theorem outcome_of_error {α : Type} {ret : α → Option (ReturnValue R)}
    {r : EStateM.Result Exception (IncrementalEstimator R V) α} {x : Exception}
    {s : IncrementalEstimator R V} (h : r = .error x s) : outcome ret r = (.error x, s) := by
  subst h
  rfl

/-- Where no batch declares the marginalized group, a call that adds no batch declaring it is due
the ordering step's exception, unless it is a `removeBatch(idx)` past the last batch or a
`removeBatch(batch)` of a batch not held. -/
theorem thrownBy_of_not_declares {e : IncrementalEstimator R V}
    (hm : declares e.problem.optimizationProblems e.margGroupId = false) {c : Call}
    (hc : addsGroup e.margGroupId c = false) :
    e.thrownBy c = some (.invalidOperation margGroupMissing) ∨
      (∃ idx, c = .removeBatchAt idx ∧ e.problem.optimizationProblems.length ≤ idx) ∨
      ∃ batch, c = .removeBatch batch ∧ batch ∉ e.problem.optimizationProblems := by
  have hsub : ∀ bs ⊆ e.problem.optimizationProblems, declares bs e.margGroupId = false :=
    fun bs hbs => Bool.eq_false_iff.mpr fun h => by
      simp [IncrementalOptimizationProblem.declares_of_subset hbs h] at hm
  cases c with
  | addBatch batch force =>
    simp only [addsGroup, declares, List.any_cons, List.any_nil, Bool.or_false] at hc
    simp [thrownBy, missingGroup, IncrementalOptimizationProblem.declares_append, hm, hc]
  | removeBatchAt idx =>
    by_cases hidx : idx < e.problem.optimizationProblems.length
    · simp [thrownBy, hidx, missingGroup, hsub _ (List.eraseIdx_subset _ _)]
    · exact .inr (.inl ⟨idx, rfl, Nat.not_lt.mp hidx⟩)
  | removeBatch batch =>
    by_cases hb : batch ∈ e.problem.optimizationProblems
    · simp [thrownBy, hb, missingGroup, hsub _ (List.erase_subset _ _)]
    · exact .inr (.inr ⟨batch, rfl, hb⟩)
  | reoptimize => simp [thrownBy, missingGroup, hm]

variable [LinearOrderedField R] {B : Backend R V J} {e : IncrementalEstimator R V}

/-- **What a thrown call leaves.**  A call that throws changes only the batches and the ordering;
when it throws the ordering step's exception, the ordering it leaves lacks the marginalized
group; and the state it leaves is the one it found, or one whose ordering lacks the group. -/
theorem step_error_spec {c : Call} {x : Exception} (h : (c.step B e).1 = .error x) :
    onlyBatches e (c.step B e).2 ∧
      (x = .invalidOperation margGroupMissing → e.margGroupId ∉ (c.step B e).2.problem.groupsOrdering) ∧
      ((c.step B e).2 = e ∨ e.margGroupId ∉ (c.step B e).2.problem.groupsOrdering) := by
  cases c with
  | addBatch batch force =>
    obtain ⟨s, hr⟩ := outcome_fst_eq_error.mp h
    rw [Call.step, outcome_of_error hr]
    obtain ⟨rfl, -, hm⟩ := addBatch_eq_error B hr
    exact ⟨rfl, fun _ => hm, .inr hm⟩
  | removeBatchAt idx =>
    obtain ⟨s, hr⟩ := outcome_fst_eq_error.mp h
    rw [Call.step, outcome_of_error hr]
    rcases removeBatchAt_eq_error B hr with ⟨-, rfl, rfl⟩ | ⟨-, -, rfl, hm⟩
    · exact ⟨rfl, nofun, .inl rfl⟩
    · exact ⟨rfl, fun _ => hm, .inr hm⟩
  | removeBatch batch =>
    obtain ⟨s, hr⟩ := outcome_fst_eq_error.mp h
    rw [Call.step, outcome_of_error hr]
    unfold IncrementalEstimator.removeBatch at hr
    split at hr
    · rcases removeBatchAt_eq_error B hr with ⟨-, rfl, rfl⟩ | ⟨-, -, rfl, hm⟩
      · exact ⟨rfl, nofun, .inl rfl⟩
      · exact ⟨rfl, fun _ => hm, .inr hm⟩
    · cases hr
  | reoptimize =>
    obtain ⟨s, hr⟩ := outcome_fst_eq_error.mp h
    rw [Call.step, outcome_of_error hr]
    obtain ⟨rfl, -, hm⟩ := reoptimize_eq_error B hr
    exact ⟨rfl, fun _ => hm, .inl rfl⟩

/-- Where the ordering is listed, a call that throws the ordering step's exception leaves no batch
that declares the marginalized group. -/
theorem step_error_not_declares (hs : e.GroupsListed) {c : Call}
    (h : (c.step B e).1 = .error (.invalidOperation margGroupMissing)) :
    declares (c.step B e).2.problem.optimizationProblems e.margGroupId = false := by
  obtain ⟨-, hm, -⟩ := step_error_spec h
  simpa [(hs.step c).mem_iff] using hm rfl

/-- **A call without the marginalized group, where no batch declares it.**  It throws, or it is a
`removeBatch(batch)` of a batch not held, which returns nothing and changes nothing; it changes
only the batches and the ordering, and no batch declares the group after it either. -/
theorem step_of_not_declares (hs : e.GroupsListed)
    (hm : declares e.problem.optimizationProblems e.margGroupId = false) {c : Call}
    (hc : addsGroup e.margGroupId c = false) :
    ((∃ x, (c.step B e).1 = .error x) ∨ ∃ batch, c = .removeBatch batch ∧
      batch ∉ e.problem.optimizationProblems ∧ c.step B e = (.ok none, e)) ∧
      onlyBatches e (c.step B e).2 ∧
      declares (c.step B e).2.problem.optimizationProblems e.margGroupId = false := by
  rcases thrownBy_of_not_declares hm hc with ht | ⟨idx, rfl, hle⟩ | ⟨batch, rfl, hb⟩
  · have h := (step_error_iff (B := B) hs c _).mpr ht
    exact ⟨.inl ⟨_, h⟩, (step_error_spec h).1, step_error_not_declares hs h⟩
  · have hstep : (Call.removeBatchAt idx).step B e = (.error (.outOfBound idx), e) := by
      simp only [Call.step, removeBatchAt_of_length_le B hle, outcome]
    rw [hstep]
    exact ⟨.inl ⟨_, rfl⟩, rfl, hm⟩
  · have hstep : (Call.removeBatch batch).step B e = (.ok none, e) := by
      simp only [Call.step, removeBatch_of_not_mem B hb, outcome]
    rw [hstep]
    exact ⟨.inr ⟨batch, rfl, hb, rfl⟩, rfl, hm⟩

/-- A call that returns to the client returns in the model's sense too, with the same state. -/
theorem exec_of_step_ok {c : Call} {v : Option (ReturnValue R)} (h : (c.step B e).1 = .ok v) :
    c.exec B e = some (c.step B e).2 := by
  cases c <;> exact returnedState_of_outcome h

/-- No call changes the marginalized group, whether it returns or throws. -/
theorem step_margGroupId (c : Call) (e : IncrementalEstimator R V) :
    (c.step B e).2.margGroupId = e.margGroupId := by
  rcases h : (c.step B e).1 with x | v
  · exact (step_error_spec h).1.margGroupId
  · exact (exec_constants (exec_of_step_ok h)).2

/-- So along every client run. -/
theorem run_margGroupId (cs : List Call) :
    ∀ e : IncrementalEstimator R V, (Call.run B cs e).2.margGroupId = e.margGroupId := by
  induction cs with
  | nil => exact fun _ => rfl
  | cons c cs ih => exact fun e => (ih _).trans (step_margGroupId c e)

/-- **Along calls without the marginalized group, where no batch declares it.**  From a listed
state whose batches do not declare the marginalized group, along calls none of which adds a batch
that declares it, the batches go on declaring no such group and the estimator changes only its
batches and its ordering. -/
theorem run_of_not_declares (cs : List Call) :
    ∀ e : IncrementalEstimator R V, e.GroupsListed →
      declares e.problem.optimizationProblems e.margGroupId = false →
      (∀ c ∈ cs, addsGroup e.margGroupId c = false) →
      declares (Call.run B cs e).2.problem.optimizationProblems e.margGroupId = false ∧
        onlyBatches e (Call.run B cs e).2 := by
  induction cs with
  | nil => exact fun e _ hm _ => ⟨hm, onlyBatches_refl e⟩
  | cons c cs ih =>
    intro e hs hm hc
    obtain ⟨-, hframe, hm'⟩ := step_of_not_declares (B := B) hs hm (hc c (List.mem_cons_self _ _))
    have hg := step_margGroupId (B := B) c e
    obtain ⟨hm'', hframe'⟩ :=
      ih _ (hs.step c) (hg ▸ hm') (hg ▸ fun c' h => hc c' (List.mem_cons_of_mem _ h))
    exact ⟨hg ▸ hm'', hframe.trans hframe'⟩

end Missing

/-! ## 2. The group comes back only through a kept batch -/

section Back

variable [LinearOrderedField R] {B : Backend R V J} {e : IncrementalEstimator R V}

/-- An accepted trial of an ordered state is ordered: it keeps the ordering the step left. -/
theorem GroupsOrdered.trialBatch_of_accepted {e₁ : IncrementalEstimator R V} (h₁ : e₁.GroupsOrdered)
    {batch : Batch} {force : Bool} (hacc : (e₁.trialBatch B batch force).1.batchAccepted = true) :
    (e₁.trialBatch B batch force).2.GroupsOrdered := by
  rw [trialBatch_batchAccepted] at hacc
  have hbs := trialBatch_snd_optimizationProblems B e₁ batch force
  have hgs := trialBatch_snd_groupsOrdering B e₁ batch force
  rw [if_pos hacc] at hbs hgs
  exact ⟨by rw [hbs, hgs]; exact h₁.mem_iff, by rw [hgs]; exact h₁.nodup,
    by rw [hgs, trialBatch_snd_margGroupId]; exact h₁.last⟩

/-- **The marginalized group comes back only through a kept batch.**  Where the ordering is
listed and no batch declares the marginalized group, a call after which some batch declares it is
an `addBatch` of a batch that declares it, returning with the batch accepted; the ordering then
ends with the group and the solver holds the layout of the problem. -/
theorem step_declares_of_not_declares (hs : e.GroupsListed)
    (hm : declares e.problem.optimizationProblems e.margGroupId = false) {c : Call}
    (h : declares (c.step B e).2.problem.optimizationProblems e.margGroupId = true) :
    ∃ batch force ret, c = .addBatch batch force ∧ declares [batch] e.margGroupId = true ∧
      (c.step B e).1 = .ok (some ret) ∧
      ret.batchAccepted = true ∧ (c.step B e).2.GroupsOrdered ∧ (c.step B e).2.SolverSynced := by
  cases hc : addsGroup e.margGroupId c with
  | false => simp [(step_of_not_declares hs hm hc).2.2] at h
  | true =>
    obtain ⟨batch, force, rfl⟩ : ∃ batch force, c = .addBatch batch force := by
      cases c <;> first | exact ⟨_, _, rfl⟩ | cases hc
    have hbm : declares [batch] e.margGroupId = true := hc
    have hb : batch ∉ e.problem.optimizationProblems := fun hb =>
      absurd (IncrementalOptimizationProblem.declares_of_subset (List.cons_subset.mpr ⟨hb, List.nil_subset _⟩) hbm)
        (by simp [hm])
    rcases hr : IncrementalEstimator.addBatch B batch force e with ⟨ret, s⟩ | ⟨x, s⟩
    · obtain ⟨e₁, hord, rfl, rfl⟩ := addBatch_eq_ok B hr
      have hstep : (Call.addBatch batch force).step B e =
          (.ok (some (e₁.trialBatch B batch force).1), (e₁.trialBatch B batch force).2) := by
        rw [Call.step, hr]
        rfl
      rw [hstep] at h ⊢
      obtain ⟨-, gs, he₁⟩ := orderMarginalizedDesignVariables_eq_ok hord
      have hacc : (e₁.trialBatch B batch force).1.batchAccepted = true := by
        -- a rejected trial drops the batch, and the batches of before declare no group `m`
        by_contra hrej
        rw [trialBatch_batchAccepted, Bool.not_eq_true] at hrej
        rw [trialBatch_snd_optimizationProblems, hrej, if_neg Bool.false_ne_true, he₁] at h
        simp [IncrementalOptimizationProblem.setGroupsOrdering, List.erase_append_right _ hb,
          hm] at h
      have h₁ := groupsOrdered_of_order hord (hs.withBatch batch).mem_iff (hs.withBatch batch).nodup
      exact ⟨batch, force, _, rfl, hbm, rfl, hacc, h₁.trialBatch_of_accepted hacc,
        trialBatch_solverSynced _ _⟩
    · obtain ⟨rfl, -, hmiss⟩ := addBatch_eq_error B hr
      have hstep : ((Call.addBatch batch force).step B e).2 = e.withBatch batch := by
        rw [Call.step, hr]
        rfl
      rw [hstep] at h
      exact absurd (((hs.withBatch batch).mem_iff _).mpr h) hmiss

end Back

/-! ## 3. In step whenever the group is declared -/

section InStep

variable [LinearOrderedField R] {B : Backend R V J} {e : IncrementalEstimator R V}

/-- The groups ordering lists the declared groups, each once; and while some batch declares the
marginalized group, the ordering ends with it and the linear solver holds the layout of the
problem. -/
structure InStepWhenDeclared (e : IncrementalEstimator R V) : Prop where
  listed : e.GroupsListed
  ordered : declares e.problem.optimizationProblems e.margGroupId = true → e.GroupsOrdered
  synced : declares e.problem.optimizationProblems e.margGroupId = true → e.SolverSynced

theorem inStepWhenDeclared_init (groupId : Nat) (options : Options R) (values : V) :
    (init groupId options values).InStepWhenDeclared :=
  ⟨(groupsOrdered_init groupId options values).listed, fun _ => groupsOrdered_init groupId options values,
    fun _ => rfl⟩

/-- **Every call keeps the invariant**, whether it returns or throws.  A call from a state that
declares the group keeps the ordering and the solver if it returns, and if it throws it leaves the
state it found or one without the group; from a state that does not, the group comes back only
through an accepted batch, which lays the ordering and the solver out. -/
theorem InStepWhenDeclared.step (hs : e.InStepWhenDeclared) (c : Call) :
    (c.step B e).2.InStepWhenDeclared := by
  have hg := step_margGroupId (B := B) c e
  suffices h : declares (c.step B e).2.problem.optimizationProblems e.margGroupId = true →
      (c.step B e).2.GroupsOrdered ∧ (c.step B e).2.SolverSynced from
    ⟨hs.listed.step c, fun hd => (h (hg ▸ hd)).1, fun hd => (h (hg ▸ hd)).2⟩
  intro hd'
  cases hd : declares e.problem.optimizationProblems e.margGroupId with
  | false =>
    obtain ⟨-, -, -, -, -, -, -, ho, hsync⟩ := step_declares_of_not_declares hs.listed hd hd'
    exact ⟨ho, hsync⟩
  | true =>
    rcases h : (c.step B e).1 with x | v
    · -- a throw that leaves the group declared leaves the state it found
      rcases (step_error_spec h).2.2 with he | hm
      · rw [he]
        exact ⟨hs.ordered hd, hs.synced hd⟩
      · exact absurd (((hs.listed.step c).mem_iff _).mpr hd') hm
    · have hx := exec_of_step_ok h
      exact ⟨groupsOrdered_exec (hs.ordered hd) hx, solverSynced_exec (hs.synced hd) hx⟩

/-- So along every client run. -/
theorem InStepWhenDeclared.run (hs : e.InStepWhenDeclared) (cs : List Call) :
    (Call.run B cs e).2.InStepWhenDeclared := by
  induction cs generalizing e with
  | nil => exact hs
  | cons c cs ih => exact ih (hs.step c)

end InStep

/-! ## 4. Along every client run -/

section ClientRuns

variable [LinearOrderedField R] {B : Backend R V J}

/-- **In step whenever the marginalized group is declared.**  From construction, through any
calls whose exceptions the client catches, the groups ordering lists exactly the groups the
batches declare, each once; and whenever some batch declares the marginalized group, the ordering
ends with it and the linear solver holds the layout of the problem. -/
theorem run_inStepWhenDeclared (groupId : Nat) (options : Options R) (values : V) (cs : List Call) :
    (Call.run B cs (init groupId options values)).2.InStepWhenDeclared :=
  (inStepWhenDeclared_init groupId options values).run cs

/-- **After the marginalized group goes missing, the estimator is stuck.**  On every state a
client reaches from construction, once a call throws the ordering step's exception, and after any
later calls none of which adds a batch that declares the marginalized group: no batch declares
the group, the estimator differs from the one the throw left only in its batches and its
ordering (values, cache, `_mi` and solver structure stay), and the next call without the group
throws, or is a `removeBatch(batch)` of a batch not held, which returns nothing and leaves the
estimator as it is. -/
theorem run_stuck_after_missing_group (groupId : Nat) (options : Options R) (values : V)
    (cs : List Call) (c : Call) (cs' : List Call) (c' : Call)
    (h : (c.step B (Call.run B cs (init groupId options values)).2).1 =
      .error (.invalidOperation margGroupMissing))
    (hcs' : ∀ c'' ∈ cs', addsGroup groupId c'' = false) (hc' : addsGroup groupId c' = false) :
    let s := (c.step B (Call.run B cs (init groupId options values)).2).2
    let t := (Call.run B cs' s).2
    declares t.problem.optimizationProblems groupId = false ∧ onlyBatches s t ∧
      ((∃ x, (c'.step B t).1 = .error x) ∨
        ∃ batch, c' = .removeBatch batch ∧ batch ∉ t.problem.optimizationProblems ∧
          c'.step B t = (.ok none, t)) := by
  intro s t
  have hs := (groupsOrdered_init groupId options values).listed.run (B := B) cs
  have hg : (Call.run B cs (init groupId options values)).2.margGroupId = groupId :=
    run_margGroupId cs _
  have hgs : s.margGroupId = groupId := (step_margGroupId c _).trans hg
  have hgt : t.margGroupId = groupId := (run_margGroupId cs' s).trans hgs
  have hm := step_error_not_declares hs h
  rw [hg] at hm
  obtain ⟨hmt, hframe⟩ := run_of_not_declares cs' s (hs.step c) (hgs ▸ hm) (hgs ▸ hcs')
  rw [hgs] at hmt
  exact ⟨hmt, hframe, (step_of_not_declares ((hs.step c).run cs') (by rw [hgt]; exact hmt)
    (by rw [hgt]; exact hc')).1⟩

/-- A fresh estimator and a caught `addBatch` of a batch without the marginalized group; then
`reoptimize()`, the same batch forced and `removeBatch(0)` all throw, and `removeBatch(batch₁)`, of
a batch not held, returns nothing and changes nothing. -/
theorem run_stuck_after_stray :
    let s := (Call.step countingBackend (.addBatch strayBatch false) (init 0 (capOptions 10) 0)).2
    let cs' := [.reoptimize, .addBatch strayBatch true, .removeBatchAt 0]
    let t := (Call.run countingBackend cs' s).2
    (Call.step countingBackend (.addBatch strayBatch false) (init 0 (capOptions 10) 0)).1 =
        .error (.invalidOperation margGroupMissing) ∧
      declares t.problem.optimizationProblems 0 = false ∧ onlyBatches s t ∧
      ((∃ x, ((Call.removeBatch batch₁).step countingBackend t).1 = .error x) ∨
        ∃ batch, Call.removeBatch batch₁ = .removeBatch batch ∧
          batch ∉ t.problem.optimizationProblems ∧
          (Call.removeBatch batch₁).step countingBackend t = (.ok none, t)) :=
  ⟨rfl, run_stuck_after_missing_group 0 (capOptions 10) 0 [] (.addBatch strayBatch false)
    [.reoptimize, .addBatch strayBatch true, .removeBatchAt 0] (.removeBatch batch₁) rfl (by decide)
    rfl⟩

/-- **The marginalized group comes back only through a kept batch.**  On every state a client
reaches from construction where no batch declares the marginalized group (the fresh estimator,
and every state a thrown ordering step leaves), a call after which some batch declares it is an
`addBatch` of a batch that declares the group, returning with the batch accepted, kept or forced;
the groups ordering then ends with the group and the solver holds the layout of the problem
again. -/
theorem run_margGroup_back_by_accepted (groupId : Nat) (options : Options R) (values : V)
    (cs : List Call) (c : Call)
    (hm : declares (Call.run B cs (init groupId options values)).2.problem.optimizationProblems
      groupId = false)
    (h : declares (c.step B (Call.run B cs (init groupId options values)).2).2.problem.optimizationProblems
      groupId = true) :
    let s := c.step B (Call.run B cs (init groupId options values)).2
    ∃ batch force ret, c = .addBatch batch force ∧ declares [batch] groupId = true ∧
      s.1 = .ok (some ret) ∧ ret.batchAccepted = true ∧ s.2.GroupsOrdered ∧ s.2.SolverSynced := by
  have hg : (Call.run B cs (init groupId options values)).2.margGroupId = groupId :=
    run_margGroupId cs _
  have h' := step_declares_of_not_declares ((groupsOrdered_init groupId options values).listed.run cs)
    (by rw [hg]; exact hm) (by rw [hg]; exact h)
  rwa [hg] at h'

/-- A fresh estimator, a caught `addBatch` of a batch without the marginalized group, then
`addBatch(batch₁, false)`: `batch₁` brings the group back, kept as the first round. -/
theorem run_margGroup_back_by_batch₁ :
    let s := (Call.addBatch batch₁ false).step countingBackend
      (Call.run countingBackend [.addBatch strayBatch false] (init 0 (capOptions 10) 0)).2
    declares (Call.run countingBackend [.addBatch strayBatch false]
        (init 0 (capOptions 10) 0)).2.problem.optimizationProblems 0 = false ∧
      declares s.2.problem.optimizationProblems 0 = true ∧
      ∃ batch force ret, Call.addBatch batch₁ false = .addBatch batch force ∧
        declares [batch] 0 = true ∧ s.1 = .ok (some ret) ∧ ret.batchAccepted = true ∧
        s.2.GroupsOrdered ∧ s.2.SolverSynced :=
  have hm : declares (Call.run countingBackend [.addBatch strayBatch false]
      (init 0 (capOptions 10) 0)).2.problem.optimizationProblems 0 = false := by decide
  have h : declares ((Call.addBatch batch₁ false).step countingBackend
      (Call.run countingBackend [.addBatch strayBatch false]
        (init 0 (capOptions 10) 0)).2).2.problem.optimizationProblems 0 = true := by decide
  ⟨hm, h, run_margGroup_back_by_accepted 0 (capOptions 10) 0 [.addBatch strayBatch false]
    (.addBatch batch₁ false) hm h⟩

end ClientRuns

end IncrementalCalibration.IncrementalEstimator
