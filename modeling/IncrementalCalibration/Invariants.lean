import IncrementalCalibration.Ordering
import IncrementalCalibration.Runs

/-!
# What every call keeps

Two facts hold after every call, from a freshly constructed estimator, on every run whose calls
all return: forced or not, `reoptimize` included, batches added twice included.

* `reach_groupsOrdered`: the groups ordering lists exactly the groups the batches declare, each
  once, and it ends with the marginalized group unless it is empty.  The container appends the
  groups of an added batch, drops a group with the last batch that declares it, and every call
  that returns has passed `orderMarginalizedDesignVariables`, which permutes the ordering and puts
  the marginalized group last.  A rejected batch is removed after that step, and the group stays
  last because the batches of before still declare it.
* `solverSynced_of_reach`: the linear solver holds the layout of the problem as it is.  Every
  solve lays the system out again, and a rejection restores the linear solver (lines 254-258).

A call that throws is another matter: what it leaves is the subject of `Throws` and `Degraded`.

From both, a rejected batch leaves no trace (`addBatch_rejected_state`).  The container keeps the
ordering the ordering step made, and drops only the groups of the batch; when the ordering ended
with the marginalized group, the step had exchanged that group with the last new one, or done
nothing, so dropping the new groups gives back the old ordering.  The solver is laid out again
over the same batches in the same ordering.

Along the runs the specification allows, where every added batch is new, forced or not, no batch
is held twice, so a `removeBatch(batch)` that returns removes the batch, not only a first copy
of it (`reach_batches_once`).
-/

namespace IncrementalCalibration.IncrementalEstimator

open IncrementalOptimizationProblem (declares)

variable {R V J : Type} {B : Backend R V J}

/-! ## 1. The groups ordering -/

section Groups

/-- The groups ordering lists exactly the groups the batches declare, each once, and ends with the
marginalized group unless it is empty. -/
structure GroupsOrdered (e : IncrementalEstimator R V) : Prop where
  mem_iff : ∀ g, g ∈ e.problem.groupsOrdering ↔ declares e.problem.optimizationProblems g = true
  nodup : e.problem.groupsOrdering.Nodup
  last : e.problem.groupsOrdering = [] ∨ e.problem.groupsOrdering.getLast? = some e.margGroupId

variable {e e' : IncrementalEstimator R V}

/-- A filter that keeps the back keeps it at the back. -/
theorem getLast?_filter {L : List Nat} {m : Nat} {p : Nat → Bool} (hL : L.getLast? = some m)
    (hp : p m = true) : (L.filter p).getLast? = some m := by
  obtain ⟨L₀, rfl⟩ := List.getLast?_eq_some_iff.mp hL
  simp [List.filter_append, hp]

/-- Where the ordering is well formed, batches that declare any group declare the marginalized
one: it is the last group of a nonempty ordering. -/
theorem GroupsOrdered.declares_margGroupId (hs : e.GroupsOrdered) {g : Nat}
    (hg : declares e.problem.optimizationProblems g = true) :
    declares e.problem.optimizationProblems e.margGroupId = true := by
  rcases hs.last with hnil | hlast
  · exact absurd ((hs.mem_iff g).mpr hg) (hnil ▸ List.not_mem_nil g)
  · exact (hs.mem_iff _).mp (List.mem_of_getLast?_eq_some hlast)

/-- **Filtering keeps the invariant.**  A state whose batches are some of an ordered state's and
whose ordering is that state's filtered down to the groups they declare is ordered, provided its
batches declare the marginalized group whenever they declare any group. -/
theorem GroupsOrdered.filter {e₁ : IncrementalEstimator R V} (h₁ : e₁.GroupsOrdered)
    {bs : List Batch} (hsub : bs ⊆ e₁.problem.optimizationProblems)
    (hm : ∀ g, declares bs g = true → declares bs e₁.margGroupId = true)
    (hbs : e.problem.optimizationProblems = bs)
    (hgs : e.problem.groupsOrdering = e₁.problem.groupsOrdering.filter (declares bs))
    (hmg : e.margGroupId = e₁.margGroupId) : e.GroupsOrdered := by
  refine ⟨fun g => ?_, by rw [hgs]; exact h₁.nodup.filter _, ?_⟩
  · rw [hbs, hgs]
    exact IncrementalOptimizationProblem.mem_filter_declares h₁.mem_iff hsub g
  · rw [hgs, hmg]
    by_cases hdm : declares bs e₁.margGroupId = true
    · have hne : e₁.problem.groupsOrdering ≠ [] := List.ne_nil_of_mem
        ((h₁.mem_iff _).mpr (IncrementalOptimizationProblem.declares_of_subset hsub hdm))
      exact .inr (getLast?_filter (h₁.last.resolve_left hne) hdm)
    · exact .inl (List.filter_eq_nil_iff.mpr fun g _ hg => hdm (hm g hg))

/-- **After an ordering step** the invariant holds, if the ordering it started from listed exactly
the declared groups, each once. -/
theorem groupsOrdered_of_order {e₁ : IncrementalEstimator R V} {u : Unit}
    (h : orderMarginalizedDesignVariables e = .ok u e₁)
    (hmem : ∀ g, g ∈ e.problem.groupsOrdering ↔ declares e.problem.optimizationProblems g = true)
    (hnd : e.problem.groupsOrdering.Nodup) : e₁.GroupsOrdered := by
  obtain ⟨hperm, hlast⟩ := (orderMarginalizedDesignVariables_groups h).2
  obtain ⟨-, gs, rfl⟩ := orderMarginalizedDesignVariables_eq_ok h
  exact ⟨fun g => hperm.mem_iff.trans (hmem g), hperm.nodup_iff.mpr hnd, .inr hlast⟩

/-- **The ordering step of `addBatch`, seen from the old batches.**  Where the invariant holds,
the ordering the step leaves for the problem with a batch inserted, filtered down to the groups
the old batches declare, is the old ordering. -/
theorem GroupsOrdered.filter_order_withBatch (hs : e.GroupsOrdered) {batch : Batch}
    {e₁ : IncrementalEstimator R V} {u : Unit}
    (hord : orderMarginalizedDesignVariables (e.withBatch batch) = .ok u e₁) :
    e₁.problem.groupsOrdering.filter (declares e.problem.optimizationProblems) =
      e.problem.groupsOrdering := by
  obtain ⟨N, hN, hnew⟩ :=
    IncrementalOptimizationProblem.insertGroups_eq_append e.problem.groupsOrdering batch
  rw [orderMarginalizedDesignVariables_ordering hord, withBatch_problem,
    IncrementalOptimizationProblem.add_groupsOrdering, withBatch_margGroupId, hN]
  rcases hs.last with hnil | hlast
  · -- no group yet: the old batches declare none
    rw [hnil]
    exact List.filter_eq_nil_iff.mpr fun g _ hg => by simpa [hnil] using (hs.mem_iff g).mpr hg
  · -- the marginalized group is last
    obtain ⟨L₀, hL⟩ := List.getLast?_eq_some_iff.mp hlast
    have hm : e.margGroupId ∉ L₀ :=
      (List.nodup_cons.mp (List.nodup_append_comm.mp (hL ▸ hs.nodup))).1
    rw [hL, List.append_assoc, List.singleton_append]
    exact filter_moveLast_append hm (hL ▸ hnew) fun g => hL ▸ (hs.mem_iff g).symm

variable [LinearOrderedField R]

theorem groupsOrdered_init (groupId : Nat) (options : Options R) (values : V) :
    (init groupId options values).GroupsOrdered :=
  ⟨fun _ => by simp [init, IncrementalOptimizationProblem.empty, declares], List.nodup_nil, .inl rfl⟩

/-- **`addBatch` keeps the invariant.**  The ordering step sees the old groups and those of the
batch; an accepted batch keeps that ordering, a rejected one leaves it filtered by the batches of
before. -/
theorem groupsOrdered_addBatch {batch : Batch} {force : Bool} {ret : ReturnValue R}
    (hs : e.GroupsOrdered) (h : addBatch B batch force e = .ok ret e') : e'.GroupsOrdered := by
  obtain ⟨e₁, hord, -, rfl⟩ := addBatch_eq_ok B h
  have h₁ : e₁.GroupsOrdered := groupsOrdered_of_order hord
    (fun g => by simp [IncrementalOptimizationProblem.mem_insertGroups, hs.mem_iff,
      IncrementalOptimizationProblem.declares_append])
    (IncrementalOptimizationProblem.nodup_insertGroups batch hs.nodup)
  obtain ⟨-, gs, he₁⟩ := orderMarginalizedDesignVariables_eq_ok hord
  have hb₁ : e₁.problem.optimizationProblems = e.problem.optimizationProblems ++ [batch] := by rw [he₁]; rfl
  have hm₁ : e₁.margGroupId = e.margGroupId := by rw [he₁]; rfl
  have hbs := trialBatch_snd_optimizationProblems B e₁ batch force
  have hgs := trialBatch_snd_groupsOrdering B e₁ batch force
  have hm := trialBatch_snd_margGroupId B e₁ batch force
  split_ifs at hbs hgs with hacc
  · -- accepted: the ordering of the ordering step
    exact ⟨by rw [hbs, hgs]; exact h₁.mem_iff, by rw [hgs]; exact h₁.nodup,
      by rw [hgs, hm]; exact h₁.last⟩
  · -- rejected: the ordering filtered by the batches of before, which declare the
    -- marginalized group whenever they declare any
    have hperm : ((e.problem.optimizationProblems ++ [batch]).erase batch).Perm
        e.problem.optimizationProblems := by
      simpa using (List.perm_append_singleton batch e.problem.optimizationProblems).erase batch
    have hdecl := IncrementalOptimizationProblem.declares_perm hperm
    refine h₁.filter (List.erase_subset _ _) (fun g hg => ?_) hbs hgs hm
    rw [hb₁, hdecl] at hg ⊢
    exact hm₁ ▸ hs.declares_margGroupId hg

/-- **`removeBatch(idx)` keeps the invariant**: the ordering step sees the old ordering filtered
by the batches that stay. -/
theorem groupsOrdered_removeBatchAt {idx : Nat} {u : Unit} (hs : e.GroupsOrdered)
    (h : removeBatchAt B idx e = .ok u e') : e'.GroupsOrdered := by
  obtain ⟨-, e₁, hord, rfl⟩ := removeBatchAt_eq_ok B h
  have h₁ := groupsOrdered_of_order hord
    (IncrementalOptimizationProblem.mem_filter_declares hs.mem_iff (List.eraseIdx_subset _ _))
    (hs.nodup.filter _)
  exact ⟨h₁.mem_iff, h₁.nodup, h₁.last⟩

theorem groupsOrdered_reoptimize {ret : ReturnValue R} (hs : e.GroupsOrdered)
    (h : reoptimize B e = .ok ret e') : e'.GroupsOrdered := by
  obtain ⟨e₁, hord, rfl⟩ := reoptimize_eq_ok B h
  have h₁ := groupsOrdered_of_order hord hs.mem_iff hs.nodup
  exact ⟨h₁.mem_iff, h₁.nodup, h₁.last⟩

/-- **Every call that returns keeps the invariant.** -/
theorem groupsOrdered_exec {c : Call} (hs : e.GroupsOrdered) (h : c.exec B e = some e') :
    e'.GroupsOrdered := by
  cases c <;> obtain ⟨_, h⟩ := returnedState_eq_some.mp h
  case addBatch => exact groupsOrdered_addBatch hs h
  case removeBatchAt => exact groupsOrdered_removeBatchAt hs h
  case removeBatch =>
    rcases removeBatch_eq_ok B h with ⟨-, rfl⟩ | ⟨_, -, h⟩
    · exact hs
    · exact groupsOrdered_removeBatchAt hs h
  case reoptimize => exact groupsOrdered_reoptimize hs h

end Groups

/-! ## 2. The linear solver's structure -/

section Solver

variable [LinearOrderedField R]

/-- The linear solver holds the layout of the problem as it is. -/
def SolverSynced (e : IncrementalEstimator R V) : Prop :=
  e.matrixStructure = (layoutSystem e.problem.designVariables e.problem.errorTerms).2

variable {e e' : IncrementalEstimator R V}

/-- Whatever the score decides, the trial leaves the solver with the layout of its problem: the
solve laid it out, and a rejection restores it. -/
theorem trialBatch_solverSynced (batch : Batch) (force : Bool) :
    (e.trialBatch B batch force).2.SolverSynced := by
  rw [trialBatch_snd]
  split_ifs
  · simp only [SolverSynced, trialScore, scoreBatch_problem, scoreBatch_matrixStructure]
    rfl
  · rfl

/-- **Every call that returns leaves the solver with the layout of the problem**, except a
`removeBatch(batch)` of a batch that is not there, which changes nothing. -/
theorem solverSynced_exec {c : Call} (hs : e.SolverSynced) (h : c.exec B e = some e') :
    e'.SolverSynced := by
  cases c <;> obtain ⟨_, h⟩ := returnedState_eq_some.mp h
  case addBatch =>
    obtain ⟨e₁, -, -, rfl⟩ := addBatch_eq_ok B h
    exact trialBatch_solverSynced _ _
  case removeBatchAt =>
    obtain ⟨-, e₁, -, rfl⟩ := removeBatchAt_eq_ok B h
    rfl
  case removeBatch =>
    rcases removeBatch_eq_ok B h with ⟨-, rfl⟩ | ⟨_, -, h⟩
    · exact hs
    · obtain ⟨-, e₁, -, rfl⟩ := removeBatchAt_eq_ok B h
      rfl
  case reoptimize =>
    obtain ⟨e₁, -, rfl⟩ := reoptimize_eq_ok B h
    rfl

end Solver

/-! ## 3. A rejected batch leaves no trace -/

section Rejection

variable [LinearOrderedField R] {e e' : IncrementalEstimator R V}

/-- The state a rejected trial leaves, after the ordering step of an ordered state with a new batch
in and a solver in step: the one the batch was added to, with the values saved and the rank warning
written when the trial's column space shrank in verbose mode. -/
theorem trialBatch_rejected_eq {batch : Batch} {force : Bool} {e₁ : IncrementalEstimator R V}
    (hs : e.GroupsOrdered) (hsolver : e.SolverSynced) (hb : batch ∉ e.problem.optimizationProblems)
    (hord : orderMarginalizedDesignVariables (e.withBatch batch) = .ok () e₁)
    (hrej : (e₁.trialBatch B batch force).1.batchAccepted = false) :
    (e₁.trialBatch B batch force).2 = { e with
      problem := e.problem.saveDesignVariables,
      cerr := e.cerr ++
        if ((e.withBatch batch).trialMarginalization B).CS.cols < e.CS.cols ∧ e.options.verbose
        then [rankWarning] else [] } := by
  have hgroups := hs.filter_order_withBatch hord
  obtain ⟨-, gs, he₁⟩ := orderMarginalizedDesignVariables_eq_ok hord
  rw [trialBatch_batchAccepted, Bool.or_eq_false_iff] at hrej
  obtain ⟨hk, rfl⟩ := hrej
  rw [trialBatch_snd, hk, Bool.false_or, if_neg Bool.false_ne_true, trialScore_snd_of_not_keep B _ hk]
  have hp : (((e₁.solveTrial B).2.warnRankDown (e₁.trialMarginalization B)).undoBatch batch).problem =
      e.problem.saveDesignVariables := by
    subst he₁
    simp only [IncrementalOptimizationProblem.setGroupsOrdering_groupsOrdering] at hgroups
    ext1 <;> simp [List.erase_append_right _ hb, hgroups]
  subst he₁
  refine ext_cache hp (by simp) (by simp) (by simp) ?_ ?_ ?_
  · simp only [undoBatch_cache, warnRankDown_cache, solveTrial_cache, cache_withProblem]
    rfl
  · rw [undoBatch_matrixStructure, hp]
    exact hsolver.symm
  · simp only [undoBatch_cerr, warnRankDown_cerr, solveTrial_cerr, solveTrial_CS, solveTrial_options,
      trial_setGroupsOrdering]
    rfl

/-- **A rejected batch leaves no trace.**  On every state whose groups ordering and linear solver
are in step with its batches (every state reached from construction by calls that all return:
`reach_groupsOrdered`, `solverSynced_of_reach`), an `addBatch` of a new batch that returns with
the batch rejected gives back the estimator it found, groups ordering and solver structure
included, but for two things: the container's backup holds the current values, and in verbose
mode a rank warning was written when the column space of the trial shrank. -/
theorem addBatch_rejected_state {batch : Batch} {force : Bool} {ret : ReturnValue R}
    (hs : e.GroupsOrdered) (hsolver : e.SolverSynced) (hb : batch ∉ e.problem.optimizationProblems)
    (h : addBatch B batch force e = .ok ret e') (hrej : ret.batchAccepted = false) :
    e' = { e with
      problem := e.problem.saveDesignVariables,
      cerr := e.cerr ++
        if ((e.withBatch batch).trialMarginalization B).CS.cols < e.CS.cols ∧ e.options.verbose
        then [rankWarning] else [] } := by
  obtain ⟨e₁, hord, rfl, rfl⟩ := addBatch_eq_ok B h
  exact trialBatch_rejected_eq hs hsolver hb hord hrej

end Rejection

/-! ## 4. Each batch held once -/

section Once

variable [LinearOrderedField R] {e e' : IncrementalEstimator R V}

/-- **A call that adds only a new batch keeps each batch held once.**  An addition appends the
batch or gives the batches back, a removal drops one, and `reoptimize` keeps them. -/
theorem nodup_exec {c : Call} (hn : e.problem.optimizationProblems.Nodup) (hc : c.AddsNew e)
    (h : c.exec B e = some e') : e'.problem.optimizationProblems.Nodup := by
  cases c <;> obtain ⟨_, h⟩ := returnedState_eq_some.mp h
  case addBatch =>
    obtain ⟨-, -, hbs, -⟩ := addBatch_spec B hc h
    rw [hbs]
    split_ifs
    · exact hn.append (List.nodup_singleton _) (List.disjoint_singleton.mpr hc)
    · exact hn
  case removeBatchAt =>
    rw [(removeBatchAt_spec B h).2.1]
    exact hn.sublist (List.eraseIdx_sublist _ _)
  case removeBatch =>
    rw [removeBatch_optimizationProblems B h]
    exact hn.sublist (List.erase_sublist _ _)
  case reoptimize =>
    rw [(reoptimize_spec B h).1]
    exact hn

end Once

/-! ## 5. Whole runs -/

variable [LinearOrderedField R] {groupId : Nat} {options : Options R} {values : V} {e : IncrementalEstimator R V}

/-- Where the ordering lists exactly the groups the batches declare, a call throws exactly when
the marginalized group is declared by none of the batches it would leave. -/
theorem throws_iff_of_mem_iff
    (hmem : ∀ g, g ∈ e.problem.groupsOrdering ↔ declares e.problem.optimizationProblems g = true) :
    (∀ batch force, (∃ x e', addBatch B batch force e = .error x e') ↔
      declares (e.problem.optimizationProblems ++ [batch]) e.margGroupId = false) ∧
    ((∃ x e', reoptimize B e = .error x e') ↔
      declares e.problem.optimizationProblems e.margGroupId = false) ∧
    (∀ idx < e.problem.optimizationProblems.length,
      (∃ x e', removeBatchAt B idx e = .error x e') ↔
        declares (e.problem.optimizationProblems.eraseIdx idx) e.margGroupId = false) := by
  refine ⟨fun batch force => ?_, ?_, fun idx hidx => ?_⟩
  · rw [addBatch_error_iff, IncrementalOptimizationProblem.add_groupsOrdering,
      IncrementalOptimizationProblem.mem_insertGroups, hmem,
      IncrementalOptimizationProblem.declares_append]
    simp
  · rw [reoptimize_error_iff, hmem]
    simp
  · rw [removeBatchAt_error_iff B hidx, IncrementalOptimizationProblem.withBatches_groupsOrdering,
      IncrementalOptimizationProblem.mem_filter_declares hmem (List.eraseIdx_subset _ _)]
    simp

/-- **The groups ordering along every run whose calls all return.**  After every call that
returns, from a freshly constructed estimator, the groups ordering lists exactly the groups the
batches declare, each once, and ends with the marginalized group unless it is empty. -/
theorem reach_groupsOrdered (hr : Reach B (fun _ _ => True) (init groupId options values) e) :
    e.GroupsOrdered := by
  induction hr with
  | refl => exact groupsOrdered_init groupId options values
  | tail _ _ _ h ih => exact groupsOrdered_exec ih h

/-- The linear solver along every run whose calls all return: after every call, from
construction, its structure is the layout of the problem as it is. -/
theorem solverSynced_of_reach (hr : Reach B (fun _ _ => True) (init groupId options values) e) :
    e.SolverSynced := by
  induction hr with
  | refl => rfl
  | tail _ _ _ h ih => exact solverSynced_exec ih h

/-- **Each batch is held once, and `removeBatch` removes it.**  On every state reached from
construction by calls that add only batches not in the problem yet, forced or not, no batch is
held twice; so a `removeBatch(batch)` that returns leaves the batches as they were without
`batch`, and `batch` is no longer held. -/
theorem reach_batches_once (hr : Reach B Call.AddsNew (init groupId options values) e) :
    e.problem.optimizationProblems.Nodup ∧
      ∀ (batch : Batch) (u : Unit) (e' : IncrementalEstimator R V), removeBatch B batch e = .ok u e' →
        e'.problem.optimizationProblems = e.problem.optimizationProblems.erase batch ∧
          batch ∉ e'.problem.optimizationProblems := by
  have hn : e.problem.optimizationProblems.Nodup := by
    induction hr with
    | refl => exact List.nodup_nil
    | tail _ _ hc h ih => exact nodup_exec ih hc h
  refine ⟨hn, fun batch u e' h => ?_⟩
  have hbs := removeBatch_optimizationProblems B h
  exact ⟨hbs, hbs ▸ hn.not_mem_erase⟩

/-! ## 6. Runs on small inputs -/

/-- The first batch on a fresh estimator, kept: a reached state whose groups are ordered. -/
theorem reach_groupsOrdered_first_batch :
    Reach countingBackend (fun _ _ => True) (fresh 10)
        (((fresh 10).withBatch batch₁).trialBatch countingBackend batch₁ false).2 ∧
      (((fresh 10).withBatch batch₁).trialBatch countingBackend batch₁ false).2.GroupsOrdered :=
  have hr := Reach.tail (.addBatch batch₁ false) .refl trivial
    (by rw [Call.exec, addBatch_of_order_ok countingBackend (order_fresh_add_batch₁ 10)]; rfl)
  ⟨hr, reach_groupsOrdered hr⟩

/-- `committed₁` is left by a call that returned, so its groups are ordered. -/
theorem committed₁_groupsOrdered : committed₁.GroupsOrdered :=
  let ⟨_, h, _⟩ := addBatch_batch₁_commits
  groupsOrdered_addBatch (groupsOrdered_init 0 (capOptions 2) 0) h

/-- After `batch₁` is committed, `strayBatch` is rejected at the cap: the ordering step had
swapped the marginalized group back behind the new group `1`, and the state the rejection leaves
is `committed₁` with its values saved, the ordering `[0]` and the solver's structure included. -/
theorem addBatch_rejected_state_after_commit :
    strayOrdered.problem.groupsOrdering = [1, 0] ∧
    ∃ ret e', addBatch slowBackend strayBatch false committed₁ = .ok ret e' ∧
      ret.batchAccepted = false ∧
      e' = { committed₁ with
        problem := committed₁.problem.saveDesignVariables,
        cerr := committed₁.cerr ++
          if ((committed₁.withBatch strayBatch).trialMarginalization slowBackend).CS.cols <
              committed₁.CS.cols ∧ committed₁.options.verbose
          then [rankWarning] else [] } :=
  have hrun : addBatch slowBackend strayBatch false committed₁ = _ :=
    addBatch_of_order_ok slowBackend order_committed₁_add_stray
  ⟨rfl, _, _, hrun, stray_rejected_after_batch₁, addBatch_rejected_state committed₁_groupsOrdered rfl
    (by decide) hrun stray_rejected_after_batch₁⟩

/-- The first batch forced in on a fresh estimator whose solve hits the cap: a state reached by
calls that add only new batches, holding `batch₁` once. -/
theorem reach_batches_once_forced :
    ∃ e, Reach countingBackend Call.AddsNew (fresh 1) e ∧ e.problem.optimizationProblems = [batch₁] ∧
      e.problem.optimizationProblems.Nodup ∧
      ∀ (batch : Batch) (u : Unit) (e' : IncrementalEstimator ℚ Nat),
        removeBatch countingBackend batch e = .ok u e' →
          e'.problem.optimizationProblems = e.problem.optimizationProblems.erase batch ∧
            batch ∉ e'.problem.optimizationProblems :=
  have hr := Reach.tail (.addBatch batch₁ true) .refl (List.not_mem_nil _)
    (by rw [Call.exec, addBatch_of_order_ok countingBackend (order_fresh_add_batch₁ 1)]; rfl)
  ⟨_, hr, by rw [trialBatch_snd_optimizationProblems, Bool.or_true, if_pos rfl]; rfl,
    reach_batches_once hr⟩

end IncrementalCalibration.IncrementalEstimator
