import IncrementalCalibration.Observation

/-!
# When a call throws, along every client run

A client may catch the estimator's exceptions and go on calling it (`Call.run`).  A call that
throws keeps what it did before the throw: `addBatch` keeps its batch in, `removeBatch(idx)`
keeps its batch out.  So after a caught exception the groups ordering need not end with the
marginalized group: a batch that does not declare it stays in with the group absent.  What the
ordering keeps through every call, returned or thrown, is weaker, and it is enough to say
exactly when each call throws.

* `GroupsListed`: the ordering lists exactly the groups the batches declare, each once.  Every
  call keeps it (`GroupsListed.step`), so it holds along every client run from construction.
* `thrownBy e c`: the exception `c` throws from `e`, read off the batches alone: the ordering
  step's when the marginalized group would be declared by none of the batches the call leaves,
  the container's for an index past the last batch, and none otherwise.
* `step_error_iff`: where the ordering is listed, a call throws exactly `thrownBy`'s exception;
  so on every state of every client run from construction (`run_throws_iff`).

What the estimator does once the ordering step has thrown is the subject of `Degraded`.
-/

namespace IncrementalCalibration.IncrementalEstimator

open IncrementalOptimizationProblem (declares)

variable {R V J : Type}

/-! ## 1. The ordering through calls that throw -/

section Listed

/-- The groups ordering lists exactly the groups the batches declare, each once. -/
structure GroupsListed (e : IncrementalEstimator R V) : Prop where
  mem_iff : ∀ g, g ∈ e.problem.groupsOrdering ↔ declares e.problem.optimizationProblems g = true
  nodup : e.problem.groupsOrdering.Nodup

variable {e e' : IncrementalEstimator R V}

theorem GroupsOrdered.listed (hs : e.GroupsOrdered) : e.GroupsListed := ⟨hs.mem_iff, hs.nodup⟩

/-- The invariant reads the batches and the ordering only. -/
theorem GroupsListed.congr (hs : e.GroupsListed)
    (hb : e'.problem.optimizationProblems = e.problem.optimizationProblems)
    (hg : e'.problem.groupsOrdering = e.problem.groupsOrdering) : e'.GroupsListed :=
  ⟨by rw [hb, hg]; exact hs.mem_iff, by rw [hg]; exact hs.nodup⟩

/-- Inserting a batch keeps the ordering listed: the container appends the groups it brings. -/
theorem GroupsListed.withBatch (hs : e.GroupsListed) (batch : Batch) :
    (e.withBatch batch).GroupsListed :=
  ⟨fun g => by simp [IncrementalOptimizationProblem.mem_insertGroups, hs.mem_iff,
      IncrementalOptimizationProblem.declares_append],
    IncrementalOptimizationProblem.nodup_insertGroups batch hs.nodup⟩

/-- Leaving some of the batches keeps it listed: the container drops the groups that none of
them declares. -/
theorem GroupsListed.withBatches (hs : e.GroupsListed) {bs : List Batch}
    (hsub : bs ⊆ e.problem.optimizationProblems) :
    ({ e with problem := e.problem.withBatches bs } : IncrementalEstimator R V).GroupsListed :=
  ⟨IncrementalOptimizationProblem.mem_filter_declares hs.mem_iff hsub, hs.nodup.filter _⟩

/-- The ordering step orders a listed ordering. -/
theorem GroupsListed.order (hs : e.GroupsListed) {u : Unit}
    (h : orderMarginalizedDesignVariables e = .ok u e') : e'.GroupsListed :=
  (groupsOrdered_of_order h hs.mem_iff hs.nodup).listed

variable [LinearOrderedField R] {B : Backend R V J}

/-- The trial keeps it listed: a kept batch keeps the ordering, a dropped one filters it. -/
theorem GroupsListed.trialBatch (hs : e.GroupsListed) (batch : Batch) (force : Bool) :
    (e.trialBatch B batch force).2.GroupsListed := by
  have hbs := trialBatch_snd_optimizationProblems B e batch force
  have hgs := trialBatch_snd_groupsOrdering B e batch force
  split_ifs at hbs hgs
  · exact hs.congr hbs hgs
  · exact (hs.withBatches (List.erase_subset _ _)).congr hbs hgs

/-- `addBatch` keeps the ordering listed, whether it returns or throws. -/
theorem GroupsListed.addBatch (hs : e.GroupsListed) (batch : Batch) (force : Bool)
    (ret : ReturnValue R → Option (ReturnValue R)) :
    (outcome ret (IncrementalEstimator.addBatch B batch force e)).2.GroupsListed := by
  rcases h : IncrementalEstimator.addBatch B batch force e with ⟨r, s⟩ | ⟨x, s⟩
  · obtain ⟨e₁, hord, -, rfl⟩ := addBatch_eq_ok B h
    exact ((hs.withBatch batch).order hord).trialBatch batch force
  · obtain ⟨rfl, -, -⟩ := addBatch_eq_error B h
    exact hs.withBatch batch

/-- `removeBatch(idx)` keeps the ordering listed, whether it returns or throws. -/
theorem GroupsListed.removeBatchAt (hs : e.GroupsListed) (idx : Nat)
    (ret : Unit → Option (ReturnValue R)) :
    (outcome ret (IncrementalEstimator.removeBatchAt B idx e)).2.GroupsListed := by
  rcases h : IncrementalEstimator.removeBatchAt B idx e with ⟨⟨⟩, s⟩ | ⟨x, s⟩
  · obtain ⟨-, e₁, hord, rfl⟩ := removeBatchAt_eq_ok B h
    have h₁ := (hs.withBatches (List.eraseIdx_subset _ _)).order hord
    exact ⟨h₁.mem_iff, h₁.nodup⟩
  · rcases removeBatchAt_eq_error B h with ⟨-, -, rfl⟩ | ⟨-, -, rfl, -⟩
    · exact hs
    · exact hs.withBatches (List.eraseIdx_subset _ _)

/-- `reoptimize()` keeps the ordering listed, whether it returns or throws. -/
theorem GroupsListed.reoptimize (hs : e.GroupsListed) (ret : ReturnValue R → Option (ReturnValue R)) :
    (outcome ret (IncrementalEstimator.reoptimize B e)).2.GroupsListed := by
  rcases h : IncrementalEstimator.reoptimize B e with ⟨r, s⟩ | ⟨x, s⟩
  · obtain ⟨e₁, hord, rfl⟩ := reoptimize_eq_ok B h
    have h₁ := hs.order hord
    exact ⟨h₁.mem_iff, h₁.nodup⟩
  · obtain ⟨rfl, -, -⟩ := reoptimize_eq_error B h
    exact hs

/-- **Every call keeps the ordering listed**, whether it returns or throws. -/
theorem GroupsListed.step (hs : e.GroupsListed) (c : Call) : (c.step B e).2.GroupsListed := by
  cases c with
  | addBatch batch force => exact hs.addBatch batch force _
  | removeBatchAt idx => exact hs.removeBatchAt idx _
  | removeBatch batch =>
    show (outcome _ (IncrementalEstimator.removeBatch B batch e)).2.GroupsListed
    unfold IncrementalEstimator.removeBatch
    cases e.problem.getOptimizationProblem batch with
    | some idx => exact hs.removeBatchAt idx _
    | none => exact hs
  | reoptimize => exact hs.reoptimize _

/-- So along every client run. -/
theorem GroupsListed.run (hs : e.GroupsListed) (cs : List Call) :
    (Call.run B cs e).2.GroupsListed := by
  induction cs generalizing e with
  | nil => exact hs
  | cons c cs ih => exact ih (hs.step c)

end Listed

/-! ## 2. Which exception a call throws -/

section Thrown

/-- The ordering step's exception where the marginalized group `m` is declared by none of `bs`. -/
def missingGroup (m : Nat) (bs : List Batch) : Option Exception :=
  if declares bs m then none else some (.invalidOperation margGroupMissing)

/-- The exception call `c` throws from `e`, if any, read off the batches alone. -/
def thrownBy (e : IncrementalEstimator R V) : Call → Option Exception
  | .addBatch batch _ => missingGroup e.margGroupId (e.problem.optimizationProblems ++ [batch])
  | .removeBatchAt idx =>
    if idx < e.problem.optimizationProblems.length then
      missingGroup e.margGroupId (e.problem.optimizationProblems.eraseIdx idx)
    else some (.outOfBound idx)
  | .removeBatch batch =>
    if batch ∈ e.problem.optimizationProblems then
      missingGroup e.margGroupId (e.problem.optimizationProblems.erase batch)
    else none
  | .reoptimize => missingGroup e.margGroupId e.problem.optimizationProblems

theorem missingGroup_eq_some {m : Nat} {bs : List Batch} {x : Exception} :
    missingGroup m bs = some x ↔ declares bs m = false ∧ .invalidOperation margGroupMissing = x := by
  unfold missingGroup
  cases declares bs m <;> simp

/-- A client sees the exception `x` exactly when the call threw it. -/
theorem outcome_fst_eq_error {α : Type} {ret : α → Option (ReturnValue R)}
    {r : EStateM.Result Exception (IncrementalEstimator R V) α} {x : Exception} :
    (outcome ret r).1 = .error x ↔ ∃ s, r = .error x s := by
  cases r <;> simp [outcome]

/-- A call that throws only `x₀`, and throws exactly when `P`, throws `x` exactly when `P` and
`x` is `x₀`. -/
theorem exists_error_iff {α : Type} {r : EStateM.Result Exception (IncrementalEstimator R V) α}
    {x₀ x : Exception} {P : Prop} (hx : ∀ x s, r = .error x s → x = x₀)
    (hP : (∃ x s, r = .error x s) ↔ P) : (∃ s, r = .error x s) ↔ P ∧ x₀ = x := by
  refine ⟨fun ⟨s, h⟩ => ⟨hP.mp ⟨x, s, h⟩, (hx x s h).symm⟩, fun ⟨hp, hx₀⟩ => ?_⟩
  obtain ⟨x', s, h⟩ := hP.mpr hp
  exact ⟨s, hx₀ ▸ hx x' s h ▸ h⟩

variable [LinearOrderedField R] {B : Backend R V J} {e : IncrementalEstimator R V} (hs : e.GroupsListed)
include hs

theorem addBatch_thrown (batch : Batch) (force : Bool) (x : Exception) :
    (∃ s, addBatch B batch force e = .error x s) ↔ e.thrownBy (.addBatch batch force) = some x := by
  rw [thrownBy, missingGroup_eq_some]
  exact exists_error_iff (fun _ _ h => (addBatch_eq_error B h).2.1)
    ((throws_iff_of_mem_iff hs.mem_iff).1 batch force)

theorem reoptimize_thrown (x : Exception) :
    (∃ s, reoptimize B e = .error x s) ↔ e.thrownBy .reoptimize = some x := by
  rw [thrownBy, missingGroup_eq_some]
  exact exists_error_iff (fun _ _ h => (reoptimize_eq_error B h).2.1)
    (throws_iff_of_mem_iff hs.mem_iff).2.1

theorem removeBatchAt_thrown (idx : Nat) (x : Exception) :
    (∃ s, removeBatchAt B idx e = .error x s) ↔ e.thrownBy (.removeBatchAt idx) = some x := by
  rw [thrownBy]
  split_ifs with hidx
  · rw [missingGroup_eq_some]
    refine exists_error_iff (fun _ _ h => ?_) ((throws_iff_of_mem_iff hs.mem_iff).2.2 idx hidx)
    rcases removeBatchAt_eq_error B h with ⟨hle, -⟩ | ⟨-, hx, -⟩
    · exact absurd hidx (Nat.not_lt.mpr hle)
    · exact hx
  · simp [removeBatchAt_of_length_le B (Nat.not_lt.mp hidx), eq_comm]

theorem removeBatch_thrown (batch : Batch) (x : Exception) :
    (∃ s, removeBatch B batch e = .error x s) ↔ e.thrownBy (.removeBatch batch) = some x := by
  cases hidx : e.problem.getOptimizationProblem batch with
  | none =>
    have hnot := (IncrementalOptimizationProblem.getOptimizationProblem_eq_none _).mp hidx
    simp [thrownBy, hnot, removeBatch_of_not_mem B hnot]
  | some idx =>
    obtain ⟨hlt, herase⟩ := IncrementalOptimizationProblem.eraseIdx_getOptimizationProblem _ hidx
    have hmem := (IncrementalOptimizationProblem.getOptimizationProblem_eq_some _ hidx).1
    have h := removeBatchAt_thrown (B := B) hs idx x
    rw [thrownBy, if_pos hlt, herase] at h
    simpa only [removeBatch, hidx, thrownBy, if_pos hmem] using h

/-- **A call throws exactly `thrownBy`'s exception.**  Where the ordering is listed, `addBatch`
and `reoptimize()` throw the ordering step's exception exactly when the marginalized group would
be declared by none of the batches; `removeBatch(idx)` throws the container's for an index past
the last batch and the ordering step's when no batch but the `idx`-th declares the group; and
`removeBatch(batch)` the latter for a batch that is there, and nothing for one that is not. -/
theorem step_error_iff (c : Call) (x : Exception) :
    (c.step B e).1 = .error x ↔ e.thrownBy c = some x := by
  cases c with
  | addBatch batch force => exact outcome_fst_eq_error.trans (addBatch_thrown hs batch force x)
  | removeBatchAt idx => exact outcome_fst_eq_error.trans (removeBatchAt_thrown hs idx x)
  | removeBatch batch => exact outcome_fst_eq_error.trans (removeBatch_thrown hs batch x)
  | reoptimize => exact outcome_fst_eq_error.trans (reoptimize_thrown hs x)

end Thrown

/-! ## 3. Along every client run -/

section ClientRuns

variable [LinearOrderedField R] {B : Backend R V J}

/-- **Which exception a call throws, on every state a client reaches.**  From construction,
through any calls whose exceptions the client catches, the next call throws exactly `thrownBy`'s
exception: the ordering step's where the marginalized group would be declared by none of the
batches the call leaves, the container's for an index past the last batch, and nothing else. -/
theorem run_throws_iff (groupId : Nat) (options : Options R) (values : V) (cs : List Call)
    (c : Call) (x : Exception) :
    (c.step B (Call.run B cs (init groupId options values)).2).1 = .error x ↔
      (Call.run B cs (init groupId options values)).2.thrownBy c = some x :=
  step_error_iff ((groupsOrdered_init groupId options values).listed.run cs) c x

/-- After a caught `addBatch` of a batch without the marginalized group, `reoptimize()` throws
the ordering step's exception as well: the batch stayed in, and no batch declares the group. -/
theorem run_throws_iff_after_stray :
    (Call.reoptimize.step countingBackend
        (Call.run countingBackend [.addBatch strayBatch false] (init 0 (capOptions 10) 0)).2).1 =
      .error (.invalidOperation margGroupMissing) :=
  (run_throws_iff 0 (capOptions 10) 0 [.addBatch strayBatch false] .reoptimize _).mpr (by decide)

end ClientRuns

end IncrementalCalibration.IncrementalEstimator
