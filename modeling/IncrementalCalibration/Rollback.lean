import IncrementalCalibration.Calls

/-!
# Rejection and failure

`addBatch` works on the shared problem in place: it inserts the batch, orders the groups, saves
the design variables, solves and marginalizes, and only then decides.  A rejected batch is
undone by `undoBatch` (lines 250-259): out of the problem, variables restored, solver rebuilt.
So rejection must restore exactly what the trial touched, and `addBatch_rejected_restores` shows
it does: the batch list, every design variable's value, `_mi` and the whole cached spectral
state come back, whatever the trial's outcome.

A THROWN call is another matter.  `addBatch` inserts its batch (line 178) and `removeBatch(idx)`
removes its batch (line 273) before `orderMarginalizedDesignVariables` can throw, and nothing
catches the exception to roll back.  `failed_calls_frame` states what a failing call leaves
behind, and `addBatch_failure_keeps_batch` runs one.
-/

namespace IncrementalCalibration.IncrementalEstimator

variable {R V J : Type} [LinearOrderedField R] (B : Backend R V J)

/-! ## 1. Rejection restores the problem and the cache -/

/-- **Rollback purity.**  For every state and every batch not already in the problem, an
`addBatch(batch, false)` that returns with the batch rejected leaves the batch list, the value of
every design variable, `_mi`, and `_svLogSum`, `_NS`, `_CS`, `_Sigma`, `_SigmaP` and `_Omega`
as they were before the call. -/
theorem addBatch_rejected_restores {e e' : IncrementalEstimator R V} {batch : Batch}
    {ret : ReturnValue R} (hb : batch ∉ e.problem.optimizationProblems)
    (h : addBatch B batch false e = .ok ret e') (hrej : ret.batchAccepted = false) :
    e'.problem.optimizationProblems = e.problem.optimizationProblems ∧
      e'.problem.values = e.problem.values ∧ e'.mi = e.mi ∧ e'.cache = e.cache := by
  obtain ⟨hacc, -, hbs, hvs, hcache, hmi, -⟩ := addBatch_spec B hb h
  have hdrop : ((e.withBatch batch).trialScore B).1 = false := by simpa [hrej] using hacc.symm
  simp only [hrej, hdrop, Bool.false_eq_true, false_and, if_false] at hbs hvs hcache hmi
  exact ⟨hbs, hvs, hmi, hcache⟩

/-! ## 2. What a failing call leaves behind -/

/-- **Failure is not atomic.**  For every state: a `reoptimize` that throws changed nothing, and a
`removeBatch(batch)` for a batch not in the problem returns having changed nothing.  But an
`addBatch` that throws leaves its batch appended to the problem, and a `removeBatch(idx)` that
throws `InvalidOperationException` leaves the `idx`-th batch removed; in both, the design
variables, `_mi` and the cached spectral state are untouched. -/
theorem failed_calls_frame (e : IncrementalEstimator R V) :
    (∀ x e', reoptimize B e = .error x e' → e' = e) ∧
    (∀ batch, batch ∉ e.problem.optimizationProblems → removeBatch B batch e = .ok () e) ∧
    (∀ batch force x e', addBatch B batch force e = .error x e' →
      e'.problem.optimizationProblems = e.problem.optimizationProblems ++ [batch] ∧
        e'.problem.values = e.problem.values ∧ e'.mi = e.mi ∧ e'.cache = e.cache) ∧
    (∀ idx e', removeBatchAt B idx e = .error (.invalidOperation margGroupMissing) e' →
      e'.problem.optimizationProblems = e.problem.optimizationProblems.eraseIdx idx ∧
        e'.problem.values = e.problem.values ∧ e'.mi = e.mi ∧ e'.cache = e.cache) := by
  refine ⟨fun _ _ h => (reoptimize_eq_error B h).1, fun _ h => removeBatch_of_not_mem B h,
    fun _ _ _ _ h => ?_, fun _ _ h => ?_⟩
  · obtain ⟨rfl, -, -⟩ := addBatch_eq_error B h
    exact ⟨rfl, rfl, rfl, rfl⟩
  · rcases removeBatchAt_eq_error B h with ⟨-, hx, -⟩ | ⟨-, -, rfl, -⟩
    · cases hx
    · exact ⟨rfl, rfl, rfl, rfl⟩

/-! ## 3. Runs on small inputs -/

/-- A design variable of group `0`, three-dimensional and active. -/
def dv₀ : DesignVariable := ⟨0, 0, true, 3, -1, 0⟩

/-- A back end for running the estimator on small inputs.  The optimizer takes one iteration
(none past its cap), lowers the cost from `1` to `0` and advances the design variables, counted
by a `Nat`; the marginalization of `n` batches at values `v` has log-sum `n`, a column space of
`n` columns and an `Omega` of `v` columns. -/
def countingBackend : Backend ℚ Nat (Nat × Nat) where
  optimize o _ v := (⟨min 1 o.maxIterations, 1, 0⟩, v + 1)
  iterations_le _ _ _ := Nat.min_le_right _ _
  jacobianTranspose bs v := (bs.length, v)
  rows _ := 0
  marginalize j _ := ⟨j.1, .empty, .zero 1 j.1, .empty, .empty, .zero 1 j.2⟩
  getRank _ j := j.1
  getTol _ _ := 0
  getMemoryUsage _ _ := 0

/-- The log-sum `countingBackend` marginalizes to is the number of batches. -/
theorem countingBackend_svLogSum (e : IncrementalEstimator ℚ Nat) (k : Nat) :
    (countingBackend.marginalize (e.getJacobianTranspose countingBackend) k).svLogSum =
      e.problem.optimizationProblems.length := rfl

/-- The `_Omega` `countingBackend` marginalizes to has a column per advance of the values. -/
theorem countingBackend_Omega_cols (e : IncrementalEstimator ℚ Nat) (k : Nat) :
    (countingBackend.marginalize (e.getJacobianTranspose countingBackend) k).Omega.cols =
      e.problem.values := rfl

/-- Options whose iteration cap is `maxIterations`, with threshold `0.2`. -/
def capOptions (maxIterations : Nat) : Options ℚ := ⟨0.2, false, maxIterations, false, 0⟩

/-- A batch that declares the marginalized group `0`. -/
def batch₁ : Batch := ⟨1, [dv₀], []⟩

/-- A second batch, over the same design variable. -/
def batch₂ : Batch := ⟨3, [dv₀], []⟩

/-- A fresh estimator over `countingBackend` with iteration cap `maxIterations`. -/
def fresh (maxIterations : Nat) : IncrementalEstimator ℚ Nat := init 0 (capOptions maxIterations) 0

/-- The fresh estimator with `batch₁` in, already ordered: group `0` is its only group. -/
theorem order_fresh_add_batch₁ (maxIterations : Nat) :
    orderMarginalizedDesignVariables ((fresh maxIterations).withBatch batch₁) =
      .ok () ((fresh maxIterations).withBatch batch₁) := rfl

/-- With an iteration cap of one, the trial of `batch₁` on a fresh estimator hits the cap and the
score drops the batch. -/
theorem batch₁_dropped_at_cap : (((fresh 1).withBatch batch₁).trialScore countingBackend).1 = false := by
  rw [trialScore, scoreBatch_fst]
  rfl

/-- A batch whose only variable declares group `1`, not the marginalized group `0`. -/
def strayBatch : Batch := ⟨2, [{ dv₀ with id := 1, groupId := 1 }], []⟩

/-- `countingBackend` with an optimizer that takes one iteration per batch, none past its cap:
under a cap of two, a trial of one batch is valid and a trial of two hits the cap. -/
def slowBackend : Backend ℚ Nat (Nat × Nat) :=
  { countingBackend with
    optimize := fun o bs v => (⟨min bs.length o.maxIterations, 1, 0⟩, v + 1)
    iterations_le := fun _ _ _ => Nat.min_le_right _ _ }

/-- `fresh 2` once `addBatch(batch₁)` has committed over `slowBackend`. -/
def committed₁ : IncrementalEstimator ℚ Nat :=
  (((fresh 2).withBatch batch₁).solveTrial slowBackend).2.commit
    (((fresh 2).withBatch batch₁).trialMarginalization slowBackend)

/-- `addBatch(batch₁)` on `fresh 2` is a valid first round: the batch is kept, the values move
to `1` and a marginalization of log-sum `1` is committed. -/
theorem addBatch_batch₁_commits :
    ∃ ret, addBatch slowBackend batch₁ false (fresh 2) = .ok ret committed₁ ∧
      ret.batchAccepted = true ∧ committed₁.problem.values = 1 ∧ committed₁.svLogSum = 1 :=
  let ⟨ret, h, hacc, _⟩ :=
    addBatch_of_first_round slowBackend false (order_fresh_add_batch₁ 2) rfl (by decide)
  ⟨ret, h, hacc, rfl, by decide⟩

/-- `committed₁` with `strayBatch` in and its groups ordered: the new group `1`, then `0`. -/
def strayOrdered : IncrementalEstimator ℚ Nat :=
  { committed₁.withBatch strayBatch with
    problem := (committed₁.withBatch strayBatch).problem.setGroupsOrdering [1, 0] }

/-- Inserting `strayBatch` appends group `1` behind the marginalized group, and the ordering step
swaps the two. -/
theorem order_committed₁_add_stray :
    orderMarginalizedDesignVariables (committed₁.withBatch strayBatch) = .ok () strayOrdered := rfl

/-- The trial of `batch₁` and `strayBatch` takes two iterations, the cap, and an unforced
`addBatch` rejects `strayBatch`. -/
theorem stray_rejected_after_batch₁ :
    (strayOrdered.trialBatch slowBackend strayBatch false).1.batchAccepted = false := by
  rw [trialBatch_batchAccepted, trialScore, scoreBatch_fst]
  rfl

/-- **A rejection after a commit.**  Once `batch₁` is committed, `strayBatch` is tried under a
cap of two and rejected: the batch list, the values, `_mi` and the cache of the commit, of
log-sum `1`, come back. -/
theorem addBatch_rejected_restores_after_commit :
    ∃ ret e', addBatch slowBackend strayBatch false committed₁ = .ok ret e' ∧
      ret.batchAccepted = false ∧ committed₁.svLogSum = 1 ∧
      e'.problem.optimizationProblems = committed₁.problem.optimizationProblems ∧
      e'.problem.values = committed₁.problem.values ∧ e'.mi = committed₁.mi ∧
      e'.cache = committed₁.cache := by
  have hrun : addBatch slowBackend strayBatch false committed₁ = _ :=
    addBatch_of_order_ok slowBackend order_committed₁_add_stray
  exact ⟨_, _, hrun, stray_rejected_after_batch₁, by decide,
    addBatch_rejected_restores slowBackend (by decide) hrun stray_rejected_after_batch₁⟩

/-- **A failing `addBatch` keeps its batch**: on a fresh estimator, adding a batch without the
marginalized group throws, and the problem now holds that batch. -/
theorem addBatch_failure_keeps_batch :
    addBatch countingBackend strayBatch false (fresh 10) =
      .error (.invalidOperation margGroupMissing)
        { fresh 10 with problem := (fresh 10).problem.add strayBatch } ∧
    ((fresh 10).problem.add strayBatch).optimizationProblems ≠
      (fresh 10).problem.optimizationProblems :=
  ⟨rfl, by simp [fresh, init, IncrementalOptimizationProblem.empty]⟩

end IncrementalCalibration.IncrementalEstimator
