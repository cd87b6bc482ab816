import IncrementalCalibration.Admission

/-!
# Adding a batch and removing it again

`addBatch` scores a kept batch by its information gain, half the change of the log-sum of the
marginalized group's spectrum (line 218).  `removeBatch(idx)` re-solves without the batch and
stores in `_mi` the change of the log-sum too, but not halved (line 286).  So adding a batch and
removing it right away does not give back the gain negated: when the re-solve returns the
log-sum to what it was before the addition, `getMutualInformation()` is twice the gain, negated
(`removeBatch_after_addBatch`).  `removeBatch_gain_unhalved` runs it.
-/

namespace IncrementalCalibration.IncrementalEstimator

variable {R V J : Type} [LinearOrderedField R] (B : Backend R V J)

/-! ## 1. Removal right after addition -/

/-- **Removing a batch right after adding it.**  For every state past the first round (cached
log-sum not `0`) and every batch not in the problem that `addBatch(batch, false)` keeps with
gain `g`: if `removeBatch(batch)` returns and the marginalization of the problem it leaves has
the log-sum of before the addition, then the batches and `_svLogSum` are those of before the
addition, and `getMutualInformation()` is `-2 g`. -/
theorem removeBatch_after_addBatch {e e₁ e₂ : IncrementalEstimator R V} {batch : Batch}
    {ret : ReturnValue R} {u : Unit} (hb : batch ∉ e.problem.optimizationProblems)
    (h0 : e.svLogSum ≠ 0) (hadd : addBatch B batch false e = .ok ret e₁)
    (hacc : ret.batchAccepted = true) (hrem : removeBatch B batch e₁ = .ok u e₂)
    (hs : (e₂.marginalizeSystem B).svLogSum = e.svLogSum) :
    e₂.problem.optimizationProblems = e.problem.optimizationProblems ∧
      e₂.svLogSum = e.svLogSum ∧ e₂.getMutualInformation = -2 * ret.mi := by
  obtain ⟨hacc', hmi, hbs, -, hcache, -⟩ := addBatch_spec B hb hadd
  have hkeep : ((e.withBatch batch).trialScore B).1 = true := by simpa [hacc] using hacc'.symm
  rw [hacc, if_pos rfl] at hbs
  rw [hkeep, if_pos rfl] at hcache
  have hgain : ret.mi =
      0.5 * (((e.withBatch batch).trialMarginalization B).svLogSum - e.svLogSum) := by
    rw [hmi, trialScore, scoreBatch_gain, if_neg fun h => h0 h.1]
    rfl
  rcases removeBatch_eq_ok B hrem with ⟨hnot, -⟩ | ⟨idx, hidx, hrem⟩
  · exact absurd (hbs ▸ List.mem_append_right _ (List.mem_singleton_self batch)) hnot
  obtain ⟨-, hbs₂, hcache₂, hmi₂, -⟩ := removeBatchAt_spec B hrem
  have hs₂ : e₂.svLogSum = e.svLogSum := (congrArg Marginalization.svLogSum hcache₂).trans hs
  refine ⟨?_, hs₂, ?_⟩
  · rw [hbs₂, (IncrementalOptimizationProblem.eraseIdx_getOptimizationProblem _ hidx).2, hbs,
      List.erase_append_right _ hb, List.erase_cons_head, List.append_nil]
  · have hs₁ : e₁.svLogSum = ((e.withBatch batch).trialMarginalization B).svLogSum :=
      congrArg Marginalization.svLogSum hcache
    rw [getMutualInformation, hmi₂, hs₂, hs₁, hgain]
    ring

/-! ## 2. Runs on small inputs -/

/-- On a fresh estimator whose solves are valid: `batch₁` is committed at log-sum `1`; `batch₂`
grows the column space and is kept with gain `1/2`, at log-sum `2`; `removeBatch(batch₂)`
returns to log-sum `1` and records `1 - 2`. -/
theorem add_then_remove_batch₂ :
    ∃ ret₁ e₁ ret₂ e₂ e₃, addBatch countingBackend batch₁ false (fresh 10) = .ok ret₁ e₁ ∧
      addBatch countingBackend batch₂ false e₁ = .ok ret₂ e₂ ∧ ret₂.batchAccepted = true ∧
      ret₂.mi = 1 / 2 ∧ removeBatch countingBackend batch₂ e₂ = .ok () e₃ ∧
      e₁.problem.optimizationProblems = [batch₁] ∧ e₁.svLogSum = 1 ∧
      e₃.problem.optimizationProblems = [batch₁] ∧ e₃.svLogSum = 1 ∧
      (e₃.marginalizeSystem countingBackend).svLogSum = 1 ∧ e₃.mi = -1 := by
  obtain ⟨ret₁, h₁, -⟩ :=
    addBatch_of_first_round countingBackend false (order_fresh_add_batch₁ 10) rfl (by decide)
  have hord₂ : orderMarginalizedDesignVariables
      (((((fresh 10).withBatch batch₁).solveTrial countingBackend).2.commit
        (((fresh 10).withBatch batch₁).trialMarginalization countingBackend)).withBatch batch₂) =
      .ok () _ := rfl
  obtain ⟨ret₂, h₂, hacc₂, hmi₂⟩ :=
    addBatch_of_informative countingBackend false hord₂ (by decide) (by decide) (.inr (by decide))
  refine ⟨ret₁, _, ret₂, _, _, h₁, h₂, hacc₂, ?_, rfl, rfl, ?_, rfl, ?_, ?_, ?_⟩
  · rw [hmi₂]
    show (0.5 : ℚ) * (((2 : ℕ) : ℚ) - ((1 : ℕ) : ℚ)) = 1 / 2
    norm_num
  iterate 3
    · show ((1 : ℕ) : ℚ) = 1
      norm_num
  · show ((1 : ℕ) : ℚ) - ((2 : ℕ) : ℚ) = -1
    norm_num

/-- The run of `add_then_remove_batch₂`, from the state with `batch₁` committed: removing
`batch₂` records twice its gain, negated. -/
theorem removeBatch_after_addBatch_batch₂ :
    ∃ ret₂ e₁ e₂ e₃, addBatch countingBackend batch₂ false e₁ = .ok ret₂ e₂ ∧
      ret₂.batchAccepted = true ∧ removeBatch countingBackend batch₂ e₂ = .ok () e₃ ∧
      e₃.problem.optimizationProblems = e₁.problem.optimizationProblems ∧
      e₃.svLogSum = e₁.svLogSum ∧ e₃.getMutualInformation = -2 * ret₂.mi := by
  obtain ⟨-, e₁, ret₂, e₂, e₃, -, h₂, hacc, -, h₃, hb₁, hs₁, -, -, hs₃, -⟩ := add_then_remove_batch₂
  have hb : batch₂ ∉ e₁.problem.optimizationProblems := by
    rw [hb₁]
    decide
  exact ⟨ret₂, e₁, e₂, e₃, h₂, hacc, h₃, removeBatch_after_addBatch countingBackend hb
    (by rw [hs₁]; exact one_ne_zero) h₂ hacc h₃ (hs₃.trans hs₁.symm)⟩

/-- **`removeBatch` records the change of the log-sum unhalved.**  On a fresh estimator,
`batch₁` is committed and `batch₂` is kept with gain `1/2`; removing `batch₂` brings the batch
count and `_svLogSum` back, but `getMutualInformation()` is `-1`, not `-1/2`. -/
theorem removeBatch_gain_unhalved :
    ∃ ret₁ e₁ ret₂ e₂ e₃, addBatch countingBackend batch₁ false (fresh 10) = .ok ret₁ e₁ ∧
      addBatch countingBackend batch₂ false e₁ = .ok ret₂ e₂ ∧ ret₂.batchAccepted = true ∧
      removeBatch countingBackend batch₂ e₂ = .ok () e₃ ∧
      e₃.getNumBatches = e₁.getNumBatches ∧ e₃.svLogSum = e₁.svLogSum ∧
      ret₂.mi = 1 / 2 ∧ e₃.getMutualInformation = -1 ∧ e₃.getMutualInformation ≠ -ret₂.mi := by
  obtain ⟨ret₁, e₁, ret₂, e₂, e₃, h₁, h₂, hacc, hmi, h₃, hb₁, hs₁, hb₃, hs₃, -, hmi₃⟩ :=
    add_then_remove_batch₂
  refine ⟨ret₁, e₁, ret₂, e₂, e₃, h₁, h₂, hacc, h₃, ?_, hs₃.trans hs₁.symm, hmi, hmi₃, ?_⟩
  · simp only [getNumBatches, IncrementalOptimizationProblem.getNumOptimizationProblems, hb₁, hb₃]
  · rw [getMutualInformation, hmi₃, hmi]
    norm_num

end IncrementalCalibration.IncrementalEstimator
