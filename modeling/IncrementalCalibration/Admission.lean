import IncrementalCalibration.Runs

/-!
# How `addBatch` admits a batch

Lines 186-250 of `addBatch` decide on a batch in three steps.  The trial solve is VALID when it
stopped below the optimizer's iteration cap and lowered the cost.  The batch is INFORMATIVE when
the solve is valid and either this is the first round, or half the change of the log-sum passes
`_miTol`, or the column space of the marginalized group grew.  The batch stays when it is
informative or forced, and the cache is committed when it is informative.

The first round of estimation, as the comment of line 207 calls it, is tested with the sentinel
`!_svLogSum` (line 208): the cached log-sum is `0`.  That is true on a fresh estimator, but also
after any commit whose log-sum was `0`, and then a batch that adds nothing is taken in as a
first round.  And the reported gain is `0` only when the sentinel holds AND the solve is valid:
an invalid first-round solve reports half the new log-sum (`first_round_by_sentinel`).

`addBatch_decision` states the decision as the code makes it, on every state, for every batch
not yet in the problem and every outcome of the solve and of `marginalize`.  Where the sentinel
is exact, the log-sum being `0` exactly while the cache is the constructor's (on every state a
run reaches when `marginalize` never returns a log-sum of `0`: `reach_firstRound_iff`), the
first round is the round before any commit, and `addBatch_admission` states the decision so.
-/

namespace IncrementalCalibration.IncrementalEstimator

variable {R V J : Type} [LinearOrderedField R] (B : Backend R V J)

/-! ## 1. The decision -/

section Decision

variable {e e' : IncrementalEstimator R V} {batch : Batch} {force : Bool} {ret : ReturnValue R}
  {srv : SolutionReturnValue R} {m : Marginalization R}

/-- **How `addBatch` decides, on the sentinel.**  For every state and every batch not in the
problem, let the trial solve on the problem with the batch in return `srv` and its
marginalization be `m`.  The batch is accepted, and stays in the problem, exactly when it is
forced or when the solve is valid (below the cap, cost lowered) and the cached log-sum is `0` or
the gain `0.5 (m.svLogSum - _svLogSum)` passes `_miTol` or the column space grew.  The reported
gain is `0` when the cached log-sum is `0` and the solve is valid, and the half change
otherwise.  The cache becomes `m` exactly when the batch is informative. -/
theorem addBatch_decision (hsrv : ((e.withBatch batch).solveTrial B).1 = srv)
    (hm : (e.withBatch batch).trialMarginalization B = m)
    (hb : batch ∉ e.problem.optimizationProblems) (h : addBatch B batch force e = .ok ret e') :
    (ret.batchAccepted = true ↔ force = true ∨
      (srv.iterations < e.options.maxIterations ∧ srv.JFinal < srv.JStart) ∧
        (e.svLogSum = 0 ∨ 0.5 * (m.svLogSum - e.svLogSum) > e.options.miTol ∨
          m.CS.cols > e.CS.cols)) ∧
    e'.problem.optimizationProblems =
      (if ret.batchAccepted then e.problem.optimizationProblems ++ [batch]
        else e.problem.optimizationProblems) ∧
    ret.mi =
      (if e.svLogSum = 0 ∧ srv.iterations < e.options.maxIterations ∧ srv.JFinal < srv.JStart
        then 0 else 0.5 * (m.svLogSum - e.svLogSum)) ∧
    e'.cache =
      (if (srv.iterations < e.options.maxIterations ∧ srv.JFinal < srv.JStart) ∧
          (e.svLogSum = 0 ∨ 0.5 * (m.svLogSum - e.svLogSum) > e.options.miTol ∨
            m.CS.cols > e.CS.cols)
        then m else e.cache) := by
  obtain ⟨hacc, hmi, hbs, -, hcache, -⟩ := addBatch_spec B hb h
  have hvalid := trialValid_iff B (e.withBatch batch)
  have hkeep := trialScore_fst_iff B (e.withBatch batch)
  simp only [hsrv, hm, withBatch_options, withBatch_svLogSum, withBatch_CS] at hvalid hkeep
  have hgain : ((e.withBatch batch).trialScore B).2.1 =
      if e.svLogSum = 0 ∧ srv.iterations < e.options.maxIterations ∧ srv.JFinal < srv.JStart
        then 0 else 0.5 * (m.svLogSum - e.svLogSum) := by
    rw [trialScore, scoreBatch_gain, hm]
    simp [hvalid]
  refine ⟨by rw [hacc, Bool.or_eq_true, hkeep, or_comm], hbs, hmi.trans hgain, ?_⟩
  rw [hcache, hm]
  exact if_congr hkeep rfl rfl

/-- **How `addBatch` admits a batch, where the sentinel is exact.**  On every state whose
cached log-sum is `0` exactly while its cache is the one the constructor left, for every batch
not in the problem and every outcome `srv` of the trial solve and `m` of its marginalization:
the batch is accepted, and stays in the problem, exactly when it is forced or when the solve is
valid and no commit has been made, or the gain `0.5 (m.svLogSum - _svLogSum)` passes `_miTol`,
or the column space grew.  The reported gain is `0` when no commit has been made and the solve
is valid, and the half change otherwise.  The cache becomes `m` exactly when the batch is
informative. -/
theorem addBatch_admission (hfirst : e.svLogSum = 0 ↔ e.cache = emptyCache)
    (hsrv : ((e.withBatch batch).solveTrial B).1 = srv)
    (hm : (e.withBatch batch).trialMarginalization B = m)
    (hb : batch ∉ e.problem.optimizationProblems) (h : addBatch B batch force e = .ok ret e') :
    (ret.batchAccepted = true ↔ force = true ∨
      (srv.iterations < e.options.maxIterations ∧ srv.JFinal < srv.JStart) ∧
        (e.cache = emptyCache ∨ 0.5 * (m.svLogSum - e.svLogSum) > e.options.miTol ∨
          m.CS.cols > e.CS.cols)) ∧
    e'.problem.optimizationProblems =
      (if ret.batchAccepted then e.problem.optimizationProblems ++ [batch]
        else e.problem.optimizationProblems) ∧
    ret.mi =
      (if e.cache = emptyCache ∧ srv.iterations < e.options.maxIterations ∧ srv.JFinal < srv.JStart
        then 0 else 0.5 * (m.svLogSum - e.svLogSum)) ∧
    e'.cache =
      (if (srv.iterations < e.options.maxIterations ∧ srv.JFinal < srv.JStart) ∧
          (e.cache = emptyCache ∨ 0.5 * (m.svLogSum - e.svLogSum) > e.options.miTol ∨
            m.CS.cols > e.CS.cols)
        then m else e.cache) := by
  simp only [← hfirst]
  exact addBatch_decision B hsrv hm hb h

end Decision

/-! ## 2. Runs on small inputs -/

/-- The first batch on a fresh estimator whose solves are valid: accepted with gain `0`, and its
marginalization committed. -/
theorem addBatch_admission_first_batch :
    ∃ ret e', addBatch countingBackend batch₁ false (fresh 10) = .ok ret e' ∧
      ret.batchAccepted = true ∧ e'.problem.optimizationProblems = [batch₁] ∧ ret.mi = 0 ∧
      e'.cache = ((fresh 10).withBatch batch₁).trialMarginalization countingBackend := by
  have hrun : addBatch countingBackend batch₁ false (fresh 10) = _ :=
    addBatch_of_order_ok countingBackend (order_fresh_add_batch₁ 10)
  obtain ⟨hacc, hbs, hmi, hcache⟩ :=
    addBatch_admission countingBackend (by exact ⟨fun _ => rfl, fun _ => rfl⟩) rfl rfl
      (List.not_mem_nil batch₁) hrun
  have hvalid : (((fresh 10).withBatch batch₁).solveTrial countingBackend).1.iterations <
        (fresh 10).options.maxIterations ∧
      (((fresh 10).withBatch batch₁).solveTrial countingBackend).1.JFinal <
        (((fresh 10).withBatch batch₁).solveTrial countingBackend).1.JStart := by decide
  have hacc' := hacc.mpr (.inr ⟨hvalid, .inl rfl⟩)
  rw [hacc', if_pos rfl] at hbs
  rw [if_pos ⟨rfl, hvalid⟩] at hmi
  rw [if_pos ⟨hvalid, .inl rfl⟩] at hcache
  exact ⟨_, _, hrun, hacc', hbs, hmi, hcache⟩

/-- `countingBackend` with flat marginalizations: log-sum `0` and a one-column column space. -/
def flatBackend : Backend ℚ Nat (Nat × Nat) :=
  { countingBackend with marginalize := fun j _ => ⟨0, .empty, .zero 1 1, .empty, .empty, .zero 1 j.2⟩ }

/-- **The first round is the sentinel, and its gain is not always `0`.**  On a fresh estimator,
where nothing has been committed, a trial solve that hits the iteration cap makes `addBatch`
report half the new log-sum, `1/2`.  And once `batch₁` has been committed with log-sum `0`, so
that the cache is no longer the constructor's, `batch₂` is taken in unforced as a first round,
although its gain does not pass `_miTol` and the column space did not grow. -/
theorem first_round_by_sentinel :
    (∃ ret e', addBatch countingBackend batch₁ false (fresh 1) = .ok ret e' ∧ ret.mi = 1 / 2) ∧
    (∃ ret₁ e₁ ret₂ e₂, addBatch flatBackend batch₁ false (fresh 10) = .ok ret₁ e₁ ∧
      ret₁.batchAccepted = true ∧
      e₁.cache = ((fresh 10).withBatch batch₁).trialMarginalization flatBackend ∧
      e₁.cache ≠ emptyCache ∧ e₁.svLogSum = 0 ∧
      addBatch flatBackend batch₂ false e₁ = .ok ret₂ e₂ ∧ ret₂.batchAccepted = true ∧
      ¬ 0.5 * (((e₁.withBatch batch₂).trialMarginalization flatBackend).svLogSum - e₁.svLogSum) >
        e₁.options.miTol ∧
      ¬ ((e₁.withBatch batch₂).trialMarginalization flatBackend).CS.cols > e₁.CS.cols) := by
  constructor
  · -- an invalid first round
    refine ⟨_, _, addBatch_of_order_ok countingBackend (order_fresh_add_batch₁ 1), ?_⟩
    rw [trialBatch_mi, trialScore, scoreBatch_gain, if_neg (by decide)]
    show (0.5 : ℚ) * (((1 : ℕ) : ℚ) - 0) = 1 / 2
    norm_num
  · -- a commit of log-sum `0`, then a batch that adds nothing
    obtain ⟨ret₁, h₁, hacc₁, -⟩ :=
      addBatch_of_first_round flatBackend false (order_fresh_add_batch₁ 10) rfl (by decide)
    have hord₂ : orderMarginalizedDesignVariables
        (((((fresh 10).withBatch batch₁).solveTrial flatBackend).2.commit
          (((fresh 10).withBatch batch₁).trialMarginalization flatBackend)).withBatch batch₂) =
        .ok () _ := rfl
    obtain ⟨ret₂, h₂, hacc₂, -⟩ := addBatch_of_first_round flatBackend false hord₂ rfl (by decide)
    refine ⟨ret₁, _, ret₂, _, h₁, hacc₁, commit_cache _ _, fun h => ?_, rfl, h₂, hacc₂, ?_, by decide⟩
    · exact absurd (congrArg (fun m => m.CS.cols) h) (by decide)
    · show ¬ (0.5 : ℚ) * (0 - 0) > 0.2
      norm_num

end IncrementalCalibration.IncrementalEstimator
