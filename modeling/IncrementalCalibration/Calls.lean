import IncrementalCalibration.Estimator

/-!
# What each call does

One inversion lemma per call of `IncrementalEstimator.cpp`, so that no later proof unfolds a
call: `orderMarginalizedDesignVariables` either throws, changing nothing, or changes only the
groups ordering; `addBatch` either throws after inserting its batch, or runs `trialBatch` on the
ordered problem; `trialBatch` is the trial solve, the score and, when neither the score nor
`force` keeps the batch, `undoBatch`; `removeBatchAt` and `reoptimize` either throw or commit a
fresh marginalization.
-/

namespace IncrementalCalibration.IncrementalEstimator

variable {R V J : Type} (B : Backend R V J)

/-! ## 1. `orderMarginalizedDesignVariables` -/

/-- The ordering step throws exactly when the marginalized group is missing, and then it
changes nothing. -/
theorem orderMarginalizedDesignVariables_eq_error {e e' : IncrementalEstimator R V}
    {x : Exception} (h : orderMarginalizedDesignVariables e = .error x e') :
    e' = e ∧ x = .invalidOperation margGroupMissing ∧
      e.margGroupId ∉ e.problem.groupsOrdering := by
  unfold orderMarginalizedDesignVariables at h
  dsimp only at h
  split_ifs at h with h1
  · cases h
    exact ⟨rfl, rfl, List.indexOf_eq_length.mp h1⟩

/-- A missing marginalized group makes the ordering step throw. -/
theorem orderMarginalizedDesignVariables_of_not_mem {e : IncrementalEstimator R V}
    (h : e.margGroupId ∉ e.problem.groupsOrdering) :
    orderMarginalizedDesignVariables e = .error (.invalidOperation margGroupMissing) e :=
  if_pos (List.indexOf_eq_length.mpr h)

/-- When the ordering step returns, the group was there, and only the ordering changed. -/
theorem orderMarginalizedDesignVariables_eq_ok {e e' : IncrementalEstimator R V} {u : Unit}
    (h : orderMarginalizedDesignVariables e = .ok u e') :
    e.margGroupId ∈ e.problem.groupsOrdering ∧
      ∃ gs, e' = { e with problem := e.problem.setGroupsOrdering gs } := by
  unfold orderMarginalizedDesignVariables at h
  dsimp only at h
  split_ifs at h with h1
  all_goals
    cases h
    exact ⟨by simpa [List.indexOf_eq_length] using h1, _, rfl⟩

/-! ## 2. The trial solve and the score -/

section Trial

variable (e : IncrementalEstimator R V)

@[simp] theorem solveTrial_optimizationProblems :
    (e.solveTrial B).2.problem.optimizationProblems = e.problem.optimizationProblems := rfl
@[simp] theorem solveTrial_groupsOrdering :
    (e.solveTrial B).2.problem.groupsOrdering = e.problem.groupsOrdering := rfl
@[simp] theorem solveTrial_savedValues :
    (e.solveTrial B).2.problem.savedValues = e.problem.values := rfl
@[simp] theorem solveTrial_cache : (e.solveTrial B).2.cache = e.cache := rfl
@[simp] theorem solveTrial_mi : (e.solveTrial B).2.mi = e.mi := rfl
@[simp] theorem solveTrial_options : (e.solveTrial B).2.options = e.options := rfl
@[simp] theorem solveTrial_margGroupId : (e.solveTrial B).2.margGroupId = e.margGroupId := rfl
@[simp] theorem solveTrial_svLogSum : (e.solveTrial B).2.svLogSum = e.svLogSum := rfl
@[simp] theorem solveTrial_CS : (e.solveTrial B).2.CS = e.CS := rfl
@[simp] theorem solveTrial_cerr : (e.solveTrial B).2.cerr = e.cerr := rfl

/-- The trial solve does not read the groups ordering. -/
@[simp] theorem solveTrial_setGroupsOrdering (gs : List Nat) :
    (({ e with problem := e.problem.setGroupsOrdering gs } : IncrementalEstimator R V).solveTrial B).1 =
      (e.solveTrial B).1 ∧
    (({ e with problem := e.problem.setGroupsOrdering gs } : IncrementalEstimator R V).solveTrial B).2.problem.values =
      (e.solveTrial B).2.problem.values := ⟨rfl, rfl⟩

variable [LinearOrderedField R]

/-- The marginalization of the trial solve. -/
def trialMarginalization : Marginalization R := (e.solveTrial B).2.marginalizeSystem B

/-- Whether the trial solve is valid. -/
def trialValid : Bool := (e.solveTrial B).2.solutionValid (e.solveTrial B).1

/-- The score of the trial: `keepBatch`, `ret._mi` and the estimator after lines 207-239. -/
def trialScore : Bool × R × IncrementalEstimator R V :=
  (e.solveTrial B).2.scoreBatch (e.trialMarginalization B) (e.trialValid B)

/-- `addBatch` accepts what the score keeps, and what it is forced to. -/
theorem trialBatch_batchAccepted (batch : Batch) (force : Bool) :
    (e.trialBatch B batch force).1.batchAccepted = ((e.trialScore B).1 || force) := rfl

/-- `addBatch` reports the score's gain. -/
theorem trialBatch_mi (batch : Batch) (force : Bool) :
    (e.trialBatch B batch force).1.mi = (e.trialScore B).2.1 := rfl

/-- After the trial, the batch stays if accepted, and is undone otherwise. -/
theorem trialBatch_snd (batch : Batch) (force : Bool) :
    (e.trialBatch B batch force).2 =
      if (e.trialScore B).1 || force then (e.trialScore B).2.2
      else (e.trialScore B).2.2.undoBatch batch := by
  show (if !(e.trialScore B).1 && !force then _ else _) = _
  cases (e.trialScore B).1 <;> cases force <;> rfl

variable (m : Marginalization R) (v : Bool)

/-- **The score's three outcomes**: keep at a valid first round, keep on gain or rank with the
gain recorded, or drop, having possibly warned. -/
theorem scoreBatch_cases :
    (e.svLogSum = 0 ∧ v = true ∧ e.scoreBatch m v = (true, 0, e.commit m)) ∨
    (¬ (e.svLogSum = 0 ∧ v = true) ∧
      (e.options.miTol < 0.5 * (m.svLogSum - e.svLogSum) ∨ e.CS.cols < m.CS.cols) ∧ v = true ∧
      e.scoreBatch m v = (true, 0.5 * (m.svLogSum - e.svLogSum),
        { (e.warnRankDown m).commit m with mi := 0.5 * (m.svLogSum - e.svLogSum) })) ∨
    (¬ (e.svLogSum = 0 ∧ v = true) ∧
      ¬ ((e.options.miTol < 0.5 * (m.svLogSum - e.svLogSum) ∨ e.CS.cols < m.CS.cols) ∧ v = true) ∧
      e.scoreBatch m v = (false, 0.5 * (m.svLogSum - e.svLogSum), e.warnRankDown m)) := by
  simp only [scoreBatch, warnRankDown_options, warnRankDown_CS, gt_iff_lt]
  split_ifs with h1 h2
  · exact .inl ⟨h1.1, h1.2, rfl⟩
  · exact .inr (.inl ⟨h1, h2.1, h2.2, rfl⟩)
  · exact .inr (.inr ⟨h1, h2, rfl⟩)

/-- **What the score keeps**: a valid solve whose state is at the first round, or whose gain
passes the threshold, or whose column space grew. -/
theorem scoreBatch_fst :
    (e.scoreBatch m v).1 = (v && (decide (e.svLogSum = 0) ||
      decide (e.options.miTol < 0.5 * (m.svLogSum - e.svLogSum)) ||
        decide (e.CS.cols < m.CS.cols))) := by
  rcases scoreBatch_cases e m v with ⟨h0, hv, h⟩ | ⟨-, hg, hv, h⟩ | ⟨h1, h2, h⟩ <;> rw [h]
  · simp [h0, hv]
  · rcases hg with hg | hg <;> simp [hg, hv]
  · cases v <;> simp_all

/-- The gain the score reports: `0` at a valid first round, half the log-sum change otherwise. -/
theorem scoreBatch_gain :
    (e.scoreBatch m v).2.1 =
      if e.svLogSum = 0 ∧ v = true then 0 else 0.5 * (m.svLogSum - e.svLogSum) := by
  rcases scoreBatch_cases e m v with ⟨h0, hv, h⟩ | ⟨h1, -, -, h⟩ | ⟨h1, -, h⟩ <;> rw [h]
  · simp [h0, hv]
  · simp [h1]
  · simp [h1]

@[simp] theorem scoreBatch_problem : (e.scoreBatch m v).2.2.problem = e.problem := by
  rcases scoreBatch_cases e m v with ⟨-, -, h⟩ | ⟨-, -, -, h⟩ | ⟨-, -, h⟩ <;> simp [h]

@[simp] theorem scoreBatch_options : (e.scoreBatch m v).2.2.options = e.options := by
  rcases scoreBatch_cases e m v with ⟨-, -, h⟩ | ⟨-, -, -, h⟩ | ⟨-, -, h⟩ <;> simp [h]

@[simp] theorem scoreBatch_margGroupId : (e.scoreBatch m v).2.2.margGroupId = e.margGroupId := by
  rcases scoreBatch_cases e m v with ⟨-, -, h⟩ | ⟨-, -, -, h⟩ | ⟨-, -, h⟩ <;> simp [h]

@[simp] theorem scoreBatch_matrixStructure :
    (e.scoreBatch m v).2.2.matrixStructure = e.matrixStructure := by
  rcases scoreBatch_cases e m v with ⟨-, -, h⟩ | ⟨-, -, -, h⟩ | ⟨-, -, h⟩ <;> simp [h]

/-- **The score commits exactly what it keeps.** -/
theorem scoreBatch_cache :
    (e.scoreBatch m v).2.2.cache = if (e.scoreBatch m v).1 then m else e.cache := by
  rcases scoreBatch_cases e m v with ⟨-, -, h⟩ | ⟨-, -, -, h⟩ | ⟨-, -, h⟩ <;> rw [h]
  · simp
  · exact (if_pos rfl).symm
  · simp

/-- The score records the gain in `_mi` when it keeps a batch past the first round. -/
theorem scoreBatch_mi :
    (e.scoreBatch m v).2.2.mi =
      if (e.scoreBatch m v).1 ∧ ¬ (e.svLogSum = 0 ∧ v = true) then (e.scoreBatch m v).2.1
      else e.mi := by
  rcases scoreBatch_cases e m v with ⟨h0, hv, h⟩ | ⟨h1, -, -, h⟩ | ⟨h1, -, h⟩ <;> rw [h]
  · simp [h0, hv]
  · simp [h1]
  · simp

/-! ### The trial, field by field -/

/-- A solve is valid exactly when it stopped below the iteration cap and the cost went down.
Read over an ordered field, `JFinal >= JStart` is the negation of `JFinal < JStart`; over doubles
it is not, since a NaN cost fails both comparisons and the code's test (lines 191-192) then lets
the solve through as valid.  The model has no NaN. -/
theorem solutionValid_iff {srv : SolutionReturnValue R} (hle : srv.iterations ≤ e.options.maxIterations) :
    e.solutionValid srv = true ↔
      srv.iterations < e.options.maxIterations ∧ srv.JFinal < srv.JStart := by
  simp [solutionValid, optimizerOptions, Nat.lt_iff_le_and_ne, hle]

/-- The trial solve is valid exactly when it stopped below the cap and lowered the cost. -/
theorem trialValid_iff :
    e.trialValid B = true ↔ (e.solveTrial B).1.iterations < e.options.maxIterations ∧
      (e.solveTrial B).1.JFinal < (e.solveTrial B).1.JStart :=
  solutionValid_iff _ (B.iterations_le _ _ _)

/-- The score keeps the batch exactly when the trial solve is valid and the batch is
informative: a first round, a gain past `_miTol`, or a larger column space. -/
theorem trialScore_fst_iff :
    (e.trialScore B).1 = true ↔
      ((e.solveTrial B).1.iterations < e.options.maxIterations ∧
        (e.solveTrial B).1.JFinal < (e.solveTrial B).1.JStart) ∧
      (e.svLogSum = 0 ∨ e.options.miTol < 0.5 * ((e.trialMarginalization B).svLogSum - e.svLogSum) ∨
        e.CS.cols < (e.trialMarginalization B).CS.cols) := by
  rw [trialScore, scoreBatch_fst]
  simp [trialValid_iff, or_assoc]

@[simp] theorem trialScore_optimizationProblems :
    (e.trialScore B).2.2.problem.optimizationProblems = e.problem.optimizationProblems := by
  simp [trialScore]

@[simp] theorem trialScore_values :
    (e.trialScore B).2.2.problem.values = (e.solveTrial B).2.problem.values := by
  simp [trialScore]

@[simp] theorem trialScore_savedValues :
    (e.trialScore B).2.2.problem.savedValues = e.problem.values := by
  simp [trialScore]

@[simp] theorem trialScore_margGroupId : (e.trialScore B).2.2.margGroupId = e.margGroupId := by
  simp [trialScore]

@[simp] theorem trialScore_options : (e.trialScore B).2.2.options = e.options := by
  simp [trialScore]

/-- A trial that drops the batch leaves the solved estimator, with the rank warning. -/
theorem trialScore_snd_of_not_keep (h : (e.trialScore B).1 = false) :
    (e.trialScore B).2.2 = (e.solveTrial B).2.warnRankDown (e.trialMarginalization B) := by
  rcases scoreBatch_cases (e.solveTrial B).2 (e.trialMarginalization B) (e.trialValid B) with
    ⟨-, -, h'⟩ | ⟨-, -, -, h'⟩ | ⟨-, -, h'⟩ <;> rw [trialScore, h'] at h ⊢
  · cases h
  · cases h

/-- The trial commits its marginalization exactly when it keeps the batch. -/
theorem trialScore_cache :
    (e.trialScore B).2.2.cache = if (e.trialScore B).1 then e.trialMarginalization B else e.cache := by
  simp only [trialScore, scoreBatch_cache, solveTrial_cache]

/-- The trial writes the gain to `_mi` when it keeps the batch past the first round. -/
theorem trialScore_mi :
    (e.trialScore B).2.2.mi =
      if (e.trialScore B).1 ∧ ¬ (e.svLogSum = 0 ∧ e.trialValid B = true) then (e.trialScore B).2.1
      else e.mi := by
  simp only [trialScore, scoreBatch_mi, solveTrial_svLogSum, solveTrial_mi]

/-- The trial does not read the groups ordering: not its marginalization, its validity, or the
score's verdict and gain. -/
@[simp] theorem trial_setGroupsOrdering (gs : List Nat) :
    (({ e with problem := e.problem.setGroupsOrdering gs } : IncrementalEstimator R V).trialMarginalization B) =
      e.trialMarginalization B ∧
    (({ e with problem := e.problem.setGroupsOrdering gs } : IncrementalEstimator R V).trialValid B) =
      e.trialValid B ∧
    (({ e with problem := e.problem.setGroupsOrdering gs } : IncrementalEstimator R V).trialScore B).1 =
      (e.trialScore B).1 ∧
    (({ e with problem := e.problem.setGroupsOrdering gs } : IncrementalEstimator R V).trialScore B).2.1 =
      (e.trialScore B).2.1 := by
  simp only [trialScore, scoreBatch_fst, scoreBatch_gain]
  exact ⟨rfl, rfl, rfl, rfl⟩

variable (batch : Batch) (force : Bool)

theorem trialBatch_snd_optimizationProblems :
    (e.trialBatch B batch force).2.problem.optimizationProblems =
      if (e.trialScore B).1 || force then e.problem.optimizationProblems
      else e.problem.optimizationProblems.erase batch := by
  rw [trialBatch_snd]
  split_ifs <;> simp

theorem trialBatch_snd_values :
    (e.trialBatch B batch force).2.problem.values =
      if (e.trialScore B).1 || force then (e.solveTrial B).2.problem.values
      else e.problem.values := by
  rw [trialBatch_snd]
  split_ifs <;> simp

theorem trialBatch_snd_cache : (e.trialBatch B batch force).2.cache = (e.trialScore B).2.2.cache := by
  rw [trialBatch_snd]
  split_ifs <;> simp

theorem trialBatch_snd_mi : (e.trialBatch B batch force).2.mi = (e.trialScore B).2.2.mi := by
  rw [trialBatch_snd]
  split_ifs <;> simp

theorem trialBatch_snd_groupsOrdering :
    (e.trialBatch B batch force).2.problem.groupsOrdering =
      if (e.trialScore B).1 || force then e.problem.groupsOrdering
      else e.problem.groupsOrdering.filter
        (IncrementalOptimizationProblem.declares (e.problem.optimizationProblems.erase batch)) := by
  rw [trialBatch_snd]
  split_ifs <;> simp [trialScore]

theorem trialBatch_snd_margGroupId :
    (e.trialBatch B batch force).2.margGroupId = e.margGroupId := by
  rw [trialBatch_snd]
  split_ifs <;> simp

theorem trialBatch_snd_options : (e.trialBatch B batch force).2.options = e.options := by
  rw [trialBatch_snd]
  split_ifs <;> simp

/-- The rank and the tolerance read after the score are those of the solved trial: the score
changes neither the batches, nor the values, nor the options. -/
theorem trialScore_getRank : (e.trialScore B).2.2.getRank B = (e.solveTrial B).2.getRank B := by
  simp only [getRank, getJacobianTranspose, linearSolverOptions, trialScore_optimizationProblems,
    trialScore_values, trialScore_options, solveTrial_optimizationProblems, solveTrial_options]

theorem trialScore_getQRTol : (e.trialScore B).2.2.getQRTol B = (e.solveTrial B).2.getQRTol B := by
  simp only [getQRTol, getJacobianTranspose, linearSolverOptions, trialScore_optimizationProblems,
    trialScore_values, trialScore_options, solveTrial_optimizationProblems, solveTrial_options]

/-- The record `trialBatch` returns, as a whole: the score's verdict and gain, the trial solve's
iterations and costs, the trial's marginalization, the rank and the tolerance of the system with
the batch in, and the memory usage of the state it leaves. -/
theorem trialBatch_fst :
    (e.trialBatch B batch force).1 =
      { batchAccepted := (e.trialScore B).1 || force, mi := (e.trialScore B).2.1,
        rank := (e.solveTrial B).2.getRank B, qrTol := (e.solveTrial B).2.getQRTol B,
        numIterations := (e.solveTrial B).1.iterations, JStart := (e.solveTrial B).1.JStart,
        JFinal := (e.solveTrial B).1.JFinal,
        cholmodMemoryUsage := (e.trialBatch B batch force).2.getCholmodMemoryUsage B,
        NS := (e.trialMarginalization B).NS, CS := (e.trialMarginalization B).CS,
        Sigma := (e.trialMarginalization B).Sigma, SigmaP := (e.trialMarginalization B).SigmaP,
        Omega := (e.trialMarginalization B).Omega } := by
  rw [← trialScore_getRank, ← trialScore_getQRTol]
  rfl

end Trial

/-! ## 3. `addBatch` -/

section AddBatch

variable [LinearOrderedField R] {e e' : IncrementalEstimator R V} {batch : Batch} {force : Bool}

/-- **`addBatch` throws only from the ordering step**, with the batch already inserted and
nothing else changed. -/
theorem addBatch_eq_error {x : Exception} (h : addBatch B batch force e = .error x e') :
    e' = e.withBatch batch ∧ x = .invalidOperation margGroupMissing ∧
      e.margGroupId ∉ (e.problem.add batch).groupsOrdering := by
  unfold addBatch at h
  split at h
  · cases h
    exact orderMarginalizedDesignVariables_eq_error ‹_›
  · cases h

/-- `addBatch` throws exactly when the marginalized group is missing once the batch is in. -/
theorem addBatch_error_iff :
    (∃ x e', addBatch B batch force e = .error x e') ↔
      e.margGroupId ∉ (e.problem.add batch).groupsOrdering := by
  refine ⟨fun ⟨_, _, h⟩ => (addBatch_eq_error B h).2.2,
    fun h => ⟨.invalidOperation margGroupMissing, e.withBatch batch, ?_⟩⟩
  have h' : (e.withBatch batch).margGroupId ∉ (e.withBatch batch).problem.groupsOrdering := h
  simp only [addBatch, orderMarginalizedDesignVariables_of_not_mem h']

/-- When `addBatch` returns, it ran `trialBatch` on the problem with the batch in and the groups
ordered. -/
theorem addBatch_eq_ok {ret : ReturnValue R} (h : addBatch B batch force e = .ok ret e') :
    ∃ e₁, orderMarginalizedDesignVariables (e.withBatch batch) = .ok () e₁ ∧
      ret = (e₁.trialBatch B batch force).1 ∧ e' = (e₁.trialBatch B batch force).2 := by
  unfold addBatch at h
  split at h
  · cases h
  · cases h
    exact ⟨_, ‹_›, rfl, rfl⟩

/-- Conversely, an ordering step that returns makes `addBatch` run `trialBatch`. -/
theorem addBatch_of_order_ok {e₁ : IncrementalEstimator R V}
    (h : orderMarginalizedDesignVariables (e.withBatch batch) = .ok () e₁) :
    addBatch B batch force e =
      .ok (e₁.trialBatch B batch force).1 (e₁.trialBatch B batch force).2 := by
  simp only [addBatch, h]

/-- A trial whose score keeps the batch: `addBatch` accepts it, reports the score's gain and
leaves the estimator of the score. -/
theorem addBatch_of_kept {e₁ e₂ : IncrementalEstimator R V} {g : R} (force : Bool)
    (hord : orderMarginalizedDesignVariables (e.withBatch batch) = .ok () e₁)
    (hscore : e₁.trialScore B = (true, g, e₂)) :
    ∃ ret, addBatch B batch force e = .ok ret e₂ ∧ ret.batchAccepted = true ∧ ret.mi = g := by
  rw [addBatch_of_order_ok B hord]
  refine ⟨(e₁.trialBatch B batch force).1, ?_, ?_, ?_⟩
  · rw [trialBatch_snd, hscore]
    rfl
  · rw [trialBatch_batchAccepted, hscore]
    rfl
  · rw [trialBatch_mi, hscore]

/-- **The first round**: when the cached log-sum is `0` and the trial solve is valid, `addBatch`
accepts the batch with gain `0` and commits the trial's marginalization. -/
theorem addBatch_of_first_round {e₁ : IncrementalEstimator R V} (force : Bool)
    (hord : orderMarginalizedDesignVariables (e.withBatch batch) = .ok () e₁)
    (h0 : e.svLogSum = 0) (hv : e₁.trialValid B = true) :
    ∃ ret, addBatch B batch force e =
        .ok ret ((e₁.solveTrial B).2.commit (e₁.trialMarginalization B)) ∧
      ret.batchAccepted = true ∧ ret.mi = 0 := by
  have h0' : e₁.svLogSum = 0 := by
    obtain ⟨-, gs, rfl⟩ := orderMarginalizedDesignVariables_eq_ok hord
    exact h0
  refine addBatch_of_kept B force hord ?_
  rw [trialScore, hv]
  exact if_pos ⟨h0', rfl⟩

/-- **A kept batch past the first round**: when the cached log-sum is not `0`, and the trial solve
is valid and gains enough or grows the column space, `addBatch` accepts the batch, reports the
gain, and commits the trial's marginalization with the gain in `_mi`. -/
theorem addBatch_of_informative {e₁ : IncrementalEstimator R V} (force : Bool)
    (hord : orderMarginalizedDesignVariables (e.withBatch batch) = .ok () e₁)
    (h0 : e₁.svLogSum ≠ 0) (hv : e₁.trialValid B = true)
    (hinf : e₁.options.miTol < 0.5 * ((e₁.trialMarginalization B).svLogSum - e₁.svLogSum) ∨
      e₁.CS.cols < (e₁.trialMarginalization B).CS.cols) :
    ∃ ret, addBatch B batch force e =
        .ok ret { ((e₁.solveTrial B).2.warnRankDown (e₁.trialMarginalization B)).commit
            (e₁.trialMarginalization B) with
          mi := 0.5 * ((e₁.trialMarginalization B).svLogSum - e₁.svLogSum) } ∧
      ret.batchAccepted = true ∧
      ret.mi = 0.5 * ((e₁.trialMarginalization B).svLogSum - e₁.svLogSum) := by
  refine addBatch_of_kept B force hord ?_
  rcases scoreBatch_cases (e₁.solveTrial B).2 (e₁.trialMarginalization B) (e₁.trialValid B) with
    ⟨h, -⟩ | ⟨-, -, -, h⟩ | ⟨-, h, -⟩
  · exact absurd h h0
  · exact h
  · exact absurd ⟨hinf, hv⟩ h

/-- **What `addBatch` does**, for a batch not yet in the problem, in terms of the trial on the
problem with the batch in: the batch is accepted when the score keeps it or when it is forced;
it stays, with the values of the solve, exactly when it is accepted, and otherwise the values
come back; the cache takes the trial's marginalization exactly when the score keeps the batch,
and `_mi` takes the gain when the score keeps it past the first round. -/
theorem addBatch_spec {ret : ReturnValue R} (hb : batch ∉ e.problem.optimizationProblems)
    (h : addBatch B batch force e = .ok ret e') :
    ret.batchAccepted = (((e.withBatch batch).trialScore B).1 || force) ∧
    ret.mi = ((e.withBatch batch).trialScore B).2.1 ∧
    e'.problem.optimizationProblems =
      (if ret.batchAccepted then e.problem.optimizationProblems ++ [batch]
        else e.problem.optimizationProblems) ∧
    e'.problem.values =
      (if ret.batchAccepted then ((e.withBatch batch).solveTrial B).2.problem.values
        else e.problem.values) ∧
    e'.cache =
      (if ((e.withBatch batch).trialScore B).1 then (e.withBatch batch).trialMarginalization B
        else e.cache) ∧
    e'.mi =
      (if ((e.withBatch batch).trialScore B).1 ∧
          ¬ (e.svLogSum = 0 ∧ (e.withBatch batch).trialValid B = true)
        then ((e.withBatch batch).trialScore B).2.1 else e.mi) ∧
    e'.margGroupId = e.margGroupId := by
  obtain ⟨e₁, hord, rfl, rfl⟩ := addBatch_eq_ok B h
  obtain ⟨-, gs, rfl⟩ := orderMarginalizedDesignVariables_eq_ok hord
  simp only [trialBatch_batchAccepted, trialBatch_mi, trialBatch_snd_optimizationProblems,
    trialBatch_snd_values, trialBatch_snd_cache, trialBatch_snd_mi, trialBatch_snd_margGroupId,
    trialScore_cache, trialScore_mi, trial_setGroupsOrdering, solveTrial_setGroupsOrdering,
    cache_withProblem]
  simp [List.erase_append_right _ hb]

/-- **What `addBatch` reports**, as a whole: the score's verdict and gain, the iterations and
costs of the solve with the batch in, that solve's marginalization, and the rank and the
tolerance of the system with the batch in, whether or not the batch then stays; only the memory
usage is read from the state the call leaves. -/
theorem addBatch_returnValue {ret : ReturnValue R} (h : addBatch B batch force e = .ok ret e') :
    ret =
      { batchAccepted := ((e.withBatch batch).trialScore B).1 || force,
        mi := ((e.withBatch batch).trialScore B).2.1,
        rank := ((e.withBatch batch).solveTrial B).2.getRank B,
        qrTol := ((e.withBatch batch).solveTrial B).2.getQRTol B,
        numIterations := ((e.withBatch batch).solveTrial B).1.iterations,
        JStart := ((e.withBatch batch).solveTrial B).1.JStart,
        JFinal := ((e.withBatch batch).solveTrial B).1.JFinal,
        cholmodMemoryUsage := e'.getCholmodMemoryUsage B,
        NS := ((e.withBatch batch).trialMarginalization B).NS,
        CS := ((e.withBatch batch).trialMarginalization B).CS,
        Sigma := ((e.withBatch batch).trialMarginalization B).Sigma,
        SigmaP := ((e.withBatch batch).trialMarginalization B).SigmaP,
        Omega := ((e.withBatch batch).trialMarginalization B).Omega } := by
  obtain ⟨e₁, hord, rfl, rfl⟩ := addBatch_eq_ok B h
  obtain ⟨-, gs, rfl⟩ := orderMarginalizedDesignVariables_eq_ok hord
  rw [trialBatch_fst]
  simp only [trial_setGroupsOrdering]
  rfl

end AddBatch

/-! ## 4. `removeBatchAt`, `removeBatch` and `reoptimize` -/

section Remove

variable [LinearOrderedField R] {e e' : IncrementalEstimator R V}

/-- When `removeBatch(idx)` returns, the index was inside, the ordering step returned, and the
estimator committed the marginalization of the re-solved, smaller problem. -/
theorem removeBatchAt_eq_ok {idx : Nat} {u : Unit} (h : removeBatchAt B idx e = .ok u e') :
    idx < e.problem.optimizationProblems.length ∧ ∃ e₁,
      orderMarginalizedDesignVariables
        { e with problem := e.problem.withBatches (e.problem.optimizationProblems.eraseIdx idx) } =
          .ok () e₁ ∧
      e' = { (e₁.optimize B).2.commit ((e₁.optimize B).2.marginalizeSystem B) with
        mi := ((e₁.optimize B).2.marginalizeSystem B).svLogSum - e₁.svLogSum } := by
  by_cases hidx : idx < e.problem.optimizationProblems.length
  · simp only [removeBatchAt, IncrementalOptimizationProblem.removeAt_of_lt _ hidx] at h
    split at h
    · cases h
    · cases h
      exact ⟨hidx, _, ‹_›, rfl⟩
  · simp [removeBatchAt, IncrementalOptimizationProblem.removeAt_of_le _ (Nat.not_lt.mp hidx)] at h

/-- When `removeBatch(idx)` throws, either the index was past the end and nothing changed, or
the batch is already out and the ordering step found the group missing. -/
theorem removeBatchAt_eq_error {idx : Nat} {x : Exception} (h : removeBatchAt B idx e = .error x e') :
    (e.problem.optimizationProblems.length ≤ idx ∧ x = .outOfBound idx ∧ e' = e) ∨
    (idx < e.problem.optimizationProblems.length ∧ x = .invalidOperation margGroupMissing ∧
      e' = { e with problem := e.problem.withBatches (e.problem.optimizationProblems.eraseIdx idx) } ∧
      e.margGroupId ∉
        (e.problem.withBatches (e.problem.optimizationProblems.eraseIdx idx)).groupsOrdering) := by
  by_cases hidx : idx < e.problem.optimizationProblems.length
  · simp only [removeBatchAt, IncrementalOptimizationProblem.removeAt_of_lt _ hidx] at h
    split at h
    · cases h
      obtain ⟨h1, h2, h3⟩ := orderMarginalizedDesignVariables_eq_error ‹_›
      exact .inr ⟨hidx, h2, h1, h3⟩
    · cases h
  · simp only [removeBatchAt, IncrementalOptimizationProblem.removeAt_of_le _ (Nat.not_lt.mp hidx)] at h
    cases h
    exact .inl ⟨Nat.not_lt.mp hidx, rfl, rfl⟩

/-- **What `removeBatch(idx)` does** when it returns: the `idx`-th batch is out, the cache is the
marginalization of the problem as the re-solve left it, and `_mi` is the change of the log-sum,
unhalved. -/
theorem removeBatchAt_spec {idx : Nat} {u : Unit} (h : removeBatchAt B idx e = .ok u e') :
    idx < e.problem.optimizationProblems.length ∧
    e'.problem.optimizationProblems = e.problem.optimizationProblems.eraseIdx idx ∧
    e'.cache = e'.marginalizeSystem B ∧ e'.mi = e'.svLogSum - e.svLogSum ∧
    e'.margGroupId = e.margGroupId := by
  obtain ⟨hidx, e₁, hord, rfl⟩ := removeBatchAt_eq_ok B h
  obtain ⟨-, gs, rfl⟩ := orderMarginalizedDesignVariables_eq_ok hord
  exact ⟨hidx, rfl, rfl, rfl, rfl⟩

/-- `removeBatch(idx)` for an index past the last batch throws the container's exception and
changes nothing. -/
theorem removeBatchAt_of_length_le {idx : Nat} (h : e.problem.optimizationProblems.length ≤ idx) :
    removeBatchAt B idx e = .error (.outOfBound idx) e := by
  simp [removeBatchAt, IncrementalOptimizationProblem.removeAt, Nat.not_lt.mpr h]

/-- `removeBatch(idx)`, for an index inside, throws exactly when the marginalized group is missing
once the batch is out. -/
theorem removeBatchAt_error_iff {idx : Nat} (hidx : idx < e.problem.optimizationProblems.length) :
    (∃ x e', removeBatchAt B idx e = .error x e') ↔ e.margGroupId ∉
      (e.problem.withBatches (e.problem.optimizationProblems.eraseIdx idx)).groupsOrdering := by
  let e₁ : IncrementalEstimator R V :=
    { e with problem := e.problem.withBatches (e.problem.optimizationProblems.eraseIdx idx) }
  refine ⟨fun ⟨_, _, h⟩ => ?_, fun h => ⟨.invalidOperation margGroupMissing, e₁, ?_⟩⟩
  · rcases removeBatchAt_eq_error B h with ⟨hle, -⟩ | ⟨-, -, -, hm⟩
    · exact absurd hidx (Nat.not_lt.mpr hle)
    · exact hm
  · have h' : e₁.margGroupId ∉ e₁.problem.groupsOrdering := h
    simp only [removeBatchAt, IncrementalOptimizationProblem.removeAt_of_lt _ hidx,
      orderMarginalizedDesignVariables_of_not_mem h']

/-- `removeBatch(batch)` on a batch that is not there returns and changes nothing. -/
theorem removeBatch_of_not_mem {batch : Batch} (h : batch ∉ e.problem.optimizationProblems) :
    removeBatch B batch e = .ok () e := by
  simp [removeBatch, (IncrementalOptimizationProblem.getOptimizationProblem_eq_none _).mpr h]

/-- When `removeBatch(batch)` returns, the batch was not there and nothing changed, or it was
`removeBatch(idx)` at the batch's position. -/
theorem removeBatch_eq_ok {batch : Batch} {u : Unit} (h : removeBatch B batch e = .ok u e') :
    (batch ∉ e.problem.optimizationProblems ∧ e' = e) ∨
      ∃ idx, e.problem.getOptimizationProblem batch = some idx ∧ removeBatchAt B idx e = .ok u e' := by
  unfold removeBatch at h
  split at h
  · exact .inr ⟨_, ‹_›, h⟩
  · cases h
    exact .inl ⟨(IncrementalOptimizationProblem.getOptimizationProblem_eq_none _).mp ‹_›, rfl⟩

/-- A `removeBatch(batch)` that returns drops the first copy of the batch, if there is one. -/
theorem removeBatch_optimizationProblems {batch : Batch} {u : Unit}
    (h : removeBatch B batch e = .ok u e') :
    e'.problem.optimizationProblems = e.problem.optimizationProblems.erase batch := by
  rcases removeBatch_eq_ok B h with ⟨hnot, rfl⟩ | ⟨idx, hidx, h⟩
  · exact (List.erase_of_not_mem hnot).symm
  · rw [(removeBatchAt_spec B h).2.1,
      (IncrementalOptimizationProblem.eraseIdx_getOptimizationProblem _ hidx).2]

/-- When `reoptimize` throws, nothing changed. -/
theorem reoptimize_eq_error {x : Exception} (h : reoptimize B e = .error x e') :
    e' = e ∧ x = .invalidOperation margGroupMissing ∧ e.margGroupId ∉ e.problem.groupsOrdering := by
  unfold reoptimize at h
  split at h
  · cases h
    exact orderMarginalizedDesignVariables_eq_error ‹_›
  · cases h

/-- `reoptimize` throws exactly when the marginalized group is missing. -/
theorem reoptimize_error_iff :
    (∃ x e', reoptimize B e = .error x e') ↔ e.margGroupId ∉ e.problem.groupsOrdering := by
  refine ⟨fun ⟨_, _, h⟩ => (reoptimize_eq_error B h).2.2,
    fun h => ⟨.invalidOperation margGroupMissing, e, ?_⟩⟩
  simp only [reoptimize, orderMarginalizedDesignVariables_of_not_mem h]

/-- When `reoptimize` returns, it re-solved the ordered problem and refreshed every cached
component but `_Omega`. -/
theorem reoptimize_eq_ok {ret : ReturnValue R} (h : reoptimize B e = .ok ret e') :
    ∃ e₁, orderMarginalizedDesignVariables e = .ok () e₁ ∧
      e' = { (e₁.optimize B).2 with
        svLogSum := ((e₁.optimize B).2.marginalizeSystem B).svLogSum,
        NS := ((e₁.optimize B).2.marginalizeSystem B).NS,
        CS := ((e₁.optimize B).2.marginalizeSystem B).CS,
        Sigma := ((e₁.optimize B).2.marginalizeSystem B).Sigma,
        SigmaP := ((e₁.optimize B).2.marginalizeSystem B).SigmaP } := by
  unfold reoptimize at h
  split at h
  · cases h
  · cases h
    exact ⟨_, ‹_›, rfl⟩

/-- **What `reoptimize` does** when it returns: the batches stay, and the cache is the
marginalization of the problem as the re-solve left it, but for `_Omega`, which stays. -/
theorem reoptimize_spec {ret : ReturnValue R} (h : reoptimize B e = .ok ret e') :
    e'.problem.optimizationProblems = e.problem.optimizationProblems ∧
    e'.cache = { e'.marginalizeSystem B with Omega := e.Omega } ∧ e'.mi = e.mi ∧
    e'.margGroupId = e.margGroupId := by
  obtain ⟨e₁, hord, rfl⟩ := reoptimize_eq_ok B h
  obtain ⟨-, gs, rfl⟩ := orderMarginalizedDesignVariables_eq_ok hord
  exact ⟨rfl, rfl, rfl, rfl⟩

/-- **What `reoptimize` reports**, as a whole: no verdict and no gain, the iterations and costs
of the re-solve, the rank and the tolerance of the state it leaves, no memory usage, and the
marginalization it commits, with the new `_Omega` that the estimator does not keep. -/
theorem reoptimize_returnValue {ret : ReturnValue R} (h : reoptimize B e = .ok ret e') :
    ret =
      { batchAccepted := false, mi := 0, rank := e'.getRank B, qrTol := e'.getQRTol B,
        numIterations := (e.optimize B).1.iterations, JStart := (e.optimize B).1.JStart,
        JFinal := (e.optimize B).1.JFinal, cholmodMemoryUsage := 0, NS := e'.NS, CS := e'.CS,
        Sigma := e'.Sigma, SigmaP := e'.SigmaP, Omega := (e'.marginalizeSystem B).Omega } := by
  unfold reoptimize at h
  split at h
  · cases h
  · cases h
    obtain ⟨-, gs, rfl⟩ := orderMarginalizedDesignVariables_eq_ok ‹_›
    rfl

end Remove

end IncrementalCalibration.IncrementalEstimator
