import IncrementalCalibration.Invariants

/-!
# What a client can tell apart

Two fields of the estimator are written and never read back by a later call.  The container's
saved copy of the values is written by `saveDesignVariables` (line 184) and read only by the
`restoreDesignVariables` of the same `addBatch` (line 256); and the lines written to `std::cerr`
(line 224) are read by nothing.  `observe` resets the copy to the values and drops the lines:
what is left is all a later call can depend on.

* Each call reads the estimator only through `observe`: `addBatch_observe`,
  `removeBatchAt_observe`, `removeBatch_observe`, `reoptimize_observe`.  For `addBatch` the
  score and the rollback see a state whose copy was just written, and only append to the log.
* So does every run of calls made by a client that catches the estimator's exceptions
  (`Call.run`, `run_observe`): two states that agree under `observe` give, call by call, the
  same results and the same exceptions, and end agreeing under `observe`
  (`run_eq_of_observe_eq`).
* A rejected batch is invisible to every later call (`addBatch_rejected_unobservable`): on a
  state whose ordering and solver are in step with its batches, the state a rejected `addBatch`
  leaves differs from the one it found only in the copy and the log, so every sequence of calls
  gives from it what it gives from the state before the rejected call.
-/

namespace IncrementalCalibration

namespace IncrementalEstimator

variable {R V J : Type}

/-! ## 1. What the calls read -/

section Observe

variable (e : IncrementalEstimator R V)

/-- The estimator as later calls read it: the container's saved copy of the values reset to the
values, and no line written to `std::cerr`. -/
def observe : IncrementalEstimator R V :=
  { e with problem := e.problem.saveDesignVariables, cerr := [] }

/-- The estimator without the lines it wrote to `std::cerr`. -/
def dropLog : IncrementalEstimator R V := { e with cerr := [] }

/-- A call's result with its state observed. -/
def observeResult {α : Type} :
    EStateM.Result Exception (IncrementalEstimator R V) α →
      EStateM.Result Exception (IncrementalEstimator R V) α
  | .ok a s => .ok a s.observe
  | .error x s => .error x s.observe

@[simp] theorem observe_observe : e.observe.observe = e.observe := rfl

@[simp] theorem dropLog_observe : e.dropLog.observe = e.observe := rfl

theorem withBatch_observe (batch : Batch) : e.observe.withBatch batch = (e.withBatch batch).observe :=
  rfl

/-- Two states that agree but for their logs agree under `observe`. -/
theorem observe_eq_of_dropLog_eq {x y : IncrementalEstimator R V} (h : x.dropLog = y.dropLog) :
    x.observe = y.observe := by
  rw [← dropLog_observe, h, dropLog_observe]

/-- An estimator without its log is its problem, group, gain, options, cache and solver
structure. -/
theorem dropLog_eq_dropLog {x y : IncrementalEstimator R V} (hp : x.problem = y.problem)
    (hg : x.margGroupId = y.margGroupId) (hmi : x.mi = y.mi) (ho : x.options = y.options)
    (hc : x.cache = y.cache) (hs : x.matrixStructure = y.matrixStructure) :
    x.dropLog = y.dropLog :=
  ext_cache hp hg hmi ho hc hs rfl

/-- The ordering step reads the ordering and the marginalized group, and writes the ordering. -/
theorem orderMarginalizedDesignVariables_observe :
    orderMarginalizedDesignVariables e.observe =
      observeResult (orderMarginalizedDesignVariables e) := by
  unfold orderMarginalizedDesignVariables
  dsimp only [observe, IncrementalOptimizationProblem.getGroupsOrdering,
    IncrementalOptimizationProblem.saveDesignVariables]
  split_ifs <;> rfl

end Observe

/-! ## 2. Each call reads the estimator through `observe` -/

section Calls

variable [LinearOrderedField R] (B : Backend R V J) (e : IncrementalEstimator R V)

/-- The score reads the log of the state it scores only to append to it. -/
theorem scoreBatch_dropLog (m : Marginalization R) (v : Bool) :
    (e.dropLog.scoreBatch m v).1 = (e.scoreBatch m v).1 ∧
      (e.dropLog.scoreBatch m v).2.1 = (e.scoreBatch m v).2.1 ∧
      (e.dropLog.scoreBatch m v).2.2.dropLog = (e.scoreBatch m v).2.2.dropLog := by
  have h1 : (e.dropLog.scoreBatch m v).1 = (e.scoreBatch m v).1 := by
    simp only [scoreBatch_fst]
    rfl
  have h2 : (e.dropLog.scoreBatch m v).2.1 = (e.scoreBatch m v).2.1 := by
    simp only [scoreBatch_gain]
    rfl
  refine ⟨h1, h2, dropLog_eq_dropLog ?_ ?_ ?_ ?_ ?_ ?_⟩ <;>
    simp only [scoreBatch_problem, scoreBatch_margGroupId, scoreBatch_mi, scoreBatch_options,
      scoreBatch_cache, scoreBatch_matrixStructure, h1, h2] <;> rfl

/-- The trial saves the values before it solves, so it sees the copy it wrote. -/
theorem trialScore_observe :
    (e.observe.trialScore B).1 = (e.trialScore B).1 ∧
      (e.observe.trialScore B).2.1 = (e.trialScore B).2.1 ∧
      (e.observe.trialScore B).2.2.dropLog = (e.trialScore B).2.2.dropLog :=
  scoreBatch_dropLog (e.solveTrial B).2 (e.trialMarginalization B) (e.trialValid B)

/-- `trialBatch` reads the estimator only through `observe`: the same record, and states that
agree under `observe`. -/
theorem trialBatch_observe (batch : Batch) (force : Bool) :
    (e.observe.trialBatch B batch force).1 = (e.trialBatch B batch force).1 ∧
      (e.observe.trialBatch B batch force).2.observe = (e.trialBatch B batch force).2.observe := by
  obtain ⟨h1, h2, h3⟩ := trialScore_observe B e
  have hs : (e.observe.trialBatch B batch force).2.observe =
      (e.trialBatch B batch force).2.observe := by
    rw [trialBatch_snd, trialBatch_snd, h1]
    split_ifs
    · exact observe_eq_of_dropLog_eq h3
    · exact observe_eq_of_dropLog_eq (congrArg (·.undoBatch batch) h3)
  refine ⟨?_, hs⟩
  have hmem : (e.observe.trialBatch B batch force).2.getCholmodMemoryUsage B =
      (e.trialBatch B batch force).2.getCholmodMemoryUsage B :=
    congrArg (·.getCholmodMemoryUsage B) hs
  rw [trialBatch_fst, trialBatch_fst, h1, h2, hmem]
  rfl

/-- **`addBatch` reads the estimator only through `observe`.** -/
theorem addBatch_observe (batch : Batch) (force : Bool) :
    observeResult (addBatch B batch force e.observe) =
      observeResult (addBatch B batch force e) := by
  unfold addBatch
  rw [withBatch_observe, orderMarginalizedDesignVariables_observe]
  rcases orderMarginalizedDesignVariables (e.withBatch batch) with ⟨⟨⟩, s⟩ | ⟨x, s⟩
  · obtain ⟨h1, h2⟩ := trialBatch_observe B s batch force
    simp only [observeResult, h1, h2]
  · rfl

/-- **`removeBatch(idx)` reads the estimator only through `observe`.** -/
theorem removeBatchAt_observe (idx : Nat) :
    observeResult (removeBatchAt B idx e.observe) = observeResult (removeBatchAt B idx e) := by
  unfold removeBatchAt
  by_cases hidx : idx < e.problem.optimizationProblems.length
  · have h₁ : e.observe.problem.removeAt idx =
        .ok (e.problem.withBatches (e.problem.optimizationProblems.eraseIdx idx)).saveDesignVariables :=
      if_pos hidx
    have h₂ : e.problem.removeAt idx =
        .ok (e.problem.withBatches (e.problem.optimizationProblems.eraseIdx idx)) :=
      if_pos hidx
    have h₃ : ({ e.observe with problem :=
          (e.problem.withBatches (e.problem.optimizationProblems.eraseIdx idx)).saveDesignVariables } :
        IncrementalEstimator R V) =
        ({ e with problem := e.problem.withBatches (e.problem.optimizationProblems.eraseIdx idx) } :
          IncrementalEstimator R V).observe := rfl
    rw [h₁, h₂]
    dsimp only
    rw [h₃, orderMarginalizedDesignVariables_observe]
    rcases orderMarginalizedDesignVariables
      { e with problem := e.problem.withBatches (e.problem.optimizationProblems.eraseIdx idx) }
      with ⟨⟨⟩, s⟩ | ⟨x, s⟩ <;> rfl
  · have h₁ : e.observe.problem.removeAt idx = .error (.outOfBound idx) := if_neg hidx
    have h₂ : e.problem.removeAt idx = .error (.outOfBound idx) := if_neg hidx
    rw [h₁, h₂]
    rfl

/-- **`removeBatch(batch)` reads the estimator only through `observe`.** -/
theorem removeBatch_observe (batch : Batch) :
    observeResult (removeBatch B batch e.observe) = observeResult (removeBatch B batch e) := by
  unfold removeBatch
  have h : e.observe.problem.getOptimizationProblem batch =
      e.problem.getOptimizationProblem batch := rfl
  rw [h]
  cases e.problem.getOptimizationProblem batch with
  | some idx => exact removeBatchAt_observe B e idx
  | none => rfl

/-- **`reoptimize()` reads the estimator only through `observe`.** -/
theorem reoptimize_observe :
    observeResult (reoptimize B e.observe) = observeResult (reoptimize B e) := by
  unfold reoptimize
  rw [orderMarginalizedDesignVariables_observe]
  rcases orderMarginalizedDesignVariables e with ⟨⟨⟩, s⟩ | ⟨x, s⟩ <;> rfl

end Calls

/-- A call's result as a client that catches the estimator's exceptions sees it: what the call
returned, read by `ret`, or the exception it threw, with the state it left either way. -/
def outcome {α : Type} (ret : α → Option (ReturnValue R)) :
    EStateM.Result Exception (IncrementalEstimator R V) α →
      Except Exception (Option (ReturnValue R)) × IncrementalEstimator R V
  | .ok a s => (.ok (ret a), s)
  | .error x s => (.error x, s)

/-- Results that agree under `observe` give the caller the same outcome. -/
theorem outcome_congr {α : Type} (ret : α → Option (ReturnValue R))
    {r r' : EStateM.Result Exception (IncrementalEstimator R V) α}
    (h : observeResult r = observeResult r') :
    (outcome ret r).1 = (outcome ret r').1 ∧ (outcome ret r).2.observe = (outcome ret r').2.observe := by
  cases r <;> cases r' <;> simp_all [observeResult, outcome]

end IncrementalEstimator

/-! ## 3. A client's runs -/

namespace Call

variable {R V J : Type} [LinearOrderedField R] (B : Backend R V J)

/-- One call made by a client that catches the estimator's exceptions: the `ReturnValue` of
`addBatch` or `reoptimize`, nothing for a removal, or the exception; and the state left. -/
def step : Call → IncrementalEstimator R V →
    Except Exception (Option (ReturnValue R)) × IncrementalEstimator R V
  | addBatch batch force, e => IncrementalEstimator.outcome some (IncrementalEstimator.addBatch B batch force e)
  | removeBatchAt idx, e => IncrementalEstimator.outcome (fun _ => none) (IncrementalEstimator.removeBatchAt B idx e)
  | removeBatch batch, e => IncrementalEstimator.outcome (fun _ => none) (IncrementalEstimator.removeBatch B batch e)
  | reoptimize, e => IncrementalEstimator.outcome some (IncrementalEstimator.reoptimize B e)

/-- A client's run of the calls `cs` from `e`, catching every exception and going on: what each
call gave back, in order, and the state at the end. -/
def run : List Call → IncrementalEstimator R V →
    List (Except Exception (Option (ReturnValue R))) × IncrementalEstimator R V
  | [], e => ([], e)
  | c :: cs, e =>
    let s := c.step B e
    let r := run cs s.2
    (s.1 :: r.1, r.2)

/-- One call reads the estimator only through `observe`. -/
theorem step_observe (c : Call) (e : IncrementalEstimator R V) :
    (c.step B e.observe).1 = (c.step B e).1 ∧
      (c.step B e.observe).2.observe = (c.step B e).2.observe := by
  cases c with
  | addBatch batch force => exact IncrementalEstimator.outcome_congr _ (IncrementalEstimator.addBatch_observe B e batch force)
  | removeBatchAt idx => exact IncrementalEstimator.outcome_congr _ (IncrementalEstimator.removeBatchAt_observe B e idx)
  | removeBatch batch => exact IncrementalEstimator.outcome_congr _ (IncrementalEstimator.removeBatch_observe B e batch)
  | reoptimize => exact IncrementalEstimator.outcome_congr _ (IncrementalEstimator.reoptimize_observe B e)

/-- A whole run reads the estimator it starts from only through `observe`. -/
theorem run_observe (cs : List Call) :
    ∀ e : IncrementalEstimator R V,
      (run B cs e.observe).1 = (run B cs e).1 ∧ (run B cs e.observe).2.observe = (run B cs e).2.observe := by
  induction cs with
  | nil => exact fun _ => ⟨rfl, rfl⟩
  | cons c cs ih =>
    intro e
    obtain ⟨ho, hs⟩ := step_observe B c e
    obtain ⟨h₁, h₁'⟩ := ih (c.step B e.observe).2
    obtain ⟨h₂, h₂'⟩ := ih (c.step B e).2
    rw [hs] at h₁ h₁'
    simp only [run, ho, ← h₁, h₂, List.cons.injEq, true_and]
    exact h₁'.symm.trans h₂'

end Call

/-! ## 4. What a client cannot tell apart -/

namespace IncrementalEstimator

section Unobservable

variable {R V J : Type} [LinearOrderedField R] {B : Backend R V J} {e e' : IncrementalEstimator R V}

/-- **The saved values and the log are write-only.**  Two estimators that agree but for the
container's saved copy of the values and the lines written to `std::cerr` give, for every
sequence of calls made by a client that catches the exceptions, the same return values and the
same exceptions, call by call, and end agreeing but for the copy and the log. -/
theorem run_eq_of_observe_eq {e₁ e₂ : IncrementalEstimator R V} (h : e₁.observe = e₂.observe)
    (cs : List Call) :
    (Call.run B cs e₁).1 = (Call.run B cs e₂).1 ∧
      (Call.run B cs e₁).2.observe = (Call.run B cs e₂).2.observe := by
  obtain ⟨h₁, h₁'⟩ := Call.run_observe B cs e₁
  obtain ⟨h₂, h₂'⟩ := Call.run_observe B cs e₂
  rw [h] at h₁ h₁'
  exact ⟨h₁.symm.trans h₂, h₁'.symm.trans h₂'⟩

/-- **A rejected batch is invisible to every later call.**  On every state whose groups ordering
and linear solver are in step with its batches (every state reached by calls that all returned),
if
`addBatch` of a new batch returns with the batch rejected, then every sequence of calls made
afterwards, by a client that catches the exceptions, gives back call by call what it gives back
from the state before the rejected call, and ends in the same state but for the saved copy of
the values and the log. -/
theorem addBatch_rejected_unobservable {batch : Batch} {force : Bool} {ret : ReturnValue R}
    (hs : e.GroupsOrdered) (hsolver : e.SolverSynced) (hb : batch ∉ e.problem.optimizationProblems)
    (h : addBatch B batch force e = .ok ret e') (hrej : ret.batchAccepted = false)
    (cs : List Call) :
    (Call.run B cs e').1 = (Call.run B cs e).1 ∧
      (Call.run B cs e').2.observe = (Call.run B cs e).2.observe := by
  obtain ⟨e₁, hord, rfl, rfl⟩ := addBatch_eq_ok B h
  obtain ⟨h₁, h₁'⟩ := Call.run_observe B cs (e₁.trialBatch B batch force).2
  obtain ⟨h₂, h₂'⟩ := Call.run_observe B cs e
  have he : (e₁.trialBatch B batch force).2.observe = e.observe := by
    rw [trialBatch_rejected_eq hs hsolver hb hord hrej]
    rfl
  rw [he] at h₁ h₁'
  exact ⟨h₁.symm.trans h₂, h₁'.symm.trans h₂'⟩

end Unobservable

/-! ## 5. Runs on small inputs -/

/-- `fresh 10` with another saved copy of the values and a line in its log. -/
def freshRelogged : IncrementalEstimator ℚ Nat :=
  { fresh 10 with problem := { (fresh 10).problem with savedValues := 7 }, cerr := [rankWarning] }

/-- A fresh estimator, and the same one with another saved copy and a line in its log: the same
first batch gives the same results from both. -/
theorem run_eq_of_observe_eq_fresh :
    (fresh 10).observe = freshRelogged.observe ∧
      (Call.run countingBackend [.addBatch batch₁ false] (fresh 10)).1 =
        (Call.run countingBackend [.addBatch batch₁ false] freshRelogged).1 ∧
      (Call.run countingBackend [.addBatch batch₁ false] (fresh 10)).2.observe =
        (Call.run countingBackend [.addBatch batch₁ false] freshRelogged).2.observe :=
  ⟨rfl, run_eq_of_observe_eq rfl _⟩

/-- After `batch₁` is committed, `strayBatch` is rejected at the cap; adding `batch₂` and
re-solving afterwards gives what it gives on `committed₁`. -/
theorem addBatch_rejected_unobservable_after_commit :
    ∃ ret e', addBatch slowBackend strayBatch false committed₁ = .ok ret e' ∧
      ret.batchAccepted = false ∧
      (Call.run slowBackend [.addBatch batch₂ false, .reoptimize] e').1 =
        (Call.run slowBackend [.addBatch batch₂ false, .reoptimize] committed₁).1 ∧
      (Call.run slowBackend [.addBatch batch₂ false, .reoptimize] e').2.observe =
        (Call.run slowBackend [.addBatch batch₂ false, .reoptimize] committed₁).2.observe :=
  have hrun : addBatch slowBackend strayBatch false committed₁ = _ :=
    addBatch_of_order_ok slowBackend order_committed₁_add_stray
  ⟨_, _, hrun, stray_rejected_after_batch₁, addBatch_rejected_unobservable committed₁_groupsOrdered
    rfl (by decide) hrun stray_rejected_after_batch₁ _⟩

end IncrementalEstimator

end IncrementalCalibration
