import IncrementalCalibration.Runs

/-!
# The admission protocol, and the estimator as an implementation of it

The estimator is a try/commit/rollback protocol over three things: the committed batches, the
values of the design variables, and one spectral snapshot, which does not exist before the first
commit (the shape sections 3 and 4.1 of the specification give it).  `Committed` is that state
and `Committed.exec` the protocol's calls.  A batch is tried on the committed set; it is kept,
with the values of its solve and its snapshot, when it is informative or forced, and otherwise
nothing changes.  Validity is the code's rule, not the one of section 4.1, step 5: a solve is
valid when it stopped below the iteration cap AND lowered the cost (lines 190-193, and the
header's comment on `solutionValid`), where the specification rejects it only when both fail.
A removal and `reoptimize` always commit.  The protocol consults two oracles, a solve and a
snapshot (`Oracle`); the estimator's are its optimizer with its options and `marginalize` split
at `rows()` less the dimension of the marginalized group (`IncrementalEstimator.oracle`).

The code tells the first round by the sentinel `!_svLogSum` (line 208), where the protocol asks
whether a snapshot exists.  The two agree as long as `marginalize` never returns a log-sum of
`0`: then along every run, whatever the calls, `_svLogSum` is `0` exactly while the cache is
still the constructor's (`reach_firstRound_iff`).

With such a `marginalize`, the estimator implements the protocol along every run of unforced
additions of new batches and of removals: after the calls `cs` it holds the batches and the
values of the protocol's run of the same calls, and its cache is that run's snapshot
(`run_implements`).  `reoptimize` keeps the old `_Omega`, which no call reads: with it the
estimator implements the protocol once `_Omega` is replaced (`ImplementsButOmega`,
`run_implementsButOmega`), so every verdict and every other cached component still follows the
protocol.  Both results share one lemma per call (`addBatch_refines`, `implements_removeBatch`,
`implements_reoptimize`).  The call left out is the one on which the code departs from the
protocol: a forced addition of an uninformative batch commits no snapshot.
-/

namespace IncrementalCalibration

/-! ## 1. The protocol -/

/-- The protocol's collaborators: a solve of a batch set from some values, with its statistics
and the values it leaves, and the snapshot of a batch set at some values. -/
structure Oracle (R V : Type) where
  solve : List Batch → V → SolutionReturnValue R × V
  snapshot : List Batch → V → Marginalization R

/-- What the protocol keeps: the committed batches, the values of the design variables, and the
snapshot of the last commit, `none` before the first. -/
structure Committed (R V : Type) where
  batches : List Batch
  values : V
  snapshot : Option (Marginalization R)

namespace Committed

variable {R V : Type} [LinearOrderedField R] (O : Oracle R V) (options : Options R)

/-- A solve is valid when it stopped below the iteration cap and lowered the cost: the code's
test (lines 190-193), not the specification's, which asks for one of the two. -/
def Valid (srv : SolutionReturnValue R) : Prop :=
  srv.iterations < options.maxIterations ∧ srv.JFinal < srv.JStart

instance (srv : SolutionReturnValue R) : Decidable (Valid options srv) := instDecidableAnd

/-- A batch is informative when the solve with it is valid and, if there is a snapshot, half the
change of the log-sum passes the threshold or the column space grew. -/
def Informative (snapshot : Option (Marginalization R)) (srv : SolutionReturnValue R)
    (m : Marginalization R) : Prop :=
  Valid options srv ∧
    ∀ s ∈ snapshot, options.miTol < 0.5 * (m.svLogSum - s.svLogSum) ∨ s.CS.cols < m.CS.cols

instance (snapshot : Option (Marginalization R)) (srv : SolutionReturnValue R)
    (m : Marginalization R) : Decidable (Informative options snapshot srv m) := instDecidableAnd

/-- The protocol's `addBatch(batch, force)`: try the batch on the committed set, and keep it,
with the values of the solve and its snapshot, when it is informative or forced; otherwise
nothing changes. -/
def addBatch (a : Committed R V) (batch : Batch) (force : Bool) : Committed R V :=
  let batches := a.batches ++ [batch]
  let trial := O.solve batches a.values
  let m := O.snapshot batches trial.2
  if force = true ∨ Informative options a.snapshot trial.1 m then ⟨batches, trial.2, some m⟩ else a

/-- The protocol's removal of the batch at `idx`, always committed: the values of the solve
without it, and their snapshot.  An index past the end changes nothing. -/
def removeBatchAt (a : Committed R V) (idx : Nat) : Committed R V :=
  if idx < a.batches.length then
    let batches := a.batches.eraseIdx idx
    let values := (O.solve batches a.values).2
    ⟨batches, values, some (O.snapshot batches values)⟩
  else a

/-- The protocol's `removeBatch(batch)`: the removal at the batch's position; a batch that is
not committed changes nothing. -/
def removeBatch (a : Committed R V) (batch : Batch) : Committed R V :=
  if batch ∈ a.batches then a.removeBatchAt O (a.batches.indexOf batch) else a

/-- The protocol's `reoptimize()`: solve the committed batches again and commit their
snapshot. -/
def reoptimize (a : Committed R V) : Committed R V :=
  let values := (O.solve a.batches a.values).2
  ⟨a.batches, values, some (O.snapshot a.batches values)⟩

/-- One call of the protocol. -/
def exec : Call → Committed R V → Committed R V
  | .addBatch batch force, a => a.addBatch O options batch force
  | .removeBatchAt idx, a => a.removeBatchAt O idx
  | .removeBatch batch, a => a.removeBatch O batch
  | .reoptimize, a => a.reoptimize O

/-- The protocol's run of the calls `cs`, from `a`. -/
def run (cs : List Call) (a : Committed R V) : Committed R V :=
  cs.foldl (fun a c => exec O options c a) a

end Committed

/-! ## 2. The estimator's oracle, and what a call writes to the cache -/

namespace IncrementalEstimator

variable {R V J : Type} (B : Backend R V J)

/-- The estimator's collaborators as the protocol's oracle: the optimizer with the estimator's
options, and `marginalize` of the Jacobian transpose, split at `rows()` less the dimension of the
marginalized group in the container holding the batches, as `size_t`s. -/
def oracle (options : Options R) (groupId : Nat) : Oracle R V where
  solve batches values := B.optimize ⟨options.verbose, options.maxIterations⟩ batches values
  snapshot batches values :=
    let Jt := B.jacobianTranspose batches values
    let dim := ((IncrementalOptimizationProblem.empty values).withBatches batches).getGroupDim groupId
    B.marginalize Jt ((B.rows Jt).toUInt64 - dim.toUInt64).toNat

/-- The marginalization after a solve is the oracle's snapshot of the problem's batches at its
values. -/
theorem marginalizeSystem_eq_snapshot (e : IncrementalEstimator R V) :
    e.marginalizeSystem B =
      (oracle B e.options e.margGroupId).snapshot e.problem.optimizationProblems e.problem.values :=
  rfl

@[simp] theorem cache_withOmega (e : IncrementalEstimator R V) (Ω : MatrixXd R) :
    ({ e with Omega := Ω } : IncrementalEstimator R V).cache = { e.cache with Omega := Ω } := rfl

variable [LinearOrderedField R] {B} {e e' : IncrementalEstimator R V}

/-- The state `removeBatch(idx)` leaves holds the values of the solve without the batch, under
the same options. -/
theorem removeBatchAt_solve {idx : Nat} {u : Unit} (h : removeBatchAt B idx e = .ok u e') :
    e'.problem.values =
      (B.optimize e.optimizerOptions (e.problem.optimizationProblems.eraseIdx idx)
        e.problem.values).2 ∧ e'.options = e.options := by
  obtain ⟨-, e₁, hord, rfl⟩ := removeBatchAt_eq_ok B h
  obtain ⟨-, gs, rfl⟩ := orderMarginalizedDesignVariables_eq_ok hord
  exact ⟨rfl, rfl⟩

/-- No call changes the options or the marginalized group. -/
theorem exec_constants {c : Call} (h : c.exec B e = some e') :
    e'.options = e.options ∧ e'.margGroupId = e.margGroupId := by
  cases c <;> obtain ⟨_, h⟩ := returnedState_eq_some.mp h
  case addBatch =>
    obtain ⟨e₁, hord, -, rfl⟩ := addBatch_eq_ok B h
    obtain ⟨-, gs, rfl⟩ := orderMarginalizedDesignVariables_eq_ok hord
    exact ⟨trialBatch_snd_options _ _ _ _, trialBatch_snd_margGroupId _ _ _ _⟩
  case removeBatchAt => exact ⟨(removeBatchAt_solve h).2, (removeBatchAt_spec B h).2.2.2.2⟩
  case removeBatch =>
    rcases removeBatch_eq_ok B h with ⟨-, rfl⟩ | ⟨_, -, h⟩
    · exact ⟨rfl, rfl⟩
    · exact ⟨(removeBatchAt_solve h).2, (removeBatchAt_spec B h).2.2.2.2⟩
  case reoptimize =>
    obtain ⟨e₁, hord, rfl⟩ := reoptimize_eq_ok B h
    obtain ⟨-, gs, rfl⟩ := orderMarginalizedDesignVariables_eq_ok hord
    exact ⟨rfl, rfl⟩

/-- An `addBatch` that returns leaves the cache, or commits the trial's marginalization. -/
theorem addBatch_cache_cases {batch : Batch} {force : Bool} {ret : ReturnValue R}
    (h : addBatch B batch force e = .ok ret e') :
    e'.cache = e.cache ∨ e'.cache = (e.withBatch batch).trialMarginalization B := by
  obtain ⟨e₁, hord, -, rfl⟩ := addBatch_eq_ok B h
  obtain ⟨-, gs, rfl⟩ := orderMarginalizedDesignVariables_eq_ok hord
  rw [trialBatch_snd_cache, trialScore_cache]
  split_ifs
  · exact .inr (trial_setGroupsOrdering B _ gs).1
  · exact .inl rfl

/-- **What a call writes to the cache.**  A call that returns leaves the cache as it was, or
writes to `_svLogSum` the log-sum of one `marginalize` call. -/
theorem exec_cache_cases {c : Call} (h : c.exec B e = some e') :
    e'.cache = e.cache ∨ ∃ j k, e'.svLogSum = (B.marginalize j k).svLogSum := by
  cases c <;> obtain ⟨_, h⟩ := returnedState_eq_some.mp h
  case addBatch =>
    exact (addBatch_cache_cases h).imp_right fun hc =>
      ⟨_, _, congrArg Marginalization.svLogSum hc⟩
  case removeBatchAt =>
    exact .inr ⟨_, _, congrArg Marginalization.svLogSum (removeBatchAt_spec B h).2.2.1⟩
  case removeBatch =>
    rcases removeBatch_eq_ok B h with ⟨-, rfl⟩ | ⟨_, -, h⟩
    · exact .inl rfl
    · exact .inr ⟨_, _, congrArg Marginalization.svLogSum (removeBatchAt_spec B h).2.2.1⟩
  case reoptimize =>
    exact .inr ⟨_, _, congrArg Marginalization.svLogSum (reoptimize_spec B h).2.1⟩

/-! ## 3. The first-round test along every run -/

section FirstRound

variable {groupId : Nat} {options : Options R} {values : V}

/-- **The first-round test along every run.**  When `marginalize` never returns a log-sum of
`0`, then on every state reached from construction, by any calls, `_svLogSum` is `0` (the test
`!_svLogSum` of line 208) exactly when the cache is still the constructor's: the test holds until
a call writes the cache, and never after. -/
theorem reach_firstRound_iff (hB : ∀ j k, (B.marginalize j k).svLogSum ≠ 0)
    (hr : Reach B (fun _ _ => True) (init groupId options values) e) :
    e.svLogSum = 0 ↔ e.cache = emptyCache := by
  induction hr with
  | refl => exact ⟨fun _ => rfl, fun _ => rfl⟩
  | @tail e₁ e₂ _ _ _ h ih =>
    rcases exec_cache_cases h with hc | ⟨j, k, hs⟩
    · have hs : e₂.svLogSum = e₁.svLogSum := congrArg Marginalization.svLogSum hc
      rw [hs, hc]
      exact ih
    · have h0 : e₂.svLogSum ≠ 0 := hs ▸ hB j k
      exact ⟨fun h => absurd h h0, fun h => absurd (congrArg Marginalization.svLogSum h) h0⟩

end FirstRound

/-! ## 4. The estimator implements the protocol -/

/-- The estimator implements the protocol state `a`: it holds the same batches and values, and
its cache is the constructor's while `a` has no snapshot, and is the snapshot, with a log-sum
other than the first-round sentinel `0`, once `a` has one. -/
structure Implements (e : IncrementalEstimator R V) (a : Committed R V) : Prop where
  batches : e.problem.optimizationProblems = a.batches
  values : e.problem.values = a.values
  snapshot : a.snapshot = none ∧ e.cache = emptyCache ∨ a.snapshot = some e.cache ∧ e.svLogSum ≠ 0

/-- The estimator implements `a` once its `_Omega`, which no call reads, is replaced. -/
def ImplementsButOmega (e : IncrementalEstimator R V) (a : Committed R V) : Prop :=
  ∃ Ω, ({ e with Omega := Ω } : IncrementalEstimator R V).Implements a

theorem Implements.butOmega {a : Committed R V} (hi : e.Implements a) : e.ImplementsButOmega a :=
  ⟨e.Omega, hi⟩

/-- What the score reads of the cache agrees with the snapshot `s`: the sentinel `0` when there
is no snapshot, and otherwise the snapshot's log-sum, not `0`, and its column space. -/
def ScoresAs (e : IncrementalEstimator R V) (s : Option (Marginalization R)) : Prop :=
  s = none ∧ e.svLogSum = 0 ∨
    ∃ x, s = some x ∧ x.svLogSum = e.svLogSum ∧ x.CS = e.CS ∧ e.svLogSum ≠ 0

theorem Implements.scoresAs {a : Committed R V} (hi : e.Implements a) : e.ScoresAs a.snapshot :=
  hi.snapshot.imp (fun ⟨hn, hc⟩ => ⟨hn, congrArg Marginalization.svLogSum hc⟩)
    fun ⟨hs, h0⟩ => ⟨_, hs, rfl, rfl, h0⟩

theorem ImplementsButOmega.batches {a : Committed R V} (hi : e.ImplementsButOmega a) :
    e.problem.optimizationProblems = a.batches :=
  let ⟨_, hi⟩ := hi
  hi.batches

theorem ImplementsButOmega.values {a : Committed R V} (hi : e.ImplementsButOmega a) :
    e.problem.values = a.values :=
  let ⟨_, hi⟩ := hi
  hi.values

theorem ImplementsButOmega.scoresAs {a : Committed R V} (hi : e.ImplementsButOmega a) :
    e.ScoresAs a.snapshot :=
  let ⟨_, hi⟩ := hi
  hi.scoresAs

/-- The constructor implements the protocol's empty state. -/
theorem init_implements (groupId : Nat) (options : Options R) (values : V) :
    (init groupId options values).Implements ⟨[], values, none⟩ :=
  ⟨rfl, rfl, .inl ⟨rfl, rfl⟩⟩

/-- A cache written by `marginalize` holds a log-sum other than the sentinel. -/
theorem svLogSum_ne_zero_of_cache (hB : ∀ j k, (B.marginalize j k).svLogSum ≠ 0)
    {e₀ : IncrementalEstimator R V} (h : e.cache = e₀.marginalizeSystem B) : e.svLogSum ≠ 0 :=
  fun h0 => hB _ _ ((congrArg Marginalization.svLogSum h).symm.trans h0)

/-- A call that leaves the batches, the values and the cache implements what the state
implemented. -/
theorem Implements.of_frame {a : Committed R V} (hi : e.Implements a)
    (hb : e'.problem.optimizationProblems = e.problem.optimizationProblems)
    (hv : e'.problem.values = e.problem.values) (hc : e'.cache = e.cache) : e'.Implements a := by
  have hs : e'.svLogSum = e.svLogSum := congrArg Marginalization.svLogSum hc
  exact ⟨hb.trans hi.batches, hv.trans hi.values, by rw [hc, hs]; exact hi.snapshot⟩

/-- The protocol's trial on the estimator's batches and values is the code's trial. -/
theorem addBatch_oracle (s : Option (Marginalization R)) (batch : Batch) (force : Bool) :
    Committed.addBatch (oracle B e.options e.margGroupId) e.options
        ⟨e.problem.optimizationProblems, e.problem.values, s⟩ batch force =
      if force = true ∨ Committed.Informative e.options s ((e.withBatch batch).solveTrial B).1
          ((e.withBatch batch).trialMarginalization B)
      then ⟨e.problem.optimizationProblems ++ [batch],
        ((e.withBatch batch).solveTrial B).2.problem.values,
        some ((e.withBatch batch).trialMarginalization B)⟩
      else ⟨e.problem.optimizationProblems, e.problem.values, s⟩ := rfl

/-- **An unforced `addBatch` of a new batch decides as the protocol does**, from a state with the
batches and the values of `a` whose score reads what `a`'s snapshot says: the score keeps the
batch exactly when the protocol finds it informative.  Then both commit the trial; otherwise
neither changes the batches, the values or the cache. -/
theorem addBatch_refines (hB : ∀ j k, (B.marginalize j k).svLogSum ≠ 0) {a : Committed R V}
    {batch : Batch} {ret : ReturnValue R} (hbs : e.problem.optimizationProblems = a.batches)
    (hvs : e.problem.values = a.values) (hs : e.ScoresAs a.snapshot)
    (hb : batch ∉ e.problem.optimizationProblems) (h : addBatch B batch false e = .ok ret e') :
    e'.Implements (a.addBatch (oracle B e.options e.margGroupId) e.options batch false) ∨
      a.addBatch (oracle B e.options e.margGroupId) e.options batch false = a ∧
        e'.problem.optimizationProblems = e.problem.optimizationProblems ∧
        e'.problem.values = e.problem.values ∧ e'.cache = e.cache := by
  obtain ⟨bs, v, s⟩ := a
  subst hbs hvs
  obtain ⟨hacc, -, hbs, hvs, hcache, -, -⟩ := addBatch_spec B hb h
  have hkeep : ((e.withBatch batch).trialScore B).1 = true ↔ Committed.Informative e.options s
      ((e.withBatch batch).solveTrial B).1 ((e.withBatch batch).trialMarginalization B) := by
    rw [trialScore_fst_iff]
    rcases hs with ⟨rfl, h0⟩ | ⟨x, rfl, hx, hcs, h0⟩
    · simp [Committed.Informative, Committed.Valid, h0]
    · simp [Committed.Informative, Committed.Valid, h0, hx, hcs]
  rw [Bool.or_false] at hacc
  rw [addBatch_oracle]
  by_cases hk : ((e.withBatch batch).trialScore B).1 = true
  · -- kept: both commit the trial
    simp only [hacc, hk, if_true] at hbs hvs hcache
    rw [if_pos (.inr (hkeep.mp hk))]
    exact .inl ⟨hbs, hvs, .inr ⟨congrArg some hcache.symm, svLogSum_ne_zero_of_cache hB hcache⟩⟩
  · -- rejected: neither changes anything
    simp only [hacc, hk, Bool.false_eq_true, if_false] at hbs hvs hcache
    exact .inr ⟨if_neg (by simpa [hkeep] using hk), hbs, hvs, hcache⟩

/-- **A `removeBatch(idx)` that returns refines the protocol's**: both remove the batch, solve
without it and commit the snapshot. -/
theorem implements_removeBatchAt (hB : ∀ j k, (B.marginalize j k).svLogSum ≠ 0)
    {a : Committed R V} {idx : Nat} {u : Unit} (hbs : e.problem.optimizationProblems = a.batches)
    (hvs : e.problem.values = a.values) (h : removeBatchAt B idx e = .ok u e') :
    e'.Implements (a.removeBatchAt (oracle B e.options e.margGroupId) idx) := by
  obtain ⟨bs, v, s⟩ := a
  subst hbs hvs
  obtain ⟨hidx, hbs, hcache, -, hm⟩ := removeBatchAt_spec B h
  obtain ⟨hv, ho⟩ := removeBatchAt_solve h
  simp only [Committed.removeBatchAt, hidx, if_true]
  refine ⟨hbs, hv, .inr ⟨?_, svLogSum_ne_zero_of_cache hB hcache⟩⟩
  rw [hcache, marginalizeSystem_eq_snapshot, hbs, hv, ho, hm]
  rfl

/-- A `removeBatch(batch)` that returns refines the protocol's: both remove the batch at its
position, or, for a batch that is not there, change nothing. -/
theorem implements_removeBatch (hB : ∀ j k, (B.marginalize j k).svLogSum ≠ 0)
    {a : Committed R V} {batch : Batch} {u : Unit}
    (hbs : e.problem.optimizationProblems = a.batches) (hvs : e.problem.values = a.values)
    (h : removeBatch B batch e = .ok u e') :
    e'.Implements (a.removeBatch (oracle B e.options e.margGroupId) batch) ∨
      e' = e ∧ a.removeBatch (oracle B e.options e.margGroupId) batch = a := by
  rcases removeBatch_eq_ok B h with ⟨hnot, rfl⟩ | ⟨idx, hidx, h⟩
  · exact .inr ⟨rfl, if_neg (hbs ▸ hnot)⟩
  · obtain ⟨hmem, rfl⟩ := IncrementalOptimizationProblem.getOptimizationProblem_eq_some _ hidx
    rw [Committed.removeBatch, if_pos (hbs ▸ hmem), ← hbs]
    exact .inl (implements_removeBatchAt hB hbs hvs h)

/-- **A `reoptimize()` that returns refines the protocol's but for `_Omega`**: both solve the
committed batches again and commit their snapshot, which the code does for every component but
`_Omega`. -/
theorem implements_reoptimize (hB : ∀ j k, (B.marginalize j k).svLogSum ≠ 0)
    {a : Committed R V} {ret : ReturnValue R} (hbs : e.problem.optimizationProblems = a.batches)
    (hvs : e.problem.values = a.values) (h : reoptimize B e = .ok ret e') :
    e'.ImplementsButOmega (a.reoptimize (oracle B e.options e.margGroupId)) := by
  obtain ⟨bs, v, s⟩ := a
  subst hbs hvs
  obtain ⟨e₁, hord, rfl⟩ := reoptimize_eq_ok B h
  obtain ⟨-, gs, rfl⟩ := orderMarginalizedDesignVariables_eq_ok hord
  exact ⟨_, rfl, rfl, .inr ⟨rfl, hB _ _⟩⟩

/-- **One call refines the protocol's.**  An unforced addition of a new batch, or a removal,
that returns from a state implementing `a` leaves a state implementing the protocol's call on
`a`. -/
theorem implements_exec (hB : ∀ j k, (B.marginalize j k).svLogSum ≠ 0) {a : Committed R V}
    {c : Call} (hi : e.Implements a) (hc : c.UnforcedUpdate e) (h : c.exec B e = some e') :
    e'.Implements (Committed.exec (oracle B e.options e.margGroupId) e.options c a) := by
  cases c <;> obtain ⟨_, h⟩ := returnedState_eq_some.mp h
  case addBatch =>
    obtain ⟨rfl, hb⟩ := hc
    rcases addBatch_refines hB hi.batches hi.values hi.scoresAs hb h with h' | ⟨ha, hbs, hvs, hc⟩
    · exact h'
    · rw [Committed.exec, ha]
      exact hi.of_frame hbs hvs hc
  case removeBatchAt => exact implements_removeBatchAt hB hi.batches hi.values h
  case removeBatch =>
    rcases implements_removeBatch hB hi.batches hi.values h with h' | ⟨rfl, ha⟩
    · exact h'
    · rw [Committed.exec, ha]
      exact hi
  case reoptimize => exact hc.elim

/-- **One call refines the protocol's but for `_Omega`**, `reoptimize` included. -/
theorem implementsButOmega_exec (hB : ∀ j k, (B.marginalize j k).svLogSum ≠ 0)
    {a : Committed R V} {c : Call} (hi : e.ImplementsButOmega a) (hc : c.Unforced e)
    (h : c.exec B e = some e') :
    e'.ImplementsButOmega (Committed.exec (oracle B e.options e.margGroupId) e.options c a) := by
  cases c <;> obtain ⟨_, h⟩ := returnedState_eq_some.mp h
  case addBatch =>
    obtain ⟨rfl, hb⟩ := hc
    rcases addBatch_refines hB hi.batches hi.values hi.scoresAs hb h with h' | ⟨ha, hbs, hvs, hc⟩
    · exact h'.butOmega
    · obtain ⟨Ω, hΩ⟩ := hi
      rw [Committed.exec, ha]
      exact ⟨Ω, hΩ.of_frame hbs hvs (by simp only [cache_withOmega, hc])⟩
  case removeBatchAt => exact (implements_removeBatchAt hB hi.batches hi.values h).butOmega
  case removeBatch =>
    rcases implements_removeBatch hB hi.batches hi.values h with h' | ⟨rfl, ha⟩
    · exact h'.butOmega
    · rw [Committed.exec, ha]
      exact hi
  case reoptimize => exact implements_reoptimize hB hi.batches hi.values h

end IncrementalEstimator

/-! ## 5. Runs with their calls -/

section Runs

variable {R V J : Type} [LinearOrderedField R] (B : Backend R V J)

/-- The runs with their calls: `Run B allowed e cs e'` when the calls `cs`, in order, each
allowed from the state it is made in and each returning, take `e` to `e'`. -/
inductive Run (allowed : IncrementalEstimator R V → Call → Prop) :
    IncrementalEstimator R V → List Call → IncrementalEstimator R V → Prop
  | nil (e : IncrementalEstimator R V) : Run allowed e [] e
  | cons {e e₁ e' : IncrementalEstimator R V} {c : Call} {cs : List Call} :
      allowed e c → c.exec B e = some e₁ → Run allowed e₁ cs e' → Run allowed e (c :: cs) e'

variable {B}

namespace IncrementalEstimator

/-- **The estimator implements the admission protocol.**  When `marginalize` never returns a
log-sum of `0`: from every state implementing a protocol state `a`, after every run of unforced
additions of new batches and of removals, the estimator implements the protocol's run of the
same calls from `a`.  It holds that run's batches and values, and its cache is that run's
snapshot once there is one.  From construction, `a` is the protocol's empty state
(`init_implements`). -/
theorem run_implements (hB : ∀ j k, (B.marginalize j k).svLogSum ≠ 0)
    {e₀ e : IncrementalEstimator R V} {a : Committed R V} {cs : List Call}
    (hi : e₀.Implements a) (hr : Run B Call.UnforcedUpdate e₀ cs e) :
    e.Implements (Committed.run (oracle B e₀.options e₀.margGroupId) e₀.options cs a) := by
  induction hr generalizing a with
  | nil => exact hi
  | cons hc h _ ih =>
    obtain ⟨ho, hm⟩ := exec_constants h
    have := ih (implements_exec hB hi hc h)
    rwa [ho, hm] at this

/-- **With `reoptimize`, the estimator implements the protocol but for `_Omega`.**  When
`marginalize` never returns a log-sum of `0`: from every state implementing a protocol state `a`
but for `_Omega`, after every run of unforced additions of new batches, removals and
`reoptimize` calls, the estimator implements the protocol's run of the same calls from `a` once
its `_Omega` is replaced: the same batches, values and verdicts, and every other cached
component is that run's snapshot.  The stale `_Omega` that `reoptimize` leaves changes no
decision, since no call reads it. -/
theorem run_implementsButOmega (hB : ∀ j k, (B.marginalize j k).svLogSum ≠ 0)
    {e₀ e : IncrementalEstimator R V} {a : Committed R V} {cs : List Call}
    (hi : e₀.ImplementsButOmega a) (hr : Run B Call.Unforced e₀ cs e) :
    e.ImplementsButOmega
      (Committed.run (oracle B e₀.options e₀.margGroupId) e₀.options cs a) := by
  induction hr generalizing a with
  | nil => exact hi
  | cons hc h _ ih =>
    obtain ⟨ho, hm⟩ := exec_constants h
    have := ih (implementsButOmega_exec hB hi hc h)
    rwa [ho, hm] at this

end IncrementalEstimator

end Runs

/-! ## 6. Runs on small inputs -/

namespace IncrementalEstimator

/-- `countingBackend` whose log-sums are one more than the number of batches: never `0`. -/
def shiftedBackend : Backend ℚ Nat (Nat × Nat) :=
  { countingBackend with
    marginalize := fun j _ => ⟨j.1 + 1, .empty, .zero 1 j.1, .empty, .empty, .zero 1 j.2⟩ }

theorem shiftedBackend_svLogSum_ne_zero (j : Nat × Nat) (k : Nat) :
    (shiftedBackend.marginalize j k).svLogSum ≠ 0 :=
  Nat.cast_add_one_ne_zero j.1

/-- After the first batch on a fresh estimator is committed, at log-sum `2`: the first-round test
and the constructor's cache are both gone. -/
theorem reach_firstRound_iff_first_batch :
    Reach shiftedBackend (fun _ _ => True) (fresh 10)
        (((fresh 10).withBatch batch₁).trialBatch shiftedBackend batch₁ false).2 ∧
      ((((fresh 10).withBatch batch₁).trialBatch shiftedBackend batch₁ false).2.svLogSum = 0 ↔
        (((fresh 10).withBatch batch₁).trialBatch shiftedBackend batch₁ false).2.cache =
          emptyCache) :=
  have hr := Reach.tail (.addBatch batch₁ false) .refl trivial
    (by rw [Call.exec, addBatch_of_order_ok shiftedBackend (order_fresh_add_batch₁ 10)]; rfl)
  ⟨hr, reach_firstRound_iff shiftedBackend_svLogSum_ne_zero hr⟩

/-- The first batch on a fresh estimator: the code and the protocol both commit it. -/
theorem run_implements_first_batch :
    Run shiftedBackend Call.UnforcedUpdate (fresh 10) [.addBatch batch₁ false]
        (((fresh 10).withBatch batch₁).trialBatch shiftedBackend batch₁ false).2 ∧
      (((fresh 10).withBatch batch₁).trialBatch shiftedBackend batch₁ false).2.Implements
        (Committed.run (oracle shiftedBackend (fresh 10).options (fresh 10).margGroupId)
          (fresh 10).options [.addBatch batch₁ false] ⟨[], 0, none⟩) ∧
      (Committed.run (oracle shiftedBackend (fresh 10).options (fresh 10).margGroupId)
          (fresh 10).options [.addBatch batch₁ false] ⟨[], 0, none⟩).batches = [batch₁] :=
  have hr : Run shiftedBackend Call.UnforcedUpdate (fresh 10) [.addBatch batch₁ false] _ :=
    .cons ⟨rfl, List.not_mem_nil _⟩
      (by rw [Call.exec, addBatch_of_order_ok shiftedBackend (order_fresh_add_batch₁ 10)]; rfl)
      (.nil _)
  ⟨hr, run_implements shiftedBackend_svLogSum_ne_zero (init_implements 0 (capOptions 10) 0) hr,
    by decide⟩

/-- The first batch on a fresh estimator, then `reoptimize`: the code implements the protocol's
run of both calls but for `_Omega`, and both hold the batch. -/
theorem run_implementsButOmega_after_reoptimize :
    ∃ e, Run shiftedBackend Call.Unforced (fresh 10) [.addBatch batch₁ false, .reoptimize] e ∧
      e.ImplementsButOmega
        (Committed.run (oracle shiftedBackend (fresh 10).options (fresh 10).margGroupId)
          (fresh 10).options [.addBatch batch₁ false, .reoptimize] ⟨[], 0, none⟩) ∧
      (Committed.run (oracle shiftedBackend (fresh 10).options (fresh 10).margGroupId)
          (fresh 10).options [.addBatch batch₁ false, .reoptimize] ⟨[], 0, none⟩).batches =
        [batch₁] := by
  have hr : Run shiftedBackend Call.Unforced (fresh 10) [.addBatch batch₁ false, .reoptimize] _ :=
    .cons ⟨rfl, List.not_mem_nil _⟩
      (by rw [Call.exec, addBatch_of_order_ok shiftedBackend (order_fresh_add_batch₁ 10)]; rfl)
      (.cons trivial (by rfl) (.nil _))
  exact ⟨_, hr, run_implementsButOmega shiftedBackend_svLogSum_ne_zero
    (init_implements 0 (capOptions 10) 0).butOmega hr, by decide⟩

end IncrementalEstimator

end IncrementalCalibration
