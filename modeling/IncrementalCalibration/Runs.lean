import IncrementalCalibration.Rollback

/-!
# Runs of calls, and what the cache tracks along them

A client constructs an estimator and then calls `addBatch`, `removeBatch` and `reoptimize` on it,
in any order.  `Call` lists those calls and `Call.exec` runs one as the client sees it return.
`Reach B allowed e₀` holds of the states a client reaches from `e₀` by calls that returned,
each of them one that `allowed` lets it make from the state it was in.

The cached spectral state is meant to be the marginalization of the problem as it is (the
specification's invariant, section 2).  Each call's spec lemma says what the call does to the
cache: `removeBatch(idx)` commits the marginalization of the re-solved problem; an unforced
`addBatch` of a new batch either commits the trial's marginalization or gives back everything
the cache was computed from; `reoptimize` refreshes every component but `_Omega`.  So the
invariant holds along every run of unforced additions and of removals (`reach_synced`), and,
with `reoptimize` calls as well, for every component but `_Omega` (`reach_syncedButOmega`).

It does not hold in general.  A forced batch the score does not keep stays in the problem while
the cache stays behind, and `reoptimize` keeps a stale `_Omega`: `snapshot_lags_problem` runs
both.
-/

namespace IncrementalCalibration

/-- What a client calls on the estimator. -/
inductive Call where
  /-- `addBatch(batch, force)`. -/
  | addBatch (batch : Batch) (force : Bool)
  /-- `removeBatch(idx)`. -/
  | removeBatchAt (idx : Nat)
  /-- `removeBatch(batch)`. -/
  | removeBatch (batch : Batch)
  /-- `reoptimize()`. -/
  | reoptimize
  deriving DecidableEq, Repr

/-- The state a call returned with; `none` when it threw. -/
def returnedState {σ α : Type} : EStateM.Result Exception σ α → Option σ
  | .ok _ s => some s
  | .error _ _ => none

theorem returnedState_eq_some {σ α : Type} {r : EStateM.Result Exception σ α} {s : σ} :
    returnedState r = some s ↔ ∃ a, r = .ok a s := by
  cases r <;> simp [returnedState]

/-! ## 1. Calls and the states they reach -/

section Runs

variable {R V J : Type}

namespace Call

/-- A call that forces no batch in, and adds only a batch that is not in the problem yet (the
specification's precondition, section 3). -/
def Unforced (e : IncrementalEstimator R V) : Call → Prop
  | addBatch batch force => force = false ∧ batch ∉ e.problem.optimizationProblems
  | _ => True

/-- An unforced call that adds or removes a batch: no `reoptimize`. -/
def UnforcedUpdate (e : IncrementalEstimator R V) : Call → Prop
  | reoptimize => False
  | c => c.Unforced e

/-- A call that adds only a batch that is not in the problem yet, forced or not: the
specification's precondition on adding a batch (section 3). -/
def AddsNew (e : IncrementalEstimator R V) : Call → Prop
  | addBatch batch _ => batch ∉ e.problem.optimizationProblems
  | _ => True

theorem UnforcedUpdate.unforced {e : IncrementalEstimator R V} {c : Call} (hc : c.UnforcedUpdate e) :
    c.Unforced e ∧ c ≠ .reoptimize := by
  cases c
  case reoptimize => exact hc.elim
  all_goals exact ⟨hc, nofun⟩

variable [LinearOrderedField R] (B : Backend R V J)

/-- One call on `e`, as the client sees it return. -/
def exec : Call → IncrementalEstimator R V → Option (IncrementalEstimator R V)
  | addBatch batch force, e => returnedState (IncrementalEstimator.addBatch B batch force e)
  | removeBatchAt idx, e => returnedState (IncrementalEstimator.removeBatchAt B idx e)
  | removeBatch batch, e => returnedState (IncrementalEstimator.removeBatch B batch e)
  | reoptimize, e => returnedState (IncrementalEstimator.reoptimize B e)

end Call

variable [LinearOrderedField R] (B : Backend R V J)

/-- The states reached from `e₀` by calls that returned, each of them allowed from the state it
was made in. -/
inductive Reach (allowed : IncrementalEstimator R V → Call → Prop) (e₀ : IncrementalEstimator R V) :
    IncrementalEstimator R V → Prop
  | refl : Reach allowed e₀ e₀
  | tail {e e' : IncrementalEstimator R V} (c : Call) :
      Reach allowed e₀ e → allowed e c → c.exec B e = some e' → Reach allowed e₀ e'

end Runs

/-! ## 2. The cache along a run -/

namespace IncrementalEstimator

variable {R V J : Type} [LinearOrderedField R] (B : Backend R V J)

/-- The cache the constructor leaves. -/
def emptyCache : Marginalization R := ⟨0, .empty, .empty, .empty, .empty, .empty⟩

@[simp] theorem init_cache (groupId : Nat) (options : Options R) (values : V) :
    (init groupId options values).cache = emptyCache := rfl

@[simp] theorem init_optimizationProblems (groupId : Nat) (options : Options R) (values : V) :
    (init groupId options values).problem.optimizationProblems = [] := rfl

/-- The specification's invariant: the cache is the marginalization of the problem as it is, or,
with no batch in the problem, the cache the constructor left. -/
def Synced (e : IncrementalEstimator R V) : Prop :=
  e.problem.optimizationProblems = [] ∧ e.cache = emptyCache ∨ e.cache = e.marginalizeSystem B

/-- The invariant for every cached component but `_Omega`. -/
def SyncedButOmega (e : IncrementalEstimator R V) : Prop :=
  e.problem.optimizationProblems = [] ∧ e.cache = emptyCache ∨
    e.cache = { e.marginalizeSystem B with Omega := e.Omega }

variable {B} {e e' : IncrementalEstimator R V}

theorem Synced.butOmega (hs : e.Synced B) : e.SyncedButOmega B := by
  rcases hs with hs | hs
  · exact .inl hs
  · have hΩ : e.Omega = (e.marginalizeSystem B).Omega := congrArg Marginalization.Omega hs
    exact .inr (by rw [hΩ]; exact hs)

/-- Both invariants read the batches, the values, the marginalized group and the cache. -/
theorem synced_congr (hb : e'.problem.optimizationProblems = e.problem.optimizationProblems)
    (hv : e'.problem.values = e.problem.values) (hm : e'.margGroupId = e.margGroupId)
    (hc : e'.cache = e.cache) :
    (e'.Synced B ↔ e.Synced B) ∧ (e'.SyncedButOmega B ↔ e.SyncedButOmega B) := by
  have hΩ : e'.Omega = e.Omega := congrArg Marginalization.Omega hc
  refine ⟨?_, ?_⟩ <;> simp only [Synced, SyncedButOmega, hb, hc, hΩ, marginalizeSystem_congr B _ hb hv hm]

/-! ### One call -/

variable {batch : Batch} {ret : ReturnValue R}

/-- **An unforced `addBatch` of a new batch** either commits the marginalization of the problem
it leaves, or gives back the batches, the values and the cache it found. -/
theorem addBatch_unforced_cases (hb : batch ∉ e.problem.optimizationProblems)
    (h : addBatch B batch false e = .ok ret e') :
    e'.cache = e'.marginalizeSystem B ∨
      (e'.problem.optimizationProblems = e.problem.optimizationProblems ∧
        e'.problem.values = e.problem.values ∧ e'.margGroupId = e.margGroupId ∧ e'.cache = e.cache) := by
  obtain ⟨hacc, -, hbs, hvs, hcache, -, hm⟩ := addBatch_spec B hb h
  rw [Bool.or_false] at hacc
  cases hk : ((e.withBatch batch).trialScore B).1
  · -- rejected: everything the cache was computed from is back
    simp only [hacc, hk, Bool.false_eq_true, if_false] at hbs hvs hcache
    exact .inr ⟨hbs, hvs, hm, hcache⟩
  · -- kept: the cache is the trial's marginalization, of the problem the trial leaves
    simp only [hacc, hk, if_true] at hbs hvs hcache
    refine .inl (hcache.trans (marginalizeSystem_congr B _ ?_ ?_ ?_).symm) <;> simp [hbs, hvs, hm]

/-- **What an unforced call does to the cache.**  It commits the marginalization of the problem
it leaves; or it leaves the cache, the batches, the values and the marginalized group as they
were; or it is `reoptimize`, and commits that marginalization but for `_Omega`. -/
theorem exec_unforced_cases {c : Call} (hc : c.Unforced e) (h : c.exec B e = some e') :
    e'.cache = e'.marginalizeSystem B ∨
    (e'.problem.optimizationProblems = e.problem.optimizationProblems ∧
      e'.problem.values = e.problem.values ∧ e'.margGroupId = e.margGroupId ∧ e'.cache = e.cache) ∨
    (c = .reoptimize ∧ e'.cache = { e'.marginalizeSystem B with Omega := e.Omega }) := by
  cases c <;> obtain ⟨_, h⟩ := returnedState_eq_some.mp h
  case addBatch =>
    obtain ⟨rfl, hb⟩ := hc
    exact (addBatch_unforced_cases hb h).imp_right .inl
  case removeBatchAt => exact .inl (removeBatchAt_spec B h).2.2.1
  case removeBatch =>
    rcases removeBatch_eq_ok B h with ⟨-, rfl⟩ | ⟨_, -, h⟩
    · exact .inr (.inl ⟨rfl, rfl, rfl, rfl⟩)
    · exact .inl (removeBatchAt_spec B h).2.2.1
  case reoptimize => exact .inr (.inr ⟨rfl, (reoptimize_spec B h).2.1⟩)

/-- **One unforced call other than `reoptimize` keeps the invariant.** -/
theorem synced_exec {c : Call} (hs : e.Synced B) (hc : c.UnforcedUpdate e)
    (h : c.exec B e = some e') : e'.Synced B := by
  obtain ⟨hc, hre⟩ := hc.unforced
  rcases exec_unforced_cases hc h with hk | ⟨hb, hv, hm, hcache⟩ | ⟨rfl, -⟩
  · exact .inr hk
  · exact (synced_congr hb hv hm hcache).1.mpr hs
  · exact absurd rfl hre

/-- **One unforced call keeps the invariant but for `_Omega`**, `reoptimize` included. -/
theorem syncedButOmega_exec {c : Call} (hs : e.SyncedButOmega B) (hc : c.Unforced e)
    (h : c.exec B e = some e') : e'.SyncedButOmega B := by
  rcases exec_unforced_cases hc h with hk | ⟨hb, hv, hm, hcache⟩ | ⟨-, hk⟩
  · exact Synced.butOmega (.inr hk)
  · exact (synced_congr hb hv hm hcache).2.mpr hs
  · have hΩ : e'.Omega = e.Omega := congrArg Marginalization.Omega hk
    exact .inr (by rw [hΩ]; exact hk)

/-! ### Whole runs -/

variable {groupId : Nat} {options : Options R} {values : V}

/-- **Along unforced additions and removals the cache is the marginalization of the problem.**
Every state that a run of `addBatch(batch, false)` calls of new batches and `removeBatch` calls
reaches from a freshly constructed estimator holds the constructor's cache with no batch in the
problem, or exactly the marginalization of its batches at its values. -/
theorem reach_synced (hr : Reach B Call.UnforcedUpdate (init groupId options values) e) :
    e.Synced B := by
  induction hr with
  | refl => exact .inl ⟨rfl, rfl⟩
  | tail _ _ hc h ih => exact synced_exec ih hc h

/-- **With `reoptimize` calls too, the invariant holds but for `_Omega`.** -/
theorem reach_syncedButOmega (hr : Reach B Call.Unforced (init groupId options values) e) :
    e.SyncedButOmega B := by
  induction hr with
  | refl => exact .inl ⟨rfl, rfl⟩
  | tail _ _ hc h ih => exact syncedButOmega_exec ih hc h

/-! ## 3. Runs on small inputs -/

/-- One kept batch on a fresh estimator reaches a state whose cache is its marginalization. -/
theorem reach_synced_first_batch :
    Reach countingBackend Call.UnforcedUpdate (fresh 10)
        (((fresh 10).withBatch batch₁).trialBatch countingBackend batch₁ false).2 ∧
      (((fresh 10).withBatch batch₁).trialBatch countingBackend batch₁ false).2.Synced countingBackend :=
  have hr := Reach.tail (.addBatch batch₁ false) .refl ⟨rfl, List.not_mem_nil _⟩
    (by rw [Call.exec, addBatch_of_order_ok countingBackend (order_fresh_add_batch₁ 10)]; rfl)
  ⟨hr, reach_synced hr⟩

/-- On a fresh estimator with valid solves, `addBatch(batch₁, false)` keeps the batch and commits
the marginalization of the first solve, values `1`; `reoptimize` then moves the values to `2`
and keeps that `_Omega`, of one column. -/
theorem reoptimize_after_first_batch :
    ∃ ret₁ e₁ ret₂ e₂, addBatch countingBackend batch₁ false (fresh 10) = .ok ret₁ e₁ ∧
      reoptimize countingBackend e₁ = .ok ret₂ e₂ ∧ e₂.problem.optimizationProblems = [batch₁] ∧
      e₂.Omega.cols = 1 ∧ e₂.problem.values = 2 := by
  obtain ⟨_, hrun, -⟩ := addBatch_of_first_round countingBackend false (order_fresh_add_batch₁ 10) rfl
    (by decide)
  exact ⟨_, _, _, _, hrun, rfl, rfl, rfl, rfl⟩

/-- Along unforced calls with `reoptimize`, a state past a `reoptimize`. -/
theorem reach_syncedButOmega_after_reoptimize :
    ∃ e, Reach countingBackend Call.Unforced (fresh 10) e ∧ e.SyncedButOmega countingBackend := by
  obtain ⟨_, e₁, _, e₂, h₁, h₂, -⟩ := reoptimize_after_first_batch
  have hr : Reach countingBackend Call.Unforced (fresh 10) e₂ :=
    .tail .reoptimize (.tail (.addBatch batch₁ false) .refl ⟨rfl, List.not_mem_nil _⟩
      (returnedState_eq_some.mpr ⟨_, h₁⟩)) trivial (returnedState_eq_some.mpr ⟨_, h₂⟩)
  exact ⟨e₂, hr, reach_syncedButOmega hr⟩

/-- **The cache falls behind the problem.**  On a fresh estimator whose solves hit the iteration
cap, a forced `addBatch` keeps its batch while the cache stays the constructor's; after a batch
is kept on a fresh estimator whose solves are valid, `reoptimize` moves the values and keeps
the old `_Omega`.  Either way the problem holds a batch, and the cache is no marginalization
of the Jacobian at the current values. -/
theorem snapshot_lags_problem :
    (∃ ret e, addBatch countingBackend batch₁ true (fresh 1) = .ok ret e ∧
      e.problem.optimizationProblems = [batch₁] ∧
      ∀ k, e.cache ≠ countingBackend.marginalize (e.getJacobianTranspose countingBackend) k) ∧
    (∃ ret₁ e₁ ret₂ e₂, addBatch countingBackend batch₁ false (fresh 10) = .ok ret₁ e₁ ∧
      reoptimize countingBackend e₁ = .ok ret₂ e₂ ∧ e₂.problem.optimizationProblems = [batch₁] ∧
      ∀ k, e₂.cache ≠ countingBackend.marginalize (e₂.getJacobianTranspose countingBackend) k) := by
  constructor
  · -- a forced batch the score drops: the cache stays the constructor's
    have hrun : addBatch countingBackend batch₁ true (fresh 1) = _ :=
      addBatch_of_order_ok countingBackend (order_fresh_add_batch₁ 1)
    obtain ⟨hacc, -, hbs, -, hcache, -⟩ := addBatch_spec countingBackend (List.not_mem_nil _) hrun
    rw [batch₁_dropped_at_cap, Bool.false_or] at hacc
    rw [hacc, if_pos rfl] at hbs
    refine ⟨_, _, hrun, hbs.trans rfl, fun k hk => ?_⟩
    have hs := congrArg Marginalization.svLogSum hk
    rw [hcache, batch₁_dropped_at_cap, if_neg Bool.false_ne_true, countingBackend_svLogSum, hbs] at hs
    norm_num [fresh, emptyCache] at hs
  · -- a kept batch, then `reoptimize`: `_Omega` has one column, the values have moved to `2`
    obtain ⟨ret₁, e₁, ret₂, e₂, h₁, h₂, hbs, hΩ, hv⟩ := reoptimize_after_first_batch
    refine ⟨ret₁, e₁, ret₂, e₂, h₁, h₂, hbs, fun k hk => ?_⟩
    have h := (congrArg (·.Omega.cols) hk).trans (countingBackend_Omega_cols e₂ k)
    simp only [cache, hΩ, hv] at h
    exact absurd h (by decide)

end IncrementalEstimator

end IncrementalCalibration
