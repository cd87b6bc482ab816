import IncrementalCalibration.Layout

/-!
# `IncrementalEstimator`, call by call

This module translates `IncrementalEstimator.cpp`: the constructor, `optimize`, `reoptimize`,
`addBatch`, both `removeBatch`es, `orderMarginalizedDesignVariables`, `initLinearSolver` and
`restoreLinearSolver`, in the order in which their statements run.

What the estimator calls but does not implement is a `Backend`: the nonlinear optimizer with its
linear solver, and `marginalize`.  Each is a FUNCTION of what it reads: the optimizer of the
batches and the design-variable values (and its options), the Jacobian transpose of the batches
at the current values, `marginalize` of a Jacobian transpose and a column split.  The only thing
asked of a back end is that the optimizer stops at its iteration cap; in particular nothing ties
`rows()` of the Jacobian transpose to the structure the solver holds.

Two things are assumed where the source hands over to code that is not in this repository.
`Optimizer2::optimize()` is taken to lay the system out as `restoreLinearSolver` does, so
`optimize` leaves the solver holding `layoutSystem`'s structure.  And the block indices, column
bases and row bases that `restoreLinearSolver` writes back into the problem's own design variables
and error terms (lines 349-350, 360) are not kept: only the structure handed to the solver is, and
no modelled call reads the others.

A call is an `EStateM Exception (IncrementalEstimator R V)` computation.  A thrown exception keeps
the state reached at the throw, as a C++ exception does: nothing in the source rolls back on
throw.  Doubles are elements of an ordered field `R`, so a NaN cost, which the validity test of
lines 190-193 lets through, cannot arise.  A `size_t` is a `Nat`, except where a difference of two
can wrap: the column split of `marginalize` is computed in `UInt64`.
-/

namespace IncrementalCalibration

/-- `Eigen::MatrixXd`: a dense matrix, its coefficients in column-major order.  The estimator
copies these and reads only `cols()`. -/
structure MatrixXd (R : Type) where
  rows : Nat
  cols : Nat
  data : List R
  size_eq : data.length = rows * cols
  deriving DecidableEq

/-- A default-constructed `Eigen::MatrixXd`. -/
def MatrixXd.empty {R : Type} : MatrixXd R := ⟨0, 0, [], rfl⟩

/-- `Eigen::MatrixXd::Zero(rows, cols)`. -/
def MatrixXd.zero {R : Type} [Zero R] (rows cols : Nat) : MatrixXd R :=
  ⟨rows, cols, List.replicate (rows * cols) 0, List.length_replicate _ _⟩

/-- The options `IncrementalEstimator.cpp` reads: the information-gain threshold, verbosity, the
optimizer's iteration cap and the QR options of the linear solver. -/
structure Options (R : Type) where
  miTol : R
  verbose : Bool
  maxIterations : Nat
  colNorm : Bool
  qrTol : R

/-- The `Optimizer2Options` the estimator sets. -/
structure OptimizerOptions where
  verbose : Bool
  maxIterations : Nat

/-- The `SparseQRLinearSolverOptions` `initLinearSolver` sets. -/
structure LinearSolverOptions (R : Type) where
  colNorm : Bool
  qrTol : R

/-- `aslam::backend::SolutionReturnValue`, the fields the estimator reads. -/
structure SolutionReturnValue (R : Type) where
  iterations : Nat
  JStart : R
  JFinal : R

/-- One call of `marginalize`: the log-sum it returns and the five matrices it fills. -/
structure Marginalization (R : Type) where
  svLogSum : R
  NS : MatrixXd R
  CS : MatrixXd R
  Sigma : MatrixXd R
  SigmaP : MatrixXd R
  Omega : MatrixXd R
  deriving DecidableEq

/-- `ReturnValue` as `reoptimize` and `addBatch` fill it.  `_elapsedTime`, read from the clock,
is not modelled. -/
structure ReturnValue (R : Type) where
  batchAccepted : Bool
  mi : R
  rank : Nat
  qrTol : R
  numIterations : Nat
  JStart : R
  JFinal : R
  cholmodMemoryUsage : Nat
  NS : MatrixXd R
  CS : MatrixXd R
  Sigma : MatrixXd R
  SigmaP : MatrixXd R
  Omega : MatrixXd R

/-- The collaborators the estimator calls, as functions of what they read. -/
structure Backend (R V J : Type) where
  /-- `Optimizer2::optimize()`: the solve's statistics and the values it leaves. -/
  optimize : OptimizerOptions → List Batch → V → SolutionReturnValue R × V
  /-- The optimizer stops at its iteration cap. -/
  iterations_le : ∀ o bs v, (optimize o bs v).1.iterations ≤ o.maxIterations
  /-- The linear solver's `getJacobianTranspose()` for these batches at these values. -/
  jacobianTranspose : List Batch → V → J
  /-- `rows()` of a Jacobian transpose: the number of columns of the system.  The model does not
  relate it to the structure the solver holds. -/
  rows : J → Nat
  /-- `marginalize(Jt, j, NS, CS, Sigma, SigmaP, Omega)`. -/
  marginalize : J → Nat → Marginalization R
  /-- The linear solver's `getRank()`, `getTol()` and `getMemoryUsage()`. -/
  getRank : LinearSolverOptions R → J → Nat
  getTol : LinearSolverOptions R → J → R
  getMemoryUsage : LinearSolverOptions R → J → Nat

/-- The estimator's state: its problem, the marginalized group, the last information gain, the
cached spectral state, the structure its linear solver holds, and the lines it has written to
`std::cerr`. -/
structure IncrementalEstimator (R V : Type) where
  problem : IncrementalOptimizationProblem V
  margGroupId : Nat
  mi : R
  svLogSum : R
  options : Options R
  NS : MatrixXd R
  CS : MatrixXd R
  Sigma : MatrixXd R
  SigmaP : MatrixXd R
  Omega : MatrixXd R
  matrixStructure : MatrixStructure
  cerr : List String

/-- The message `orderMarginalizedDesignVariables` throws with. -/
def margGroupMissing : String :=
  "IncrementalEstimator::orderMarginalizedDesignVariables(): " ++
    "marginalized group ID should appear in the problem"

/-- The line `addBatch` writes when the rank goes down. -/
def rankWarning : String := "WARNING: RANK GOING DOWN!"

/-- `std::swap(*margGroupIt, groupsOrdering.back())` for the position `i` of `*margGroupIt`. -/
def swapWithBack (groups : List Nat) (i : Nat) : List Nat :=
  (groups.set i (groups.getLastD 0)).set (groups.length - 1) (groups.getD i 0)

namespace IncrementalEstimator

variable {R V J : Type} (B : Backend R V J)

/-- The constructor `IncrementalEstimator(groupId, options)`, over the values the design
variables have when it runs. -/
def init [LinearOrderedField R] (groupId : Nat) (options : Options R) (values : V) : IncrementalEstimator R V where
  problem := .empty values
  margGroupId := groupId
  mi := 0
  svLogSum := 0
  options := options
  NS := .empty
  CS := .empty
  Sigma := .empty
  SigmaP := .empty
  Omega := .empty
  matrixStructure := ⟨[], []⟩
  cerr := []

variable (e : IncrementalEstimator R V)

/-! ## Accessors -/

/-- `getJacobianTranspose()`. -/
def getJacobianTranspose : J :=
  B.jacobianTranspose e.problem.optimizationProblems e.problem.values

/-- The linear solver's options, as `initLinearSolver` sets them. -/
def linearSolverOptions : LinearSolverOptions R := ⟨e.options.colNorm, e.options.qrTol⟩

/-- The optimizer's options, as the constructor and `initLinearSolver` set them. -/
def optimizerOptions : OptimizerOptions := ⟨e.options.verbose, e.options.maxIterations⟩

/-- `getRank()`. -/
def getRank : Nat := B.getRank e.linearSolverOptions (e.getJacobianTranspose B)

/-- `getQRTol()`. -/
def getQRTol : R := B.getTol e.linearSolverOptions (e.getJacobianTranspose B)

/-- `getCholmodMemoryUsage()`. -/
def getCholmodMemoryUsage : Nat := B.getMemoryUsage e.linearSolverOptions (e.getJacobianTranspose B)

/-- `getMutualInformation()`. -/
def getMutualInformation : R := e.mi

/-- `getNumBatches()`. -/
def getNumBatches : Nat := e.problem.getNumOptimizationProblems

/-- The cached spectral state, read as one marginalization. -/
def cache : Marginalization R := ⟨e.svLogSum, e.NS, e.CS, e.Sigma, e.SigmaP, e.Omega⟩

/-- An estimator is its problem, its group, its gain, its options, its cache, its solver's
structure and the lines it wrote. -/
theorem ext_cache {x y : IncrementalEstimator R V} (hp : x.problem = y.problem)
    (hg : x.margGroupId = y.margGroupId) (hmi : x.mi = y.mi) (ho : x.options = y.options)
    (hc : x.cache = y.cache) (hs : x.matrixStructure = y.matrixStructure) (hl : x.cerr = y.cerr) :
    x = y := by
  cases x
  cases y
  simp only [cache, Marginalization.mk.injEq] at hc
  simp_all

/-- A call that only changes the problem leaves the cache. -/
@[simp] theorem cache_withProblem (p : IncrementalOptimizationProblem V) :
    ({ e with problem := p } : IncrementalEstimator R V).cache = e.cache := rfl

/-! ## Methods -/

/-- `orderMarginalizedDesignVariables()`: throw when the marginalized group is not in the
ordering, otherwise swap its first occurrence with the back unless the back already is it. -/
def orderMarginalizedDesignVariables : EStateM Exception (IncrementalEstimator R V) Unit :=
  fun e =>
    let groupsOrdering := e.problem.getGroupsOrdering
    let i := groupsOrdering.indexOf e.margGroupId
    if i = groupsOrdering.length then .error (.invalidOperation margGroupMissing) e
    else if e.margGroupId ≠ groupsOrdering.getLastD 0 then
      .ok () { e with problem := e.problem.setGroupsOrdering (swapWithBack groupsOrdering i) }
    else .ok () e

/-- `initLinearSolver()`: a fresh linear solver with the estimator's options, holding no
structure yet. -/
def initLinearSolver : IncrementalEstimator R V := { e with matrixStructure := ⟨[], []⟩ }

/-- `restoreLinearSolver()`: a fresh solver, then the structure of `layoutSystem` over the
problem's enumerations; `buildSystem` and `analyzeSystem` work on that structure.  The block
indices, column bases and row bases the loops also write into the problem's design variables and
error terms (lines 349-350, 360) are not kept. -/
def restoreLinearSolver : IncrementalEstimator R V :=
  let e := e.initLinearSolver
  { e with matrixStructure := (layoutSystem e.problem.designVariables e.problem.errorTerms).2 }

@[simp] theorem restoreLinearSolver_problem : e.restoreLinearSolver.problem = e.problem := rfl
@[simp] theorem restoreLinearSolver_cache : e.restoreLinearSolver.cache = e.cache := rfl
@[simp] theorem restoreLinearSolver_mi : e.restoreLinearSolver.mi = e.mi := rfl

/-- `optimize()`: `initLinearSolver()`, then `Optimizer2::optimize()`, which moves the design
variables.  `Optimizer2` is not in this repository: the model assumes that it lays the system out
for the current problem as `restoreLinearSolver` does, and leaves that structure in the solver. -/
def optimize : SolutionReturnValue R × IncrementalEstimator R V :=
  let e := e.initLinearSolver
  let (srv, values) := B.optimize e.optimizerOptions e.problem.optimizationProblems e.problem.values
  (srv, { e with problem := { e.problem with values := values },
                 matrixStructure := (layoutSystem e.problem.designVariables e.problem.errorTerms).2 })

@[simp] theorem optimize_fst :
    (e.optimize B).1 =
      (B.optimize e.optimizerOptions e.problem.optimizationProblems e.problem.values).1 := rfl
@[simp] theorem optimize_problem :
    (e.optimize B).2.problem = { e.problem with
      values := (B.optimize e.optimizerOptions e.problem.optimizationProblems e.problem.values).2 } :=
  rfl
@[simp] theorem optimize_cache : (e.optimize B).2.cache = e.cache := rfl
@[simp] theorem optimize_mi : (e.optimize B).2.mi = e.mi := rfl
@[simp] theorem optimize_options : (e.optimize B).2.options = e.options := rfl
@[simp] theorem optimize_margGroupId : (e.optimize B).2.margGroupId = e.margGroupId := rfl

/-- The marginalization every call runs after its solve (lines 151-154, 202-205, 282-285): the
current Jacobian transpose, split at `numCols - dim`.  Both are `size_t`, so the difference wraps
modulo `2^64` when the group's dimension exceeds `rows()`. -/
def marginalizeSystem : Marginalization R :=
  let dim := e.problem.getGroupDim e.margGroupId
  let numCols := B.rows (e.getJacobianTranspose B)
  B.marginalize (e.getJacobianTranspose B) (numCols.toUInt64 - dim.toUInt64).toNat

/-- The marginalization reads the batches, the values and the marginalized group, and nothing
else. -/
theorem marginalizeSystem_congr {e' : IncrementalEstimator R V}
    (hb : e'.problem.optimizationProblems = e.problem.optimizationProblems)
    (hv : e'.problem.values = e.problem.values) (hm : e'.margGroupId = e.margGroupId) :
    e'.marginalizeSystem B = e.marginalizeSystem B := by
  simp only [marginalizeSystem, getJacobianTranspose, IncrementalOptimizationProblem.getGroupDim,
    IncrementalOptimizationProblem.designVariablesOfGroup, hb, hv, hm]

/-- `_svLogSum = svLogSum; _NS = ret._NS; ...; _Omega = ret._Omega`: the cache takes one
marginalization whole. -/
def commit (m : Marginalization R) : IncrementalEstimator R V :=
  { e with svLogSum := m.svLogSum, NS := m.NS, CS := m.CS, Sigma := m.Sigma, SigmaP := m.SigmaP,
           Omega := m.Omega }

@[simp] theorem commit_cache (m : Marginalization R) : (e.commit m).cache = m := rfl
@[simp] theorem commit_problem (m : Marginalization R) : (e.commit m).problem = e.problem := rfl
@[simp] theorem commit_mi (m : Marginalization R) : (e.commit m).mi = e.mi := rfl
@[simp] theorem commit_options (m : Marginalization R) : (e.commit m).options = e.options := rfl
@[simp] theorem commit_margGroupId (m : Marginalization R) :
    (e.commit m).margGroupId = e.margGroupId := rfl
@[simp] theorem commit_matrixStructure (m : Marginalization R) :
    (e.commit m).matrixStructure = e.matrixStructure := rfl

/-- `reoptimize()`.  It refreshes `_svLogSum`, `_NS`, `_CS`, `_Sigma` and `_SigmaP`, and not
`_Omega`. -/
def reoptimize [LinearOrderedField R] : EStateM Exception (IncrementalEstimator R V) (ReturnValue R) := fun e =>
  match orderMarginalizedDesignVariables e with
  | .error x e => .error x e
  | .ok () e =>
    let (srv, e) := e.optimize B
    let m := e.marginalizeSystem B
    let e := { e with svLogSum := m.svLogSum, NS := m.NS, CS := m.CS, Sigma := m.Sigma,
                      SigmaP := m.SigmaP }
    .ok { batchAccepted := false, mi := 0, rank := e.getRank B, qrTol := e.getQRTol B,
          numIterations := srv.iterations, JStart := srv.JStart, JFinal := srv.JFinal,
          cholmodMemoryUsage := 0, NS := m.NS, CS := m.CS, Sigma := m.Sigma, SigmaP := m.SigmaP,
          Omega := m.Omega } e

/-- Lines 223-225 of `addBatch`: in verbose mode, a warning when the column space of the
marginalized group shrank. -/
def warnRankDown (m : Marginalization R) : IncrementalEstimator R V :=
  if m.CS.cols < e.CS.cols ∧ e.options.verbose then { e with cerr := e.cerr ++ [rankWarning] }
  else e

@[simp] theorem warnRankDown_problem (m : Marginalization R) :
    (e.warnRankDown m).problem = e.problem := by unfold warnRankDown; split_ifs <;> rfl
@[simp] theorem warnRankDown_cache (m : Marginalization R) :
    (e.warnRankDown m).cache = e.cache := by unfold warnRankDown; split_ifs <;> rfl
@[simp] theorem warnRankDown_mi (m : Marginalization R) :
    (e.warnRankDown m).mi = e.mi := by unfold warnRankDown; split_ifs <;> rfl
@[simp] theorem warnRankDown_svLogSum (m : Marginalization R) :
    (e.warnRankDown m).svLogSum = e.svLogSum := by unfold warnRankDown; split_ifs <;> rfl
@[simp] theorem warnRankDown_CS (m : Marginalization R) :
    (e.warnRankDown m).CS = e.CS := by unfold warnRankDown; split_ifs <;> rfl
@[simp] theorem warnRankDown_options (m : Marginalization R) :
    (e.warnRankDown m).options = e.options := by unfold warnRankDown; split_ifs <;> rfl
@[simp] theorem warnRankDown_margGroupId (m : Marginalization R) :
    (e.warnRankDown m).margGroupId = e.margGroupId := by unfold warnRankDown; split_ifs <;> rfl
@[simp] theorem warnRankDown_matrixStructure (m : Marginalization R) :
    (e.warnRankDown m).matrixStructure = e.matrixStructure := by unfold warnRankDown; split_ifs <;> rfl

/-- The warning is one line, written in verbose mode when the column space shrank. -/
theorem warnRankDown_cerr (m : Marginalization R) :
    (e.warnRankDown m).cerr =
      e.cerr ++ if m.CS.cols < e.CS.cols ∧ e.options.verbose then [rankWarning] else [] := by
  unfold warnRankDown
  split_ifs <;> simp

/-- Lines 207-239 of `addBatch`: the first-round test, the information gain, the rank warning
and the commit.  Returns `keepBatch`, `ret._mi` and the estimator. -/
def scoreBatch [LinearOrderedField R] (m : Marginalization R) (solutionValid : Bool) :
    Bool × R × IncrementalEstimator R V :=
  if e.svLogSum = 0 ∧ solutionValid then (true, 0, e.commit m)
  else
    let mi := 0.5 * (m.svLogSum - e.svLogSum)
    let e := e.warnRankDown m
    if (mi > e.options.miTol ∨ m.CS.cols > e.CS.cols) ∧ solutionValid then
      (true, mi, { e.commit m with mi := mi })
    else (false, mi, e)

/-- Lines 184-187 of `addBatch`: save the design variables, then solve with the batch in. -/
def solveTrial : SolutionReturnValue R × IncrementalEstimator R V :=
  ({ e with problem := e.problem.saveDesignVariables } : IncrementalEstimator R V).optimize B

/-- Lines 189-193: the solve is valid unless it hit the iteration cap or did not lower the
cost. -/
def solutionValid [LinearOrderedField R] (srv : SolutionReturnValue R) : Bool :=
  !(srv.iterations == e.optimizerOptions.maxIterations || decide (srv.JFinal ≥ srv.JStart))

/-- Lines 250-259 of `addBatch`: kick the batch out of the problem, restore the design variables
and restore the linear solver. -/
def undoBatch (batch : Batch) : IncrementalEstimator R V :=
  ({ e with problem := (e.problem.remove batch).restoreDesignVariables } :
    IncrementalEstimator R V).restoreLinearSolver

@[simp] theorem undoBatch_optimizationProblems (batch : Batch) :
    (e.undoBatch batch).problem.optimizationProblems = e.problem.optimizationProblems.erase batch :=
  rfl
@[simp] theorem undoBatch_values (batch : Batch) :
    (e.undoBatch batch).problem.values = e.problem.savedValues := rfl
@[simp] theorem undoBatch_cache (batch : Batch) : (e.undoBatch batch).cache = e.cache := rfl
@[simp] theorem undoBatch_mi (batch : Batch) : (e.undoBatch batch).mi = e.mi := rfl
@[simp] theorem undoBatch_margGroupId (batch : Batch) :
    (e.undoBatch batch).margGroupId = e.margGroupId := rfl
@[simp] theorem undoBatch_options (batch : Batch) : (e.undoBatch batch).options = e.options := rfl
@[simp] theorem undoBatch_savedValues (batch : Batch) :
    (e.undoBatch batch).problem.savedValues = e.problem.savedValues := rfl
@[simp] theorem undoBatch_cerr (batch : Batch) : (e.undoBatch batch).cerr = e.cerr := rfl
/-- The rejected batch's solver holds the layout of the problem it leaves. -/
theorem undoBatch_matrixStructure (batch : Batch) :
    (e.undoBatch batch).matrixStructure =
      (layoutSystem (e.undoBatch batch).problem.designVariables
        (e.undoBatch batch).problem.errorTerms).2 := rfl
@[simp] theorem undoBatch_groupsOrdering (batch : Batch) :
    (e.undoBatch batch).problem.groupsOrdering =
      e.problem.groupsOrdering.filter
        (IncrementalOptimizationProblem.declares (e.problem.optimizationProblems.erase batch)) := rfl

/-- Lines 184-268 of `addBatch`, once the batch is in and the groups are ordered. -/
def trialBatch [LinearOrderedField R] (batch : Batch) (force : Bool) : ReturnValue R × IncrementalEstimator R V :=
  let (srv, e) := e.solveTrial B
  let solutionValid := e.solutionValid srv
  let m := e.marginalizeSystem B
  let (keepBatch, mi, e) := e.scoreBatch m solutionValid
  let ret : ReturnValue R :=
    { batchAccepted := keepBatch || force, mi := mi, rank := e.getRank B, qrTol := e.getQRTol B,
      numIterations := srv.iterations, JStart := srv.JStart, JFinal := srv.JFinal,
      cholmodMemoryUsage := 0, NS := m.NS, CS := m.CS, Sigma := m.Sigma, SigmaP := m.SigmaP,
      Omega := m.Omega }
  let e := if !keepBatch && !force then e.undoBatch batch else e
  ({ ret with cholmodMemoryUsage := e.getCholmodMemoryUsage B }, e)

/-- Line 178 of `addBatch`: the estimator with the batch inserted into its problem. -/
def withBatch (batch : Batch) : IncrementalEstimator R V := { e with problem := e.problem.add batch }

@[simp] theorem withBatch_problem (batch : Batch) :
    (e.withBatch batch).problem = e.problem.add batch := rfl
@[simp] theorem withBatch_svLogSum (batch : Batch) : (e.withBatch batch).svLogSum = e.svLogSum := rfl
@[simp] theorem withBatch_CS (batch : Batch) : (e.withBatch batch).CS = e.CS := rfl
@[simp] theorem withBatch_cache (batch : Batch) : (e.withBatch batch).cache = e.cache := rfl
@[simp] theorem withBatch_mi (batch : Batch) : (e.withBatch batch).mi = e.mi := rfl
@[simp] theorem withBatch_options (batch : Batch) : (e.withBatch batch).options = e.options := rfl
@[simp] theorem withBatch_margGroupId (batch : Batch) :
    (e.withBatch batch).margGroupId = e.margGroupId := rfl

/-- `addBatch(batch, force)`. -/
def addBatch [LinearOrderedField R] (batch : Batch) (force : Bool) :
    EStateM Exception (IncrementalEstimator R V) (ReturnValue R) := fun e =>
  match orderMarginalizedDesignVariables (e.withBatch batch) with
  | .error x e => .error x e
  | .ok () e => let (ret, e) := e.trialBatch B batch force; .ok ret e

/-- `removeBatch(idx)`. -/
def removeBatchAt [LinearOrderedField R] (idx : Nat) : EStateM Exception (IncrementalEstimator R V) Unit := fun e =>
  match e.problem.removeAt idx with
  | .error x => .error x e
  | .ok p =>
    match orderMarginalizedDesignVariables { e with problem := p } with
    | .error x e => .error x e
    | .ok () e =>
      let (_, e) := e.optimize B
      let m := e.marginalizeSystem B
      .ok () { e.commit m with mi := m.svLogSum - e.svLogSum }

/-- `removeBatch(batch)`: remove the batch by its position, if it is there. -/
def removeBatch [LinearOrderedField R] (batch : Batch) : EStateM Exception (IncrementalEstimator R V) Unit := fun e =>
  match e.problem.getOptimizationProblem batch with
  | some idx => removeBatchAt B idx e
  | none => .ok () e

end IncrementalEstimator

end IncrementalCalibration
