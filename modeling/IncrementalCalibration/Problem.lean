import Mathlib

/-!
# The problem container behind the estimator

`IncrementalEstimator.cpp` owns an `IncrementalOptimizationProblem` and uses it through a
narrow interface: `add` and `remove` a batch, find a batch, read and write the groups
ordering, save and restore the design variables, the dimension of a group, and the
enumerations `designVariable(i)` and `errorTerm(i)` that `restoreLinearSolver` walks.  The
container's own source is not among the repository's files, so this module models it from the
interface the specification lists in its section 6, and nothing more.

Three choices carry the rest of the development.

* A batch is compared by identity, as the shared pointer is: `Batch` has an `id`, and two
  batches are the same exactly when they are equal records.
* The values of the design variables are an opaque `V`.  The estimator never looks inside
  them: they flow from the optimizer into the container, into the backup and back.
* A group id enters the ordering when the first variable of that group arrives, and leaves it
  when the last batch that declares it leaves.
-/

namespace IncrementalCalibration

/-- The exceptions that leave the estimator's calls. -/
inductive Exception where
  /-- `InvalidOperationException`, with its message. -/
  | invalidOperation (message : String)
  /-- The container's answer to an index past its last batch. -/
  | outOfBound (index : Nat)
  deriving DecidableEq, Repr

/-- A design variable, as a batch declares it: the object's identity, its group, whether the
optimizer moves it, its minimal dimension, and the place `restoreLinearSolver` gives it in the
linear system (`-1` until it has one). -/
structure DesignVariable where
  id : Nat
  groupId : Nat
  isActive : Bool
  minimalDimensions : Nat
  blockIndex : Int
  columnBase : Nat
  deriving DecidableEq, Repr

/-- An error term: its identity, its dimension and its first row in the linear system. -/
structure ErrorTerm where
  id : Nat
  dimension : Nat
  rowBase : Nat
  deriving DecidableEq, Repr

/-- A measurement batch (`OptimizationProblem`): the design variables it declares and the error
terms it contributes.  `id` is the identity of the shared pointer. -/
structure Batch where
  id : Nat
  designVariables : List DesignVariable
  errorTerms : List ErrorTerm
  deriving DecidableEq, Repr

/-- Modelled from the spec: `IncrementalOptimizationProblem`, the pool of batches (section 6,
"Pool/Problem container").  It keeps the batches in insertion order, the groups ordering, the
current values of the design variables and the copy `saveDesignVariables` took. -/
structure IncrementalOptimizationProblem (V : Type) where
  optimizationProblems : List Batch
  groupsOrdering : List Nat
  values : V
  savedValues : V

attribute [ext] IncrementalOptimizationProblem

namespace IncrementalOptimizationProblem

variable {V : Type} (p : IncrementalOptimizationProblem V)

/-- Modelled from the spec: a container that holds no batch yet, over the current values of the
design variables. -/
def empty (values : V) : IncrementalOptimizationProblem V := ⟨[], [], values, values⟩

/-- Modelled from the spec: the groups ordering once the variables of `b` are inserted one by
one; a group that no variable declared before is appended. -/
def insertGroups (groups : List Nat) (b : Batch) : List Nat :=
  b.designVariables.foldl (fun gs dv => if dv.groupId ∈ gs then gs else gs ++ [dv.groupId]) groups

/-- Modelled from the spec: `add(batch)`. -/
def add (b : Batch) : IncrementalOptimizationProblem V :=
  { p with optimizationProblems := p.optimizationProblems ++ [b],
           groupsOrdering := insertGroups p.groupsOrdering b }

/-- Whether some batch of `bs` declares a variable of group `g`. -/
def declares (bs : List Batch) (g : Nat) : Bool :=
  bs.any fun b => b.designVariables.any fun dv => dv.groupId == g

/-- Modelled from the spec: the container left with the batches `bs`; a group that none of them
declares leaves the ordering. -/
def withBatches (bs : List Batch) : IncrementalOptimizationProblem V :=
  { p with optimizationProblems := bs, groupsOrdering := p.groupsOrdering.filter (declares bs) }

/-- Modelled from the spec: `remove(batch)`, which drops the batch if it is there. -/
def remove (b : Batch) : IncrementalOptimizationProblem V :=
  p.withBatches (p.optimizationProblems.erase b)

/-- Modelled from the spec: `remove(idx)`, which refuses an index past the last batch. -/
def removeAt (idx : Nat) : Except Exception (IncrementalOptimizationProblem V) :=
  if idx < p.optimizationProblems.length then
    .ok (p.withBatches (p.optimizationProblems.eraseIdx idx))
  else .error (.outOfBound idx)

/-- Modelled from the spec: `getOptimizationProblem(batch)` followed by `std::distance` from
the first batch; `none` stands for the end iterator. -/
def getOptimizationProblem (b : Batch) : Option Nat :=
  if p.optimizationProblems.indexOf b < p.optimizationProblems.length then
    some (p.optimizationProblems.indexOf b)
  else none

/-- Modelled from the spec: `getNumOptimizationProblems()`. -/
def getNumOptimizationProblems : Nat := p.optimizationProblems.length

/-- Modelled from the spec: `getGroupsOrdering()`. -/
def getGroupsOrdering : List Nat := p.groupsOrdering

/-- Modelled from the spec: `setGroupsOrdering(groupsOrdering)`. -/
def setGroupsOrdering (groups : List Nat) : IncrementalOptimizationProblem V :=
  { p with groupsOrdering := groups }

/-- Modelled from the spec: `saveDesignVariables()`, a deep copy of every value. -/
def saveDesignVariables : IncrementalOptimizationProblem V := { p with savedValues := p.values }

/-- Modelled from the spec: `restoreDesignVariables()`, which writes the copy back. -/
def restoreDesignVariables : IncrementalOptimizationProblem V := { p with values := p.savedValues }

/-- Modelled from the spec: the distinct design variables of group `g`, in the order the
batches bring them. -/
def designVariablesOfGroup (g : Nat) : List DesignVariable :=
  ((p.optimizationProblems.flatMap (·.designVariables)).filter (·.groupId == g)).foldl
    (fun dvs dv => if dvs.any (·.id == dv.id) then dvs else dvs ++ [dv]) []

/-- Modelled from the spec: `designVariable(i)` for `i < numDesignVariables()`, group after
group in the groups ordering. -/
def designVariables : List DesignVariable := p.groupsOrdering.flatMap p.designVariablesOfGroup

/-- Modelled from the spec: `errorTerm(i)` for `i < numErrorTerms()`, batch after batch. -/
def errorTerms : List ErrorTerm := p.optimizationProblems.flatMap (·.errorTerms)

/-- Modelled from the spec: `getGroupDim(groupId)`, the summed minimal dimensions of the group's
variables. -/
def getGroupDim (g : Nat) : Nat := ((p.designVariablesOfGroup g).map (·.minimalDimensions)).sum

/-! ## Field lemmas -/

@[simp] theorem add_optimizationProblems (b : Batch) :
    (p.add b).optimizationProblems = p.optimizationProblems ++ [b] := rfl
@[simp] theorem add_values (b : Batch) : (p.add b).values = p.values := rfl
@[simp] theorem withBatches_optimizationProblems (bs : List Batch) :
    (p.withBatches bs).optimizationProblems = bs := rfl
@[simp] theorem add_groupsOrdering (b : Batch) :
    (p.add b).groupsOrdering = insertGroups p.groupsOrdering b := rfl
@[simp] theorem withBatches_groupsOrdering (bs : List Batch) :
    (p.withBatches bs).groupsOrdering = p.groupsOrdering.filter (declares bs) := rfl
@[simp] theorem withBatches_values (bs : List Batch) : (p.withBatches bs).values = p.values := rfl
@[simp] theorem withBatches_savedValues (bs : List Batch) :
    (p.withBatches bs).savedValues = p.savedValues := rfl
@[simp] theorem setGroupsOrdering_optimizationProblems (gs : List Nat) :
    (p.setGroupsOrdering gs).optimizationProblems = p.optimizationProblems := rfl
@[simp] theorem setGroupsOrdering_groupsOrdering (gs : List Nat) :
    (p.setGroupsOrdering gs).groupsOrdering = gs := rfl
@[simp] theorem setGroupsOrdering_values (gs : List Nat) :
    (p.setGroupsOrdering gs).values = p.values := rfl
@[simp] theorem saveDesignVariables_optimizationProblems :
    p.saveDesignVariables.optimizationProblems = p.optimizationProblems := rfl
@[simp] theorem saveDesignVariables_values : p.saveDesignVariables.values = p.values := rfl
@[simp] theorem saveDesignVariables_savedValues :
    p.saveDesignVariables.savedValues = p.values := rfl
@[simp] theorem restoreDesignVariables_optimizationProblems :
    p.restoreDesignVariables.optimizationProblems = p.optimizationProblems := rfl
@[simp] theorem restoreDesignVariables_values :
    p.restoreDesignVariables.values = p.savedValues := rfl
@[simp] theorem restoreDesignVariables_groupsOrdering :
    p.restoreDesignVariables.groupsOrdering = p.groupsOrdering := rfl
@[simp] theorem saveDesignVariables_groupsOrdering :
    p.saveDesignVariables.groupsOrdering = p.groupsOrdering := rfl

/-! ## The groups ordering -/

/-- A group is in the ordering after `add` when it was before or the batch declares it. -/
theorem mem_insertGroups {L : List Nat} {b : Batch} {g : Nat} :
    g ∈ insertGroups L b ↔ g ∈ L ∨ b.designVariables.any (·.groupId == g) = true := by
  unfold insertGroups
  induction b.designVariables generalizing L with
  | nil => simp
  | cons dv dvs ih =>
    rw [List.foldl_cons, ih]
    by_cases hg : dv.groupId = g
    · subst hg
      split_ifs with h <;> simp [h]
    · split_ifs <;> simp [hg, Ne.symm hg]

/-- `add` appends only the groups that are not in the ordering yet. -/
theorem nodup_insertGroups {L : List Nat} (b : Batch) (h : L.Nodup) : (insertGroups L b).Nodup := by
  unfold insertGroups
  induction b.designVariables generalizing L with
  | nil => exact h
  | cons dv dvs ih =>
    rw [List.foldl_cons]
    apply ih
    split_ifs with hmem
    · exact h
    · exact h.append (List.nodup_singleton _) (List.disjoint_singleton.mpr hmem)

theorem declares_append (bs : List Batch) (b : Batch) (g : Nat) :
    declares (bs ++ [b]) g = (declares bs g || b.designVariables.any (·.groupId == g)) := by
  simp [declares]

/-- Inserting a batch appends the groups it brings that the ordering does not hold yet. -/
theorem insertGroups_eq_append (L : List Nat) (b : Batch) :
    ∃ N, insertGroups L b = L ++ N ∧ ∀ g ∈ N, g ∉ L := by
  unfold insertGroups
  induction b.designVariables generalizing L with
  | nil => exact ⟨[], by simp, by simp⟩
  | cons dv rest ih =>
    rw [List.foldl_cons]
    split_ifs with hg
    · exact ih L
    · obtain ⟨N, hN, hnot⟩ := ih (L ++ [dv.groupId])
      refine ⟨dv.groupId :: N, by simp [hN], ?_⟩
      simp only [List.mem_cons, forall_eq_or_imp]
      exact ⟨hg, fun g hgN hgL => hnot g hgN (List.mem_append_left _ hgL)⟩

/-- Batches that are a subset of others declare fewer groups. -/
theorem declares_of_subset {bs bs' : List Batch} (h : bs' ⊆ bs) {g : Nat}
    (hg : declares bs' g = true) : declares bs g = true := by
  simp only [declares, List.any_eq_true] at hg ⊢
  obtain ⟨b, hb, hdv⟩ := hg
  exact ⟨b, h hb, hdv⟩

/-- An ordering of exactly the groups some batches declare, filtered by what a subset of them
declares, lists exactly the groups of the subset: what the container does on removal. -/
theorem mem_filter_declares {L : List Nat} {bs bs' : List Batch}
    (hL : ∀ g, g ∈ L ↔ declares bs g = true) (h : bs' ⊆ bs) (g : Nat) :
    g ∈ L.filter (declares bs') ↔ declares bs' g = true := by
  rw [List.mem_filter, hL]
  exact and_iff_right_of_imp (declares_of_subset h)

/-- Which groups the batches declare does not depend on their order. -/
theorem declares_perm {bs bs' : List Batch} (h : bs.Perm bs') (g : Nat) :
    declares bs g = declares bs' g := by
  unfold declares
  rw [Bool.eq_iff_iff, List.any_eq_true, List.any_eq_true]
  exact exists_congr fun _ => and_congr_left' h.mem_iff

/-! ## Finding and removing a batch -/

/-- An index inside the batch list removes exactly that batch. -/
theorem removeAt_of_lt {idx : Nat} (h : idx < p.optimizationProblems.length) :
    p.removeAt idx = .ok (p.withBatches (p.optimizationProblems.eraseIdx idx)) := if_pos h

/-- An index past the batch list is refused, and nothing is removed. -/
theorem removeAt_of_le {idx : Nat} (h : p.optimizationProblems.length ≤ idx) :
    p.removeAt idx = .error (.outOfBound idx) := if_neg (Nat.not_lt.mpr h)

/-- The position `getOptimizationProblem` finds is that of the batch, so removing it by index
is removing the batch. -/
theorem eraseIdx_getOptimizationProblem {b : Batch} {idx : Nat}
    (h : p.getOptimizationProblem b = some idx) :
    idx < p.optimizationProblems.length ∧
      p.optimizationProblems.eraseIdx idx = p.optimizationProblems.erase b := by
  unfold getOptimizationProblem at h
  split at h
  · cases h
    exact ⟨‹_›, List.eraseIdx_indexOf_eq_erase _ _⟩
  · cases h

/-- `getOptimizationProblem` finds a batch that is there at its first position. -/
theorem getOptimizationProblem_eq_some {b : Batch} {idx : Nat}
    (h : p.getOptimizationProblem b = some idx) :
    b ∈ p.optimizationProblems ∧ idx = p.optimizationProblems.indexOf b := by
  unfold getOptimizationProblem at h
  split at h
  · cases h
    exact ⟨List.indexOf_lt_length.mp ‹_›, rfl⟩
  · cases h

/-- `getOptimizationProblem` misses exactly the batches that are not there. -/
theorem getOptimizationProblem_eq_none {b : Batch} :
    p.getOptimizationProblem b = none ↔ b ∉ p.optimizationProblems := by
  simp [getOptimizationProblem, List.indexOf_lt_length]

end IncrementalOptimizationProblem

end IncrementalCalibration
