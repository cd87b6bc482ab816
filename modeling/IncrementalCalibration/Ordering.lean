import IncrementalCalibration.Calls

/-!
# `orderMarginalizedDesignVariables` puts the marginalized group last

`marginalize` splits the Jacobian at `rows()` less the dimension of the marginalized group, where
that group's columns are meant to start, so every call first moves that group to the back of the
groups ordering (`IncrementalEstimator.cpp`, lines 301-315): `std::find` its first occurrence, and
`std::swap` it with the back unless the back already holds it.

The swap is the whole argument.  `getElem?_swapWithBack` says what it does position by position,
and the rest follows: it is a permutation (`swapWithBack_perm`, by counting occurrences), the
back becomes the marginalized group, and nothing else moves.  A second call then finds the group
at the back and changes nothing.
-/

namespace IncrementalCalibration

/-! ## 1. The swap with the back -/

section Swap

variable {L : List Nat} {i : Nat}

/-- `swapWithBack` at a position inside the list, its defaults read off. -/
theorem swapWithBack_eq (hi : i < L.length) :
    swapWithBack L i = (L.set i L[L.length - 1]).set (L.length - 1) L[i] := by
  rw [swapWithBack, List.getD_eq_getElem _ _ hi, List.getLastD_eq_getLast?, List.getLast?_eq_getElem?,
    List.getElem?_eq_getElem (by omega)]
  rfl

@[simp] theorem length_swapWithBack : (swapWithBack L i).length = L.length := by
  simp [swapWithBack]

/-- **The swap, position by position**: the back takes the value at `i`, position `i` takes the
back, every other position keeps its value. -/
theorem getElem?_swapWithBack (hi : i < L.length) (j : Nat) :
    (swapWithBack L i)[j]? =
      if j = L.length - 1 then L[i]? else if j = i then L[L.length - 1]? else L[j]? := by
  have hL : L ≠ [] := List.ne_nil_of_length_pos (Nat.zero_lt_of_lt hi)
  rw [swapWithBack_eq hi, List.getElem?_set, List.getElem?_set, List.length_set]
  by_cases hj : j = L.length - 1
  · subst hj
    simp [List.getElem?_eq_getElem hi, hL]
  · by_cases hji : j = i
    · subst hji
      simp [hj, Ne.symm hj, hi, hL]
    · simp [Ne.symm hj, Ne.symm hji, hj, hji]

/-- The swap moves the value at `i` to the back. -/
theorem getLast?_swapWithBack (hi : i < L.length) : (swapWithBack L i).getLast? = L[i]? := by
  rw [List.getLast?_eq_getElem?, length_swapWithBack, getElem?_swapWithBack hi, if_pos rfl]

/-- **The swap is a permutation**, by counting: it removes one copy of `L[i]` and one of the
back, and puts each back once. -/
theorem swapWithBack_perm (hi : i < L.length) : (swapWithBack L i).Perm L := by
  rw [List.perm_iff_count]
  intro b
  have hle : (if L[i] == b then 1 else 0) ≤ L.count b := by
    rw [List.count_eq_countP]
    exact List.boole_getElem_le_countP (· == b) L i hi
  rw [swapWithBack_eq hi, List.count_set _ _ _ _ (by rw [List.length_set]; omega),
    List.getElem_set, ite_self, List.count_set _ _ _ _ hi]
  split_ifs at hle ⊢ <;> omega

/-- A nonempty list whose back, read with a default, is `m` ends with `m`. -/
theorem getLast?_of_getLastD {m : Nat} (hL : L ≠ []) (h : m = L.getLastD 0) :
    L.getLast? = some m := by
  rw [h, List.getLastD_eq_getLast?]
  cases hl : L.getLast? with
  | none => exact absurd (List.getLast?_eq_none_iff.mp hl) hL
  | some a => rfl

/-- The swap of a value with the back, in a list cut around the two. -/
theorem swapWithBack_append (A B : List Nat) (x y : Nat) :
    swapWithBack (A ++ x :: (B ++ [y])) A.length = A ++ y :: (B ++ [x]) := by
  have hL : A ++ x :: (B ++ [y]) = (A ++ x :: B) ++ [y] := by simp
  rw [swapWithBack, hL, List.getLastD_concat, ← hL]
  simp [List.set_append, List.getD_eq_getElem?_getD, List.getElem_append_right]

/-- **Dropping the new groups undoes the ordering step.**  An ordering `L₀ ++ [m]` that ends
with the marginalized group `m`, extended by groups `N` it does not hold, then moved so that `m`
is last, then filtered down to its old groups, is `L₀ ++ [m]` again: the step either changes
nothing, or exchanges `m` with the last new group. -/
theorem filter_moveLast_append {L₀ N : List Nat} {m : Nat} {p : Nat → Bool} (hm : m ∉ L₀)
    (hN : ∀ g ∈ N, g ∉ L₀ ++ [m]) (hp : ∀ g, p g = true ↔ g ∈ L₀ ++ [m]) :
    (if m = (L₀ ++ m :: N).getLastD 0 then L₀ ++ m :: N
      else swapWithBack (L₀ ++ m :: N) ((L₀ ++ m :: N).indexOf m)).filter p = L₀ ++ [m] := by
  have hold : ∀ g ∈ L₀ ++ [m], p g = true := fun g hg => (hp g).mpr hg
  have hnew : ∀ g ∈ N, p g = false :=
    fun g hg => Bool.eq_false_iff.mpr fun h => hN g hg ((hp g).mp h)
  rcases List.eq_nil_or_concat N with rfl | ⟨N₀, n, rfl⟩
  · -- no new group: the step changes nothing
    rw [if_pos (List.getLastD_concat _ _ _).symm]
    exact List.filter_eq_self.mpr hold
  · -- `m` changes place with the last new group `n`
    rw [List.concat_eq_append] at hN hnew ⊢
    have hnm : n ≠ m := fun h => hN n (by simp) (by simp [h])
    rw [← List.cons_append, ← List.append_assoc, List.getLastD_concat, if_neg (Ne.symm hnm),
      List.append_assoc, List.cons_append, List.indexOf_append_of_not_mem hm,
      List.indexOf_cons_self, Nat.add_zero, swapWithBack_append, List.filter_append,
      List.filter_eq_self.mpr fun g hg => hold g (List.mem_append_left _ hg),
      List.filter_cons_of_neg (by simp [hnew n (by simp)]), List.filter_append,
      List.filter_eq_nil_iff.mpr fun g hg => by simp [hnew g (by simp [hg])],
      List.filter_singleton, hold m (by simp)]
    rfl

end Swap

/-! ## 2. The ordering step -/

namespace IncrementalEstimator

variable {R V : Type} (e : IncrementalEstimator R V)

/-- With the marginalized group already at the back, the ordering step changes nothing. -/
theorem orderMarginalizedDesignVariables_of_getLast
    (h : e.problem.groupsOrdering.getLast? = some e.margGroupId) :
    orderMarginalizedDesignVariables e = .ok () e := by
  have hmem : e.margGroupId ∈ e.problem.groupsOrdering := List.mem_of_getLast?_eq_some h
  have hback : e.problem.groupsOrdering.getLastD 0 = e.margGroupId := by
    rw [List.getLastD_eq_getLast?, h]
    rfl
  simp only [orderMarginalizedDesignVariables, IncrementalOptimizationProblem.getGroupsOrdering,
    hback, ne_eq, not_true_eq_false, if_false]
  rw [if_neg (mt List.indexOf_eq_length.mp (not_not.mpr hmem))]

/-- **What the ordering step does** when it returns: only the ordering changes, to a permutation
of itself that ends with the marginalized group. -/
theorem orderMarginalizedDesignVariables_groups {e e' : IncrementalEstimator R V} {u : Unit}
    (h : orderMarginalizedDesignVariables e = .ok u e') :
    e' = { e with problem := e.problem.setGroupsOrdering e'.problem.groupsOrdering } ∧
    e'.problem.groupsOrdering.Perm e.problem.groupsOrdering ∧
    e'.problem.groupsOrdering.getLast? = some e.margGroupId := by
  have hmem := (orderMarginalizedDesignVariables_eq_ok h).1
  have hi := List.indexOf_lt_length.mpr hmem
  simp only [orderMarginalizedDesignVariables, IncrementalOptimizationProblem.getGroupsOrdering,
    if_neg (Nat.ne_of_lt hi)] at h
  split_ifs at h with hback
  · cases h
    refine ⟨rfl, swapWithBack_perm hi, ?_⟩
    rw [IncrementalOptimizationProblem.setGroupsOrdering_groupsOrdering, getLast?_swapWithBack hi,
      List.getElem?_eq_getElem hi]
    exact congrArg some (List.indexOf_get hi)
  · cases h
    exact ⟨rfl, .refl _, getLast?_of_getLastD (List.ne_nil_of_mem hmem) (not_not.mp hback)⟩

/-- The ordering the step leaves: the same when the marginalized group is at the back, and
otherwise the swap of its first occurrence with the back. -/
theorem orderMarginalizedDesignVariables_ordering {e e' : IncrementalEstimator R V} {u : Unit}
    (h : orderMarginalizedDesignVariables e = .ok u e') :
    e'.problem.groupsOrdering =
      if e.margGroupId = e.problem.groupsOrdering.getLastD 0 then e.problem.groupsOrdering
      else swapWithBack e.problem.groupsOrdering
        (e.problem.groupsOrdering.indexOf e.margGroupId) := by
  have hi := List.indexOf_lt_length.mpr (orderMarginalizedDesignVariables_eq_ok h).1
  simp only [orderMarginalizedDesignVariables, IncrementalOptimizationProblem.getGroupsOrdering,
    if_neg (Nat.ne_of_lt hi)] at h
  split_ifs at h with hback <;> cases h
  · exact (if_neg hback).symm
  · exact (if_pos (not_not.mp hback)).symm

/-- **`orderMarginalizedDesignVariables` moves the marginalized group last.**  For every groups
ordering `L`, repeats allowed: without the marginalized group the step throws
`InvalidOperationException` and changes nothing; with it, the new ordering is a permutation of
`L` that ends with the group, agrees with `L` except at the group's first position and the last
one, is `L` itself when `L` already ends with the group, and a second step leaves it as it is. -/
theorem orderMarginalizedDesignVariables_moves_group_last :
    (e.margGroupId ∉ e.problem.groupsOrdering →
      orderMarginalizedDesignVariables e = .error (.invalidOperation margGroupMissing) e) ∧
    (e.margGroupId ∈ e.problem.groupsOrdering → ∃ L' : List Nat,
      orderMarginalizedDesignVariables e = .ok () { e with problem := e.problem.setGroupsOrdering L' } ∧
      L'.Perm e.problem.groupsOrdering ∧ L'.getLast? = some e.margGroupId ∧
      (∀ j, j ≠ e.problem.groupsOrdering.indexOf e.margGroupId →
        j ≠ e.problem.groupsOrdering.length - 1 → L'[j]? = e.problem.groupsOrdering[j]?) ∧
      (e.problem.groupsOrdering.getLast? = some e.margGroupId → L' = e.problem.groupsOrdering) ∧
      orderMarginalizedDesignVariables { e with problem := e.problem.setGroupsOrdering L' } =
        .ok () { e with problem := e.problem.setGroupsOrdering L' }) := by
  set L := e.problem.groupsOrdering with hL
  set m := e.margGroupId with hm
  refine ⟨orderMarginalizedDesignVariables_of_not_mem, fun hmem => ?_⟩
  have hi : L.indexOf m < L.length := List.indexOf_lt_length.mpr hmem
  have hget : L[L.indexOf m] = m := List.indexOf_get hi
  by_cases hback : m = L.getLastD 0
  · -- the group is already last: nothing moves
    have hlast : L.getLast? = some m := getLast?_of_getLastD (List.ne_nil_of_mem hmem) hback
    refine ⟨L, orderMarginalizedDesignVariables_of_getLast e hlast, List.Perm.refl L, hlast,
      fun _ _ _ => rfl, fun _ => rfl, orderMarginalizedDesignVariables_of_getLast e hlast⟩
  · -- the swap
    have hlast : (swapWithBack L (L.indexOf m)).getLast? = some m := by
      rw [getLast?_swapWithBack hi, List.getElem?_eq_getElem hi, hget]
    refine ⟨swapWithBack L (L.indexOf m), ?_, swapWithBack_perm hi, hlast, fun j hj hj' => ?_,
      fun h => absurd (by rw [List.getLastD_eq_getLast?, h]; rfl) hback,
      orderMarginalizedDesignVariables_of_getLast _ hlast⟩
    · simp only [orderMarginalizedDesignVariables, IncrementalOptimizationProblem.getGroupsOrdering]
      rw [if_neg (Nat.ne_of_lt hi), if_pos hback]
    · rw [getElem?_swapWithBack hi, if_neg hj', if_neg hj]

end IncrementalEstimator

end IncrementalCalibration
