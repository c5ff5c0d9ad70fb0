/-
HeteroSched/Lib/Balance.lean

Greedy balancing of unit loads over places of different capacities.

Design.  Every place has a load and a positive capacity, and one unit after the
other goes to a place whose load is smallest in proportion to its capacity.  The
invariant (`Balanced`) compares a place without its last unit to every other
place: before that unit arrived, it was no fuller than they are now.  Summed
over all places this bounds each load by its share of the total and one unit
more (`Balanced.load_le`).
-/
import Mathlib.Algebra.BigOperators.Field
import Mathlib.Algebra.Order.BigOperators.Group.Finset
import Mathlib.Tactic

namespace Balance

variable {ι K : Type*} [Field K] [LinearOrder K] [IsStrictOrderedRing K]

/-- No place that holds a unit was fuller, before its last unit, than any place is. -/
def Balanced (places : Finset ι) (capacity load : ι → K) : Prop :=
  ∀ i ∈ places, ∀ j ∈ places, 1 ≤ load i → (load i - 1) / capacity i ≤ load j / capacity j

variable {places : Finset ι} {capacity load : ι → K}

/-- Without a unit anywhere there is nothing to compare. -/
theorem balanced_zero (h : ∀ i ∈ places, load i = 0) : Balanced places capacity load := by
  intro i hi j _ hone
  rw [h i hi] at hone
  exact absurd hone (not_le.mpr one_pos)

/-- A unit on a place that is least full keeps the balance. -/
theorem Balanced.place [DecidableEq ι] (h : Balanced places capacity load)
    (hcapacity : ∀ i ∈ places, 0 < capacity i) {m : ι}
    (hleast : ∀ j ∈ places, load m / capacity m ≤ load j / capacity j) :
    Balanced places capacity (Function.update load m (load m + 1)) := by
  -- no place gets less full
  have hgrow : ∀ j ∈ places,
      load j / capacity j ≤ Function.update load m (load m + 1) j / capacity j := by
    intro j hj
    refine div_le_div_of_nonneg_right ?_ (hcapacity j hj).le
    rw [Function.update_apply]
    split
    · next heq =>
        subst heq
        exact le_add_of_nonneg_right zero_le_one
    · exact le_rfl
  intro i hi j hj hone
  refine le_trans ?_ (hgrow j hj)
  by_cases him : i = m
  · subst him
    rw [Function.update_self, add_sub_cancel_right]
    exact hleast j hj
  · rw [Function.update_of_ne him] at hone ⊢
    exact h i hi j hj hone

/-- Every load is at most its share of the total, and one unit more. -/
theorem Balanced.load_le (h : Balanced places capacity load)
    (hcapacity : ∀ i ∈ places, 0 < capacity i) (hload : ∀ i ∈ places, 0 ≤ load i)
    {i : ι} (hi : i ∈ places) :
    load i ≤ (∑ j ∈ places, load j) * capacity i / (∑ j ∈ places, capacity j) + 1 := by
  have htotal : 0 < ∑ j ∈ places, capacity j := Finset.sum_pos hcapacity ⟨i, hi⟩
  have hshare : 0 ≤ (∑ j ∈ places, load j) * capacity i / ∑ j ∈ places, capacity j :=
    div_nonneg (mul_nonneg (Finset.sum_nonneg hload) (hcapacity i hi).le) htotal.le
  by_cases hone : 1 ≤ load i
  · -- the comparison with every place, added up
    have hsum : ∑ j ∈ places, (load i - 1) * capacity j ≤ ∑ j ∈ places, load j * capacity i := by
      refine Finset.sum_le_sum fun j hj => ?_
      exact (div_le_div_iff₀ (hcapacity i hi) (hcapacity j hj)).mp (h i hi j hj hone)
    rw [← Finset.mul_sum, ← Finset.sum_mul] at hsum
    have hle := (le_div_iff₀ htotal).mpr hsum
    linarith
  · have hlt := not_le.mp hone
    linarith

end Balance
