/-
HeteroSched/Lib/Evenness.lean

How even the entries of a list are: the square of their sum against the sum of
their squares.

Design.  Two gaps are followed along the list.  A new entry `v` moves the gap
between `n` times the squares and the squared sum by the squared distances of the
other entries to `v` (`shortfall_cons`), and the gap between the squared sum and
the squares by twice `v` times their sum (`excess_cons`).  So neither is negative,
the first is zero for equal entries only, the second where at most one entry is
not zero.  The index of evenness is the squared sum over `n` times the squares;
its range and its two extremes are read off the gaps.
-/
import Mathlib.Algebra.Order.BigOperators.Group.List
import Mathlib.Data.List.Pairwise
import Mathlib.Tactic

namespace Evenness

/-! ### The two gaps -/

section Ring

variable {K : Type*} [CommRing K]

/-- The sum of the squares. -/
def squares (l : List K) : K := (l.map fun v => v * v).sum

/-- By how much the squared sum falls short of the length times the squares. -/
def shortfall (l : List K) : K := l.length * squares l - l.sum * l.sum

/-- By how much the squared sum exceeds the squares. -/
def excess (l : List K) : K := l.sum * l.sum - squares l

theorem squares_cons (v : K) (l : List K) : squares (v :: l) = v * v + squares l := by
  rw [squares, List.map_cons, List.sum_cons, squares]

/-- The squared distances of the entries to `v`. -/
theorem sum_sq_sub (v : K) (l : List K) :
    (l.map fun w => (w - v) ^ 2).sum = squares l - 2 * v * l.sum + l.length * (v * v) := by
  induction l with
  | nil => simp [squares]
  | cons w l ih =>
      rw [List.map_cons, List.sum_cons, ih, squares_cons, List.sum_cons, List.length_cons]
      push_cast
      ring

theorem shortfall_cons (v : K) (l : List K) :
    shortfall (v :: l) = shortfall l + (l.map fun w => (w - v) ^ 2).sum := by
  rw [shortfall, shortfall, sum_sq_sub, squares_cons, List.sum_cons, List.length_cons]
  push_cast
  ring

theorem excess_cons (v : K) (l : List K) : excess (v :: l) = excess l + 2 * (v * l.sum) := by
  rw [excess, excess, squares_cons, List.sum_cons]
  ring

end Ring

section Ordered

variable {K : Type*} [CommRing K] [LinearOrder K] [IsStrictOrderedRing K] {l : List K}

theorem sum_sq_sub_nonneg (v : K) (l : List K) : 0 ≤ (l.map fun w => (w - v) ^ 2).sum := by
  refine List.sum_nonneg fun d hd => ?_
  obtain ⟨w, -, rfl⟩ := List.mem_map.mp hd
  exact sq_nonneg _

theorem sum_sq_sub_eq_zero_iff (v : K) (l : List K) :
    (l.map fun w => (w - v) ^ 2).sum = 0 ↔ ∀ w ∈ l, w = v := by
  induction l with
  | nil => simp
  | cons w l ih =>
      rw [List.map_cons, List.sum_cons, List.forall_mem_cons,
        add_eq_zero_iff_of_nonneg (sq_nonneg _) (sum_sq_sub_nonneg v l), ih, sq_eq_zero_iff,
        sub_eq_zero]

/-- The squared sum is at most the length times the squares. -/
theorem shortfall_nonneg (l : List K) : 0 ≤ shortfall l := by
  induction l with
  | nil => simp [shortfall, squares]
  | cons v l ih =>
      rw [shortfall_cons]
      exact add_nonneg ih (sum_sq_sub_nonneg v l)

theorem shortfall_eq_zero_iff_pairwise (l : List K) :
    shortfall l = 0 ↔ l.Pairwise (· = ·) := by
  induction l with
  | nil => simp [shortfall, squares]
  | cons v l ih =>
      rw [shortfall_cons, add_eq_zero_iff_of_nonneg (shortfall_nonneg l) (sum_sq_sub_nonneg v l),
        ih, sum_sq_sub_eq_zero_iff, List.pairwise_cons, and_comm]
      exact and_congr_left fun _ => forall₂_congr fun _ _ => eq_comm

/-- It falls short by nothing where all entries are equal. -/
theorem shortfall_eq_zero_iff : shortfall l = 0 ↔ ∀ v ∈ l, ∀ w ∈ l, v = w := by
  rw [shortfall_eq_zero_iff_pairwise]
  constructor
  · intro h v hv w hw
    exact List.Pairwise.forall_of_forall (fun _ _ => rfl) h hv hw
  · exact fun h => List.pairwise_of_forall_mem_list h

theorem sum_eq_zero_iff (h : ∀ v ∈ l, 0 ≤ v) : l.sum = 0 ↔ ∀ v ∈ l, v = 0 := by
  induction l with
  | nil => simp
  | cons v l ih =>
      obtain ⟨hv, hl⟩ := List.forall_mem_cons.mp h
      rw [List.sum_cons, add_eq_zero_iff_of_nonneg hv (List.sum_nonneg hl), ih hl,
        List.forall_mem_cons]

/-- The squares are at most the squared sum. -/
theorem excess_nonneg (h : ∀ v ∈ l, 0 ≤ v) : 0 ≤ excess l := by
  induction l with
  | nil => simp [excess, squares]
  | cons v l ih =>
      obtain ⟨hv, hl⟩ := List.forall_mem_cons.mp h
      rw [excess_cons]
      exact add_nonneg (ih hl) (mul_nonneg zero_le_two (mul_nonneg hv (List.sum_nonneg hl)))

/-- They are the squared sum where at most one entry is not zero. -/
theorem excess_eq_zero_iff (h : ∀ v ∈ l, 0 ≤ v) : excess l = 0 ↔ l.countP (· ≠ 0) ≤ 1 := by
  induction l with
  | nil => simp [excess, squares]
  | cons v l ih =>
      obtain ⟨hv, hl⟩ := List.forall_mem_cons.mp h
      have hcross : 0 ≤ v * l.sum := mul_nonneg hv (List.sum_nonneg hl)
      rw [excess_cons, add_eq_zero_iff_of_nonneg (excess_nonneg hl) (mul_nonneg zero_le_two hcross),
        ih hl, mul_eq_zero, or_iff_right two_ne_zero, mul_eq_zero, sum_eq_zero_iff hl,
        List.countP_cons]
      by_cases hzero : v = 0
      · simp [hzero]
      · -- the others must all be zero
        have hnone : l.countP (· ≠ 0) = 0 ↔ ∀ w ∈ l, w = 0 := by
          rw [List.countP_eq_zero]
          simp
        rw [or_iff_right hzero, ← hnone, if_pos (by simpa using hzero)]
        omega

theorem squares_eq_zero_iff : squares l = 0 ↔ ∀ v ∈ l, v = 0 := by
  have hzero := sum_sq_sub_eq_zero_iff 0 l
  simp only [sub_zero, sq] at hzero
  exact hzero

theorem squares_nonneg (l : List K) : 0 ≤ squares l := by
  have hzero := sum_sq_sub_nonneg 0 l
  simp only [sub_zero, sq] at hzero
  exact hzero

end Ordered

/-! ### The index -/

section Index

variable {K : Type*} [Field K]

/-- The index of evenness. -/
def index (l : List K) : K := l.sum * l.sum / (l.length * squares l)

theorem index_perm {l l' : List K} (h : l.Perm l') : index l = index l' := by
  rw [index, index, squares, squares, h.sum_eq, h.length_eq, (h.map _).sum_eq]

/-- The index does not depend on the unit of the entries. -/
theorem index_smul {c : K} (hc : c ≠ 0) (l : List K) : index (l.map fun v => c * v) = index l := by
  have hsum : (l.map fun v => c * v).sum = c * l.sum := by
    rw [List.sum_map_mul_left, List.map_id']
  have hsquares : squares (l.map fun v => c * v) = c * c * squares l := by
    rw [squares, squares, List.map_map, ← List.sum_map_mul_left]
    congr 2
    funext v
    exact mul_mul_mul_comm c v c v
  rw [index, index, hsum, hsquares, List.length_map, mul_mul_mul_comm, mul_left_comm (l.length : K),
    mul_div_mul_left _ _ (mul_ne_zero hc hc)]

variable [LinearOrder K] [IsStrictOrderedRing K] {l : List K}

theorem length_mul_squares_pos (h : ∃ v ∈ l, v ≠ 0) : 0 < l.length * squares l := by
  obtain ⟨v, hv, hne⟩ := h
  have hlength : (0 : K) < l.length := by exact_mod_cast List.length_pos_of_mem hv
  refine mul_pos hlength ((squares_nonneg l).lt_of_ne fun hzero => ?_)
  exact hne (squares_eq_zero_iff.mp hzero.symm v hv)

theorem index_le_one (h : ∃ v ∈ l, v ≠ 0) : index l ≤ 1 := by
  rw [index, div_le_one (length_mul_squares_pos h)]
  exact sub_nonneg.mp (shortfall_nonneg l)

/-- The index is one for equal entries only. -/
theorem index_eq_one_iff (h : ∃ v ∈ l, v ≠ 0) : index l = 1 ↔ ∀ v ∈ l, ∀ w ∈ l, v = w := by
  rw [index, div_eq_one_iff_eq (length_mul_squares_pos h).ne', eq_comm, ← sub_eq_zero]
  exact shortfall_eq_zero_iff

/-- Over the least value of the index, one entry in `n`, lies the excess. -/
theorem index_sub (h : ∃ v ∈ l, v ≠ 0) :
    index l - 1 / l.length = excess l / (l.length * squares l) := by
  have hpos := length_mul_squares_pos h
  have hleast : squares l / (l.length * squares l) = 1 / l.length := by
    rw [div_mul_cancel_right₀ (right_ne_zero_of_mul hpos.ne'), one_div]
  rw [index, excess, sub_div, hleast]

theorem inv_length_le_index (hnonneg : ∀ v ∈ l, 0 ≤ v) (h : ∃ v ∈ l, v ≠ 0) :
    1 / (l.length : K) ≤ index l := by
  rw [← sub_nonneg, index_sub h]
  exact div_nonneg (excess_nonneg hnonneg) (length_mul_squares_pos h).le

/-- The index is least where one entry holds everything. -/
theorem index_eq_inv_length_iff (hnonneg : ∀ v ∈ l, 0 ≤ v) (h : ∃ v ∈ l, v ≠ 0) :
    index l = 1 / l.length ↔ l.countP (· ≠ 0) = 1 := by
  have hsome : 0 < l.countP (· ≠ 0) := by
    obtain ⟨v, hv, hne⟩ := h
    exact List.countP_pos_iff.mpr ⟨v, hv, decide_eq_true hne⟩
  rw [← sub_eq_zero, index_sub h, div_eq_zero_iff, or_iff_left (length_mul_squares_pos h).ne',
    excess_eq_zero_iff hnonneg]
  omega

end Index

end Evenness
