/-
HeteroSched/Lib/OrderStatistics.lean

The order statistics of a finite list over a linear order.

Design.  The `k`-th order statistic is the entry at position `k` of the sorted
list, and everything else about it is one count: a property that passes on to
smaller values holds of it exactly when more than `k` entries have the property
(`lt_countP_iff`).  The nearest rank of a list, the least entry that enough
entries do not exceed, is by that count the order statistic at the ceiling of
what is enough (`isNearestRank_iff`).
-/
import Mathlib.Algebra.Order.Floor.Semiring
import Mathlib.Data.List.Sort
import Mathlib.Order.Bounds.Basic
import Mathlib.Tactic

namespace OrderStatistics

variable {α : Type*} [LinearOrder α]

/-- The entry at position `k` of the sorted list. -/
def orderStat (l : List α) (k : ℕ) : Option α := (l.insertionSort (· ≤ ·))[k]?

variable {l : List α} {k : ℕ} {x : α}

theorem orderStat_isSome (h : k < l.length) : ∃ x, orderStat l k = some x := by
  have hk : k < (l.insertionSort (· ≤ ·)).length := by
    rw [List.length_insertionSort]
    exact h
  exact ⟨_, List.getElem?_eq_getElem hk⟩

theorem lt_length (h : orderStat l k = some x) : k < l.length := by
  obtain ⟨hk, -⟩ := List.getElem?_eq_some_iff.mp h
  rw [List.length_insertionSort] at hk
  exact hk

theorem orderStat_mem (h : orderStat l k = some x) : x ∈ l :=
  (List.mem_insertionSort (· ≤ ·)).mp (List.mem_of_getElem? h)

theorem exists_orderStat (h : x ∈ l) : ∃ k, orderStat l k = some x :=
  List.mem_iff_getElem?.mp ((List.mem_insertionSort (· ≤ ·)).mpr h)

/-- Later in the sorted list is no smaller. -/
theorem orderStat_mono {j : ℕ} {y : α} (hx : orderStat l j = some x)
    (hy : orderStat l k = some y) (h : j ≤ k) : x ≤ y := by
  obtain ⟨hj, rfl⟩ := List.getElem?_eq_some_iff.mp hx
  obtain ⟨hk, rfl⟩ := List.getElem?_eq_some_iff.mp hy
  have hsorted := List.pairwise_insertionSort (· ≤ · : α → α → Prop) l
  exact List.sortedLE_iff_getElem_le_getElem_of_le.mp (List.sortedLE_iff_pairwise.mpr hsorted) h

/-- The order of the list does not matter. -/
theorem insertionSort_perm {l' : List α} (h : l.Perm l') :
    l.insertionSort (· ≤ ·) = l'.insertionSort (· ≤ ·) := by
  have hperm : (l.insertionSort (· ≤ ·)).Perm (l'.insertionSort (· ≤ ·)) :=
    ((List.perm_insertionSort _ l).trans h).trans (List.perm_insertionSort _ l').symm
  exact hperm.eq_of_pairwise' (List.pairwise_insertionSort _ l) (List.pairwise_insertionSort _ l')

theorem orderStat_perm {l' : List α} (h : l.Perm l') (k : ℕ) : orderStat l k = orderStat l' k := by
  rw [orderStat, insertionSort_perm h, orderStat]

/-! ### Counting -/

/-- A property that passes on to smaller values holds of the `k`-th order
statistic exactly when it holds of more than `k` entries. -/
theorem lt_countP_iff {p : α → Prop} [DecidablePred p] (hp : ∀ a b, a ≤ b → p b → p a)
    (hx : orderStat l k = some x) : k < l.countP p ↔ p x := by
  have hsorted : (l.insertionSort (· ≤ ·)).Pairwise (· ≤ ·) := List.pairwise_insertionSort _ l
  rw [← (List.perm_insertionSort (· ≤ ·) l).countP_eq]
  rw [orderStat] at hx
  generalize l.insertionSort (· ≤ ·) = s at hsorted hx
  obtain ⟨hk, hget⟩ := List.getElem?_eq_some_iff.mp hx
  have hle := List.sortedLE_iff_getElem_le_getElem_of_le.mp (List.sortedLE_iff_pairwise.mpr hsorted)
  constructor
  · intro hcount
    by_contra hnot
    -- without `p x` only the first `k` entries can have the property
    have hrest : (s.drop k).countP p = 0 := by
      rw [List.countP_eq_zero]
      intro y hy
      obtain ⟨i, hi, rfl⟩ := List.mem_iff_getElem.mp hy
      rw [List.getElem_drop, decide_eq_true_eq]
      intro hpy
      refine hnot (hp _ _ ?_ hpy)
      rw [← hget]
      exact hle (Nat.le_add_right k i)
    have hfront : (s.take k).countP p ≤ k :=
      le_trans List.countP_le_length (List.length_take_le k s)
    rw [← List.take_append_drop k s, List.countP_append, hrest] at hcount
    omega
  · intro hpx
    -- the first `k + 1` entries are at most `x`
    have hfront : (s.take (k + 1)).countP p = k + 1 := by
      have hlen : (s.take (k + 1)).length = k + 1 := List.length_take_of_le hk
      refine Eq.trans (List.countP_eq_length.mpr ?_) hlen
      intro y hy
      obtain ⟨i, hi, rfl⟩ := List.mem_iff_getElem.mp hy
      rw [hlen] at hi
      rw [List.getElem_take, decide_eq_true_eq]
      refine hp _ _ ?_ hpx
      rw [← hget]
      exact hle (by omega)
    have hsub := (List.take_sublist (k + 1) s).countP_le (p := p)
    omega

theorem lt_countP_le_iff {v : α} (hx : orderStat l k = some x) :
    k < l.countP (· ≤ v) ↔ x ≤ v :=
  lt_countP_iff (fun _ _ hab hb => le_trans hab hb) hx

theorem lt_countP_lt_iff {v : α} (hx : orderStat l k = some x) :
    k < l.countP (· < v) ↔ x < v :=
  lt_countP_iff (fun _ _ hab hb => lt_of_le_of_lt hab hb) hx

/-! ### Ties -/

/-- The entries of the ranks `k` and `k + 1`, counted from one, are equal: some
value has less than `k` entries below it and more than `k` entries up to it. -/
def Tied (l : List α) (k : ℕ) : Prop := ∃ x, l.countP (· < x) < k ∧ k < l.countP (· ≤ x)

theorem tied_iff (hk : 0 < k) (hlen : k < l.length) :
    Tied l k ↔ orderStat l (k - 1) = orderStat l k := by
  obtain ⟨x, hx⟩ := orderStat_isSome hlen
  obtain ⟨y, hy⟩ := orderStat_isSome (show k - 1 < l.length by omega)
  rw [hx, hy, Option.some_inj]
  constructor
  · rintro ⟨v, hbelow, habove⟩
    have hxv : x ≤ v := (lt_countP_le_iff hx).mp habove
    have hvy : v ≤ y := by
      refine le_of_not_gt fun hlt => ?_
      have := (lt_countP_lt_iff hy).mpr hlt
      omega
    exact le_antisymm (orderStat_mono hy hx (by omega)) (le_trans hxv hvy)
  · rintro rfl
    refine ⟨y, ?_, (lt_countP_le_iff hx).mpr le_rfl⟩
    have := mt (lt_countP_lt_iff hy).mp (lt_irrefl y)
    omega

/-! ### The least and the greatest entry -/

theorem min?_eq_orderStat (l : List α) : l.min? = orderStat l 0 := by
  rcases l with - | ⟨a, l⟩
  · rfl
  · obtain ⟨x, hx⟩ := orderStat_isSome (show 0 < (a :: l).length from Nat.succ_pos _)
    rw [hx, List.min?_eq_some_iff]
    refine ⟨orderStat_mem hx, fun b hb => ?_⟩
    refine (lt_countP_le_iff hx).mp (List.countP_pos_iff.mpr ⟨b, hb, ?_⟩)
    exact decide_eq_true le_rfl

theorem max?_eq_orderStat (l : List α) : l.max? = orderStat l (l.length - 1) := by
  rcases l with - | ⟨a, l⟩
  · rfl
  · obtain ⟨x, hx⟩ := orderStat_isSome
      (show (a :: l).length - 1 < (a :: l).length from Nat.sub_one_lt (Nat.succ_ne_zero _))
    rw [hx, List.max?_eq_some_iff]
    refine ⟨orderStat_mem hx, fun b hb => ?_⟩
    -- an entry above would leave too few entries below it
    refine le_of_not_gt fun hlt => ?_
    have hall := (lt_countP_lt_iff hx).mpr hlt
    have hle : (a :: l).countP (· < b) ≤ (a :: l).length := List.countP_le_length
    have hne : (a :: l).countP (· < b) ≠ (a :: l).length := by
      intro heq
      exact lt_irrefl b (of_decide_eq_true (List.countP_eq_length.mp heq b hb))
    omega

/-! ### The nearest rank -/

/-- The least entry such that at least `r` entries are no greater. -/
def IsNearestRank {K : Type*} [Semiring K] [LE K] (l : List α) (r : K) (v : α) : Prop :=
  IsLeast {x | x ∈ l ∧ r ≤ (l.countP (· ≤ x) : K)} v

theorem isNearestRank_iff {K : Type*} [Semiring K] [LinearOrder K] [IsStrictOrderedRing K]
    [FloorSemiring K] {r : K} {v : α} (hpos : 0 < r) (hle : r ≤ l.length) :
    IsNearestRank l r v ↔ orderStat l (⌈r⌉₊ - 1) = some v := by
  have hceil : 0 < ⌈r⌉₊ := Nat.ceil_pos.mpr hpos
  have hceil' : ⌈r⌉₊ ≤ l.length := Nat.ceil_le.mpr hle
  obtain ⟨x, hx⟩ := orderStat_isSome (show ⌈r⌉₊ - 1 < l.length by omega)
  have hcount : ∀ y, r ≤ (l.countP (· ≤ y) : K) ↔ x ≤ y := by
    intro y
    rw [← Nat.ceil_le, ← lt_countP_le_iff hx]
    omega
  have hleast : IsLeast {y | y ∈ l ∧ r ≤ (l.countP (· ≤ y) : K)} x :=
    ⟨⟨orderStat_mem hx, (hcount x).mpr le_rfl⟩, fun y hy => (hcount y).mp hy.2⟩
  rw [hx, Option.some_inj]
  constructor
  · exact fun hv => hleast.unique hv
  · rintro rfl
    exact hleast

end OrderStatistics
