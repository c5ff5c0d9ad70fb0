/-
HeteroSched/Lib/Rotation.lean

Reading a list round and round.

Design.  `cycle l a k` reads `k` entries from position `a` on and starts over at
the end of the list.  A full turn is a rotation of the list (`cycle_of_le`) and
leads back to where it began (`cycle_turns`), so any stretch of a reading that is
as long as the list is a permutation of it, and a reading of `k` entries is
`k / n` turns and a part of one.
-/
import Mathlib.Algebra.Order.Floor.Div
import Mathlib.Data.List.Rotate
import Mathlib.Tactic

namespace Rotation

variable {α : Type*}

/-- The next `k` entries from position `a` on. -/
def cycle (l : List α) (a : ℕ) : ℕ → List α
  | 0 => []
  | k + 1 => l[a % l.length]?.toList ++ cycle l (a + 1) k

variable {l : List α} {a j k : ℕ}

theorem cycle_add (l : List α) (a j k : ℕ) :
    cycle l a (j + k) = cycle l a j ++ cycle l (a + j) k := by
  induction j generalizing a with
  | zero => rw [Nat.zero_add, cycle, List.nil_append, Nat.add_zero]
  | succ j ih =>
      rw [Nat.succ_add, cycle, ih, cycle, List.append_assoc, Nat.add_right_comm, Nat.add_assoc]

theorem cycle_succ (h : l ≠ []) (a k : ℕ) :
    ∃ x, l[a % l.length]? = some x ∧ cycle l a (k + 1) = x :: cycle l (a + 1) k := by
  have hlt : a % l.length < l.length := Nat.mod_lt a (List.length_pos_iff.mpr h)
  refine ⟨l[a % l.length], List.getElem?_eq_getElem hlt, ?_⟩
  rw [cycle, List.getElem?_eq_getElem hlt]
  rfl

theorem length_cycle (h : l ≠ []) (a k : ℕ) : (cycle l a k).length = k := by
  induction k generalizing a with
  | zero => rfl
  | succ k ih =>
      obtain ⟨x, -, hcycle⟩ := cycle_succ h a k
      rw [hcycle, List.length_cons, ih]

theorem getElem?_cycle (h : l ≠ []) (hj : j < k) : (cycle l a k)[j]? = l[(a + j) % l.length]? := by
  induction k generalizing a j with
  | zero => exact absurd hj (Nat.not_lt_zero j)
  | succ k ih =>
      obtain ⟨x, hx, hcycle⟩ := cycle_succ h a k
      rw [hcycle]
      cases j with
      | zero => exact hx.symm
      | succ j =>
          rw [List.getElem?_cons_succ, ih (Nat.lt_of_succ_lt_succ hj)]
          congr 2
          omega

/-! ### Turns -/

/-- Less than a turn is a part of a rotation. -/
theorem cycle_of_le (hk : k ≤ l.length) : cycle l a k = (l.rotate a).take k := by
  by_cases h : l = []
  · subst h
    obtain rfl := Nat.le_zero.mp hk
    rfl
  · refine List.ext_getElem? fun i => ?_
    rw [List.getElem?_take]
    split
    · next hi =>
        rw [getElem?_cycle h hi, List.getElem?_rotate (hi.trans_le hk), Nat.add_comm]
    · next hi =>
        rw [List.getElem?_eq_none_iff, length_cycle h]
        exact not_lt.mp hi

/-- A turn is a rotation. -/
theorem cycle_turn (l : List α) (a : ℕ) : cycle l a l.length = l.rotate a := by
  rw [cycle_of_le le_rfl, List.take_of_length_le (List.length_rotate l a).le]

/-- After a turn the reading goes on as it began. -/
theorem cycle_add_length (l : List α) (a k : ℕ) : cycle l (a + l.length) k = cycle l a k := by
  induction k generalizing a with
  | zero => rfl
  | succ k ih => rw [cycle, cycle, Nat.add_mod_right, Nat.add_right_comm, ih]

/-- As many entries in a row as the list has are a permutation of it. -/
theorem perm_of_cycle_eq_append (h : l ≠ []) {before window after : List α}
    (heq : cycle l a k = before ++ window ++ after) (hwindow : window.length = l.length) :
    window.Perm l := by
  have hk : k = before.length + window.length + after.length := by
    rw [← length_cycle h a k, heq, List.length_append, List.length_append]
  rw [hk, cycle_add, cycle_add, List.append_assoc, List.append_assoc] at heq
  obtain ⟨-, hrest⟩ := List.append_inj heq (length_cycle h a before.length)
  obtain ⟨hmid, -⟩ := List.append_inj hrest (length_cycle h _ window.length)
  rw [← hmid, hwindow, cycle_turn]
  exact List.rotate_perm l _

/-! ### Counts -/

theorem ceilDiv_of_mod_pos {n : ℕ} (hn : 0 < n) (h : 0 < k % n) : k ⌈/⌉ n = k / n + 1 := by
  have hdiv := Nat.div_add_mod' k n
  have hlt := Nat.mod_lt k hn
  rw [Nat.ceilDiv_eq_add_pred_div]
  refine Nat.div_eq_of_lt_le ?_ ?_
  · rw [Nat.add_mul]
    omega
  · rw [Nat.add_mul, Nat.add_mul]
    omega

section Count

variable [DecidableEq α]

/-- Every turn reads each entry as often as the list has it. -/
theorem count_cycle_turns (x : α) (a m k : ℕ) :
    (cycle l a (m * l.length + k)).count x = m * l.count x + (cycle l a k).count x := by
  induction m with
  | zero => rw [Nat.zero_mul, Nat.zero_mul, Nat.zero_add, Nat.zero_add]
  | succ m ih =>
      rw [Nat.succ_mul, Nat.add_comm (m * l.length), Nat.add_assoc, cycle_add, cycle_add_length,
        List.count_append, ih, cycle_turn, (List.rotate_perm l a).count_eq, Nat.succ_mul]
      omega

/-- Of distinct entries each is read `k / n` times, rounded one way or the other. -/
theorem count_cycle (hl : l.Nodup) {x : α} (hx : x ∈ l) (a k : ℕ) :
    (cycle l a k).count x = k / l.length ∨ (cycle l a k).count x = k ⌈/⌉ l.length := by
  have hpos : 0 < l.length := List.length_pos_of_mem hx
  have hlt : k % l.length < l.length := Nat.mod_lt k hpos
  have hcount := count_cycle_turns (l := l) x a (k / l.length) (k % l.length)
  rw [Nat.div_add_mod', List.count_eq_one_of_mem hl hx, Nat.mul_one] at hcount
  have hpart : (cycle l a (k % l.length)).count x ≤ 1 := by
    rw [cycle_of_le hlt.le]
    refine ((List.take_sublist _ _).count_le x).trans ?_
    exact List.nodup_iff_count_le_one.mp (List.nodup_rotate.mpr hl) x
  by_cases hzero : (cycle l a (k % l.length)).count x = 0
  · left
    rw [hcount, hzero, Nat.add_zero]
  · right
    -- a part of a turn was read
    have hmod : 0 < k % l.length := by
      refine Nat.pos_of_ne_zero fun heq => hzero ?_
      rw [heq]
      rfl
    rw [hcount, ceilDiv_of_mod_pos hpos hmod]
    omega

end Count

end Rotation
