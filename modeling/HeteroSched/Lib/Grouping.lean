/-
HeteroSched/Lib/Grouping.lean

Rows grouped under a key, and the totals of the groups.

Design.  A table by key is one fold over the rows: a row with a key updates the
entry of that key, starting from a first value, and a row without one is skipped
(`aggregate`).  What stands under a key is then the same fold over the rows of
that key alone (`get?_aggregate`), whatever the entries are: lists, counts or
tables again.  A list of keys that takes every key of a row once partitions the
rows, so any sum over the groups is the sum over the rows (`sum_by_key`).
-/
import HeteroSched.Lib.Dict
import Mathlib.Algebra.BigOperators.Group.Finset.Piecewise

namespace Grouping

variable {κ α β : Type*} [DecidableEq κ]

/-- The table by key of the rows, each row updating the entry of its key. -/
def aggregate (key : α → Option κ) (update : β → α → β) (first : β) (d : Dict κ β)
    (rows : List α) : Dict κ β :=
  rows.foldl (fun d a =>
    match key a with
    | some k => d.set k (update (d.getD k first) a)
    | none => d) d

section Aggregate

variable {key : α → Option κ} {update : β → α → β} {first : β}

theorem aggregate_cons (d : Dict κ β) (a : α) (rows : List α) :
    aggregate key update first d (a :: rows) =
      match key a with
      | some k => aggregate key update first (d.set k (update (d.getD k first) a)) rows
      | none => aggregate key update first d rows := by
  rw [aggregate, List.foldl_cons]
  cases key a with
  | none => rfl
  | some k => rfl

theorem mem_aggregate (d : Dict κ β) (rows : List α) (k : κ) :
    k ∈ aggregate key update first d rows ↔ k ∈ d ∨ ∃ a ∈ rows, key a = some k := by
  induction rows generalizing d with
  | nil =>
      show k ∈ d ↔ _
      simp only [List.not_mem_nil, false_and, exists_false, or_false]
  | cons a rows ih =>
      rw [aggregate_cons, List.exists_mem_cons_iff]
      rcases h : key a with - | k'
      · rw [ih, or_iff_right (a := none = some k) (by simp)]
      · rw [ih, Dict.mem_set, Option.some_inj, eq_comm (a := k'), or_assoc, or_left_comm]

/-- Under a key stands the fold over the rows of that key. -/
theorem getD_aggregate (d : Dict κ β) (rows : List α) (k : κ) :
    (aggregate key update first d rows).getD k first =
      (rows.filter fun a => key a = some k).foldl update (d.getD k first) := by
  induction rows generalizing d with
  | nil => rfl
  | cons a rows ih =>
      rw [aggregate_cons]
      by_cases hk : key a = some k
      · rw [List.filter_cons, if_pos (decide_eq_true hk), List.foldl_cons, hk]
        show (aggregate key update first (d.set k (update (d.getD k first) a)) rows).getD k first = _
        rw [ih, Dict.getD_set, if_pos rfl]
      · rw [List.filter_cons, if_neg (by simpa using hk)]
        rcases h : key a with - | k'
        · exact ih d
        · have hne : k ≠ k' := fun heq => hk (by rw [h, heq])
          show (aggregate key update first (d.set k' (update (d.getD k' first) a)) rows).getD k first = _
          rw [ih, Dict.getD_set, if_neg hne]

theorem get?_aggregate {d : Dict κ β} {rows : List α} {k : κ} {b : β}
    (h : (aggregate key update first d rows).get? k = some b) :
    b = (rows.filter fun a => key a = some k).foldl update (d.getD k first) := by
  rw [← getD_aggregate, Dict.getD_of_get? h]

end Aggregate

/-- Adding one row after the other to a group puts the rows at its end. -/
theorem foldl_snoc (f : α → β) (group : List β) (rows : List α) :
    rows.foldl (fun group a => group ++ [f a]) group = group ++ rows.map f := by
  induction rows generalizing group with
  | nil => exact (List.append_nil group).symm
  | cons a rows ih => rw [List.foldl_cons, ih, List.map_cons, List.append_assoc, List.singleton_append]

/-! ### Totals -/

section Totals

variable {M : Type*} [AddCommMonoid M]

/-- Of distinct keys, one contributes what stands under it. -/
theorem sum_ite_key {keys : List κ} (hkeys : keys.Nodup) {k : κ} (hk : k ∈ keys) (b : M) :
    (keys.map fun k' => if k = k' then b else 0).sum = b := by
  rw [← List.sum_toFinset _ hkeys, Finset.sum_ite_eq, if_pos (List.mem_toFinset.mpr hk)]

/-- The groups of distinct keys that take in every key of a row partition the
rows that have a key. -/
theorem sum_by_key {keys : List κ} (hkeys : keys.Nodup) {key : α → Option κ} (f : α → M)
    {rows : List α} (hrows : ∀ a ∈ rows, ∀ k, key a = some k → k ∈ keys) :
    (keys.map fun k => ((rows.filter fun a => key a = some k).map f).sum).sum =
      ((rows.filter fun a => (key a).isSome).map f).sum := by
  induction rows with
  | nil => simp only [List.filter_nil, List.map_nil, List.sum_nil, List.sum_map_zero]
  | cons a rows ih =>
      obtain ⟨ha, hrest⟩ := List.forall_mem_cons.mp hrows
      rcases hkey : key a with - | k
      · have hskip : ∀ k, (a :: rows).filter (fun a => key a = some k)
            = rows.filter fun a => key a = some k := by
          intro k
          exact List.filter_cons_of_neg (by simp [hkey])
        rw [List.filter_cons_of_neg (by simp [hkey]), ← ih hrest]
        simp only [hskip]
      · have hadd : ∀ k', (((a :: rows).filter fun a => key a = some k').map f).sum
            = (if k = k' then f a else 0) + ((rows.filter fun a => key a = some k').map f).sum := by
          intro k'
          by_cases heq : k = k'
          · rw [List.filter_cons_of_pos (by simp [hkey, heq]), if_pos heq, List.map_cons,
              List.sum_cons]
          · rw [List.filter_cons_of_neg (by simp [hkey, heq]), if_neg heq, zero_add]
        rw [List.filter_cons_of_pos (by simp [hkey]), List.map_cons, List.sum_cons, ← ih hrest]
        simp only [hadd]
        rw [List.sum_map_add, sum_ite_key hkeys (ha k hkey)]

end Totals

/-- A count over the groups is a count over the rows. -/
theorem countP_by_key {keys : List κ} (hkeys : keys.Nodup) {key : α → Option κ} (p : α → Bool)
    {rows : List α} (hrows : ∀ a ∈ rows, ∀ k, key a = some k → k ∈ keys) :
    (keys.map fun k => (rows.filter fun a => key a = some k).countP p).sum =
      (rows.filter fun a => (key a).isSome).countP p := by
  have hcount : ∀ l : List α, l.countP p = (l.map fun a => if p a then 1 else 0).sum := by
    intro l
    induction l with
    | nil => rfl
    | cons a l ih => rw [List.countP_cons, List.map_cons, List.sum_cons, ih, add_comm]
  simp only [hcount]
  exact sum_by_key hkeys _ hrows

/-- The groups together are the rows that have a key. -/
theorem perm_by_key {keys : List κ} (hkeys : keys.Nodup) {key : α → Option κ} {rows : List α}
    (hrows : ∀ a ∈ rows, ∀ k, key a = some k → k ∈ keys) :
    (rows.filter fun a => (key a).isSome).Perm
      (keys.flatMap fun k => rows.filter fun a => key a = some k) := by
  classical
  rw [List.perm_iff_count]
  intro a
  rw [List.count_flatMap]
  exact (countP_by_key hkeys (fun b => b == a) hrows).symm

end Grouping
