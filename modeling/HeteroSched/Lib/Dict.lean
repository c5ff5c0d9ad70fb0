/-
HeteroSched/Lib/Dict.lean

Finite dictionaries in insertion order, the way Python keeps them: assigning
to a key that is present changes its value in place, assigning to a new key
appends it, `pop` removes the entry, and iteration follows the entries.

Design.  A dictionary is its list of entries together with the proof that no
key occurs twice, so every operation carries its own well-formedness and later
proofs never ask for it again.  Reasoning goes through two observations:

* `get?`, the partial function a dictionary denotes (`get?_set`, `get?_pop`,
  `get?_mapVals` say how each operation changes it);
* `sumOn f`, a sum over all entries, which only an insertion under a new key
  and the removal of a present key change (`sumOn_set`, `sumOn_pop`).

The sums are over an arbitrary commutative monoid, so one lemma serves every
resource that is accounted for in a table.
-/
import Mathlib.Algebra.BigOperators.Group.List.Basic
import Mathlib.Algebra.Order.BigOperators.Group.List
import Mathlib.Data.List.Nodup
import Mathlib.Tactic

/-- A finite dictionary: entries in insertion order, keys without repetition. -/
@[ext] structure Dict (κ α : Type*) where
  entries : List (κ × α)
  nodup_keys : (entries.map Prod.fst).Nodup
  deriving DecidableEq

namespace Dict

variable {κ α β : Type*}

/-! ### Observations -/

/-- The keys, in insertion order. -/
def keys (d : Dict κ α) : List κ := d.entries.map Prod.fst

/-- The values, in insertion order. -/
def values (d : Dict κ α) : List α := d.entries.map Prod.snd

instance : Membership κ (Dict κ α) := ⟨fun d k => k ∈ d.keys⟩

theorem mem_def {d : Dict κ α} {k : κ} : k ∈ d ↔ k ∈ d.keys := Iff.rfl

/-- Sum of `f` over all entries. -/
def sumOn {M : Type*} [AddCommMonoid M] (f : κ → α → M) (d : Dict κ α) : M :=
  (d.entries.map fun e => f e.1 e.2).sum

/-- The number of entries that satisfy `p`. -/
def countOn (p : κ → α → Prop) [∀ k v, Decidable (p k v)] (d : Dict κ α) : ℕ :=
  d.entries.countP fun e => p e.1 e.2

/-- The empty dictionary. -/
def empty : Dict κ α := ⟨[], List.nodup_nil⟩

instance : EmptyCollection (Dict κ α) := ⟨empty⟩

instance : Inhabited (Dict κ α) := ⟨empty⟩

variable [DecidableEq κ]

instance (k : κ) (d : Dict κ α) : Decidable (k ∈ d) :=
  inferInstanceAs (Decidable (k ∈ d.keys))

/-- The value stored under `k`, if any. -/
def get? (d : Dict κ α) (k : κ) : Option α := d.entries.lookup k

/-- The value stored under `k`, or a default. -/
def getD (d : Dict κ α) (k : κ) (default : α) : α := (d.get? k).getD default

/-! ### Operations -/

/-- Assignment on the entries: in place when the key is there, else at the end. -/
def setEntries (k : κ) (v : α) : List (κ × α) → List (κ × α)
  | [] => [(k, v)]
  | e :: rest => if e.1 = k then (k, v) :: rest else e :: setEntries k v rest

theorem keys_setEntries (k : κ) (v : α) (l : List (κ × α)) :
    (setEntries k v l).map Prod.fst
      = if k ∈ l.map Prod.fst then l.map Prod.fst else l.map Prod.fst ++ [k] := by
  induction l with
  | nil => simp [setEntries]
  | cons e rest ih =>
      by_cases h : e.1 = k
      · simp [setEntries, h]
      · simp only [setEntries, if_neg h, List.map_cons, ih, List.mem_cons, Ne.symm h, false_or]
        split <;> rfl

/-- Assign `v` to `k`. -/
def set (d : Dict κ α) (k : κ) (v : α) : Dict κ α where
  entries := setEntries k v d.entries
  nodup_keys := by
    rw [keys_setEntries]
    split
    · exact d.nodup_keys
    · next h =>
        rw [List.nodup_append]
        refine ⟨d.nodup_keys, List.nodup_singleton k, ?_⟩
        intro a ha b hb hab
        obtain rfl := List.mem_singleton.mp hb
        exact h (hab ▸ ha)

/-- Remove the entry of `k`, if any. -/
def pop (d : Dict κ α) (k : κ) : Dict κ α where
  entries := d.entries.filter fun e => e.1 ≠ k
  nodup_keys := d.nodup_keys.sublist (List.filter_sublist.map Prod.fst)

/-- Remove the entries of all the keys in a list, one after the other. -/
def popAll (d : Dict κ α) (ks : List κ) : Dict κ α := ks.foldl pop d

/-- Rewrite every value, given its key. -/
def mapVals (f : κ → α → β) (d : Dict κ α) : Dict κ β where
  entries := d.entries.map fun e => (e.1, f e.1 e.2)
  nodup_keys := by
    have h := d.nodup_keys
    rwa [List.map_map, show (Prod.fst ∘ fun e : κ × α => (e.1, f e.1 e.2)) = Prod.fst from rfl]

/-- Rewrite the value of one key, if it is present. -/
def modify (d : Dict κ α) (k : κ) (f : α → α) : Dict κ α :=
  d.mapVals fun k' v => if k' = k then f v else v

/-! ### Lookup -/

theorem get?_eq_some_iff {d : Dict κ α} {k : κ} {v : α} :
    d.get? k = some v ↔ (k, v) ∈ d.entries := by
  obtain ⟨l, hl⟩ := d
  show l.lookup k = some v ↔ (k, v) ∈ l
  induction l with
  | nil => simp
  | cons e rest ih =>
      obtain ⟨k', v'⟩ := e
      have hl' := List.nodup_cons.mp hl
      by_cases h : k = k'
      · subst h
        have hnot : (k, v) ∉ rest := fun hm => hl'.1 (List.mem_map.mpr ⟨(k, v), hm, rfl⟩)
        simp [hnot, eq_comm]
      · have hb : (k == k') = false := by simpa using h
        rw [List.lookup_cons, hb]
        simp [h, ih hl'.2]

theorem get?_isSome_iff {d : Dict κ α} {k : κ} : (d.get? k).isSome ↔ k ∈ d := by
  rw [Option.isSome_iff_exists, mem_def, keys, List.mem_map]
  constructor
  · rintro ⟨v, hv⟩
    exact ⟨(k, v), get?_eq_some_iff.mp hv, rfl⟩
  · rintro ⟨⟨k', v⟩, hm, rfl⟩
    exact ⟨v, get?_eq_some_iff.mpr hm⟩

theorem get?_eq_none_iff {d : Dict κ α} {k : κ} : d.get? k = none ↔ k ∉ d := by
  rw [← get?_isSome_iff]
  cases d.get? k <;> simp

theorem mem_iff_get? {d : Dict κ α} {k : κ} : k ∈ d ↔ ∃ v, d.get? k = some v := by
  rw [← get?_isSome_iff, Option.isSome_iff_exists]

theorem mem_of_get? {d : Dict κ α} {k : κ} {v : α} (h : d.get? k = some v) : k ∈ d :=
  mem_iff_get?.mpr ⟨v, h⟩

@[simp] theorem get?_empty (k : κ) : (∅ : Dict κ α).get? k = none := rfl

omit [DecidableEq κ] in
@[simp] theorem not_mem_empty (k : κ) : k ∉ (∅ : Dict κ α) := List.not_mem_nil

theorem get?_set (d : Dict κ α) (k k' : κ) (v : α) :
    (d.set k v).get? k' = if k' = k then some v else d.get? k' := by
  show (setEntries k v d.entries).lookup k' = _
  unfold get?
  induction d.entries with
  | nil =>
      by_cases h : k' = k
      · simp [setEntries, h]
      · simp [setEntries, h]
  | cons e rest ih =>
      by_cases he : e.1 = k
      · rw [setEntries, if_pos he]
        by_cases h : k' = k
        · simp [h]
        · have hb : (k' == k) = false := by simpa using h
          have hb' : (k' == e.1) = false := by rw [he]; exact hb
          rw [List.lookup_cons, List.lookup_cons, hb, hb', if_neg h]
      · rw [setEntries, if_neg he, List.lookup_cons, List.lookup_cons]
        by_cases h : k' = k
        · have hb : (k' == e.1) = false := by rw [h]; simpa using Ne.symm he
          rw [hb, ih]
        · rw [ih, if_neg h, if_neg h]

@[simp] theorem get?_set_self (d : Dict κ α) (k : κ) (v : α) : (d.set k v).get? k = some v := by
  rw [get?_set, if_pos rfl]

/-- Assigning the value that is there changes nothing. -/
theorem set_eq_self_iff {d : Dict κ α} {k : κ} {v : α} : d.set k v = d ↔ d.get? k = some v := by
  constructor
  · intro h
    rw [← h, get?_set_self]
  · intro h
    obtain ⟨l, hl⟩ := d
    have hmem : (k, v) ∈ l := get?_eq_some_iff.mp h
    clear h
    have hset : setEntries k v l = l := by
      induction l with
      | nil => exact absurd hmem List.not_mem_nil
      | cons e rest ih =>
          obtain ⟨hnew, hrest⟩ := List.nodup_cons.mp hl
          rcases List.mem_cons.mp hmem with rfl | hmem
          · rw [setEntries, if_pos rfl]
          · have hne : e.1 ≠ k := fun he =>
              hnew (he ▸ List.mem_map.mpr ⟨(k, v), hmem, rfl⟩)
            rw [setEntries, if_neg hne, ih hrest hmem]
    simp only [set, hset]

@[simp] theorem get?_set_ne (d : Dict κ α) {k k' : κ} (v : α) (h : k' ≠ k) :
    (d.set k v).get? k' = d.get? k' := by
  rw [get?_set, if_neg h]

theorem get?_pop (d : Dict κ α) (k k' : κ) :
    (d.pop k).get? k' = if k' = k then none else d.get? k' := by
  by_cases h : k' = k
  · subst h
    rw [if_pos rfl, Option.eq_none_iff_forall_ne_some]
    intro v hv
    have hm := get?_eq_some_iff.mp hv
    simp [pop] at hm
  · rw [if_neg h]
    apply Option.ext
    intro v
    rw [get?_eq_some_iff, get?_eq_some_iff]
    simp [pop, h]

@[simp] theorem get?_pop_self (d : Dict κ α) (k : κ) : (d.pop k).get? k = none := by
  rw [get?_pop, if_pos rfl]

@[simp] theorem get?_pop_ne (d : Dict κ α) {k k' : κ} (h : k' ≠ k) :
    (d.pop k).get? k' = d.get? k' := by
  rw [get?_pop, if_neg h]

theorem get?_popAll (d : Dict κ α) (ks : List κ) (k : κ) :
    (d.popAll ks).get? k = if k ∈ ks then none else d.get? k := by
  induction ks generalizing d with
  | nil => simp [popAll]
  | cons k' rest ih =>
      show ((d.pop k').popAll rest).get? k = _
      rw [ih, get?_pop]
      by_cases h : k = k' <;> by_cases hr : k ∈ rest <;> simp [h, hr]

theorem get?_mapVals (f : κ → α → β) (d : Dict κ α) (k : κ) :
    (d.mapVals f).get? k = (d.get? k).map (f k) := by
  apply Option.ext
  intro v
  rw [get?_eq_some_iff, Option.map_eq_some_iff]
  simp only [mapVals, List.mem_map, Prod.mk.injEq, get?_eq_some_iff]
  constructor
  · rintro ⟨⟨k', a⟩, hm, rfl, rfl⟩
    exact ⟨a, hm, rfl⟩
  · rintro ⟨a, hm, rfl⟩
    exact ⟨(k, a), hm, rfl, rfl⟩

theorem get?_modify (d : Dict κ α) (k k' : κ) (f : α → α) :
    (d.modify k f).get? k' = if k' = k then (d.get? k).map f else d.get? k' := by
  rw [modify, get?_mapVals]
  by_cases h : k' = k
  · simp [h]
  · simp [h]

/-- What is stored after a change was stored before, changed if its key is the one. -/
theorem of_get?_modify {d : Dict κ α} {k k' : κ} {f : α → α} {b : α}
    (h : (d.modify k f).get? k' = some b) :
    ∃ a, d.get? k' = some a ∧ b = if k' = k then f a else a := by
  rw [get?_modify] at h
  split at h
  · next hk =>
      obtain ⟨a, ha, rfl⟩ := Option.map_eq_some_iff.mp h
      exact ⟨a, hk ▸ ha, (if_pos hk).symm⟩
  · next hk => exact ⟨b, h, (if_neg hk).symm⟩

@[simp] theorem getD_empty (k : κ) (a : α) : (∅ : Dict κ α).getD k a = a := rfl

theorem getD_set (d : Dict κ α) (k k' : κ) (v a : α) :
    (d.set k v).getD k' a = if k' = k then v else d.getD k' a := by
  unfold getD
  rw [get?_set]
  split <;> rfl

theorem getD_of_get? {d : Dict κ α} {k : κ} {v : α} (h : d.get? k = some v) (a : α) :
    d.getD k a = v := by
  rw [getD, h, Option.getD_some]

theorem getD_of_not_mem {d : Dict κ α} {k : κ} (h : k ∉ d) (a : α) : d.getD k a = a := by
  rw [getD, get?_eq_none_iff.mpr h, Option.getD_none]

/-! ### Membership -/

theorem mem_set {d : Dict κ α} {k k' : κ} {v : α} : k' ∈ d.set k v ↔ k' = k ∨ k' ∈ d := by
  rw [← get?_isSome_iff, get?_set, ← get?_isSome_iff]
  split <;> simp [*]

theorem mem_popAll {d : Dict κ α} {ks : List κ} {k : κ} : k ∈ d.popAll ks ↔ k ∉ ks ∧ k ∈ d := by
  rw [← get?_isSome_iff, get?_popAll, ← get?_isSome_iff]
  split <;> simp [*]

omit [DecidableEq κ] in
@[simp] theorem keys_mapVals (f : κ → α → β) (d : Dict κ α) : (d.mapVals f).keys = d.keys := by
  simp only [keys, mapVals, List.map_map]
  rfl

@[simp] theorem mem_modify {d : Dict κ α} {k k' : κ} {f : α → α} :
    k' ∈ d.modify k f ↔ k' ∈ d := by
  rw [mem_def, modify, keys_mapVals, mem_def]

theorem pop_of_not_mem {d : Dict κ α} {k : κ} (h : k ∉ d) : d.pop k = d := by
  obtain ⟨l, hl⟩ := d
  have hf : (l.filter fun e => e.1 ≠ k) = l := by
    rw [List.filter_eq_self]
    intro e he
    have hne : e.1 ≠ k := fun hk => h (List.mem_map.mpr ⟨e, he, hk⟩)
    simpa using hne
  simp only [pop, hf]

theorem entries_popAll (d : Dict κ α) (ks : List κ) :
    (d.popAll ks).entries = d.entries.filter fun e => e.1 ∉ ks := by
  induction ks generalizing d with
  | nil => simp [popAll]
  | cons k rest ih =>
      show ((d.pop k).popAll rest).entries = _
      rw [ih, pop, List.filter_filter]
      congr 1
      funext e
      simp [Bool.and_comm]

/-- Which keys are removed matters, not their order or repetitions. -/
theorem popAll_congr {d : Dict κ α} {ks ks' : List κ} (h : ∀ k, k ∈ ks ↔ k ∈ ks') :
    d.popAll ks = d.popAll ks' := by
  apply Dict.ext
  rw [entries_popAll, entries_popAll]
  congr 1
  funext e
  simp [h]

/-! ### Counts -/

section Counts

variable {p : κ → α → Prop} [∀ k v, Decidable (p k v)]
variable {q : κ → β → Prop} [∀ k v, Decidable (q k v)]

/-- If every entry that satisfies `p` has a counterpart under the same key that
satisfies `q`, then at least as many entries satisfy `q`. -/
theorem countOn_le {d : Dict κ α} {d' : Dict κ β}
    (h : ∀ k v, d.get? k = some v → p k v → ∃ v', d'.get? k = some v' ∧ q k v') :
    d.countOn p ≤ d'.countOn q := by
  have hnodup : ((d.entries.filter fun e => p e.1 e.2).map Prod.fst).Nodup :=
    d.nodup_keys.sublist (List.filter_sublist.map Prod.fst)
  have hsubset : (d.entries.filter fun e => p e.1 e.2).map Prod.fst
      ⊆ (d'.entries.filter fun e => q e.1 e.2).map Prod.fst := by
    intro k hk
    obtain ⟨⟨k, v⟩, hm, rfl⟩ := List.mem_map.mp hk
    obtain ⟨he, hp⟩ := List.mem_filter.mp hm
    obtain ⟨v', hv', hq⟩ := h k v (get?_eq_some_iff.mpr he) (of_decide_eq_true hp)
    exact List.mem_map.mpr ⟨(k, v'),
      List.mem_filter.mpr ⟨get?_eq_some_iff.mp hv', decide_eq_true hq⟩, rfl⟩
  have hle := (hnodup.subperm hsubset).length_le
  rwa [List.length_map, List.length_map, ← List.countP_eq_length_filter,
    ← List.countP_eq_length_filter] at hle

omit [∀ k v, Decidable (q k v)] in
/-- If the keys of all entries that satisfy `p` are on a list, there are no more of
them than the list is long. -/
theorem countOn_le_length {d : Dict κ α} {l : List κ}
    (h : ∀ k v, d.get? k = some v → p k v → k ∈ l) : d.countOn p ≤ l.length := by
  have hnodup : ((d.entries.filter fun e => p e.1 e.2).map Prod.fst).Nodup :=
    d.nodup_keys.sublist (List.filter_sublist.map Prod.fst)
  have hsubset : (d.entries.filter fun e => p e.1 e.2).map Prod.fst ⊆ l := by
    intro k hk
    obtain ⟨⟨k, v⟩, hm, rfl⟩ := List.mem_map.mp hk
    obtain ⟨he, hp⟩ := List.mem_filter.mp hm
    exact h k v (get?_eq_some_iff.mpr he) (of_decide_eq_true hp)
  have hle := (hnodup.subperm hsubset).length_le
  rwa [List.length_map, ← List.countP_eq_length_filter] at hle

end Counts

/-- A new key goes to the end. -/
theorem entries_set_of_not_mem {d : Dict κ α} {k : κ} (v : α) (h : k ∉ d) :
    (d.set k v).entries = d.entries ++ [(k, v)] := by
  have haux : ∀ l : List (κ × α), k ∉ l.map Prod.fst → setEntries k v l = l ++ [(k, v)] := by
    intro l hl
    induction l with
    | nil => rfl
    | cons e rest ih =>
        simp only [List.map_cons, List.mem_cons, not_or] at hl
        rw [setEntries, if_neg (Ne.symm hl.1), ih hl.2, List.cons_append]
  exact haux d.entries h

/-- The entries with a property, when a new one does not have it. -/
theorem filter_entries_set {d : Dict κ α} {k : κ} {v : α} {p : κ × α → Bool} (h : k ∉ d)
    (hp : p (k, v) = false) : (d.set k v).entries.filter p = d.entries.filter p := by
  rw [entries_set_of_not_mem v h, List.filter_append]
  simp [hp]

/-- The entries with a property, when the one that is rewritten has it neither before
nor after. -/
theorem filter_entries_modify {d : Dict κ α} {k : κ} {f : α → α} {p : κ × α → Bool}
    (h : ∀ v, d.get? k = some v → p (k, v) = false ∧ p (k, f v) = false) :
    (d.modify k f).entries.filter p = d.entries.filter p := by
  let g : κ × α → κ × α := fun e => (e.1, if e.1 = k then f e.2 else e.2)
  have hfilter : d.entries.filter (p ∘ g) = d.entries.filter p := by
    refine List.filter_congr fun ⟨k', v⟩ he => ?_
    show p (k', if k' = k then f v else v) = p (k', v)
    split
    · next hk =>
        subst hk
        obtain ⟨hold, hnew⟩ := h v (get?_eq_some_iff.mpr he)
        rw [hold, hnew]
    · rfl
  have hid : ∀ e ∈ d.entries.filter p, g e = e := by
    rintro ⟨k', v⟩ hm
    obtain ⟨he, hp⟩ := List.mem_filter.mp hm
    have hne : k' ≠ k := by
      rintro rfl
      rw [(h v (get?_eq_some_iff.mpr he)).1] at hp
      cases hp
    exact Prod.ext rfl (if_neg hne)
  show (d.entries.map g).filter p = _
  rw [List.filter_map, hfilter]
  exact (List.map_congr_left hid).trans (List.map_id _)

/-- The values with a property, by their keys. -/
theorem filter_values_perm {d : Dict κ α} {p : α → Bool} {ks : List κ} (hks : ks.Nodup)
    (h : ∀ k, k ∈ ks ↔ ∃ v, d.get? k = some v ∧ p v = true) :
    (d.values.filter p).Perm (ks.filterMap d.get?) := by
  have hmem : ∀ k, k ∈ (d.entries.filter fun e => p e.2).map Prod.fst ↔ k ∈ ks := by
    intro k
    rw [h k]
    constructor
    · intro hk
      obtain ⟨e, he, rfl⟩ := List.mem_map.mp hk
      obtain ⟨hentry, hp⟩ := List.mem_filter.mp he
      exact ⟨e.2, get?_eq_some_iff.mpr hentry, hp⟩
    · rintro ⟨v, hv, hp⟩
      exact List.mem_map.mpr ⟨(k, v), List.mem_filter.mpr ⟨get?_eq_some_iff.mp hv, hp⟩, rfl⟩
  have hnodup : ((d.entries.filter fun e => p e.2).map Prod.fst).Nodup :=
    d.nodup_keys.sublist (List.filter_sublist.map _)
  have hvalues : d.values.filter p =
      ((d.entries.filter fun e => p e.2).map Prod.fst).filterMap d.get? := by
    rw [values, List.filter_map, List.filterMap_map, ← List.filterMap_eq_map]
    refine List.filterMap_congr fun e he => ?_
    exact (get?_eq_some_iff.mpr (List.mem_of_mem_filter he)).symm
  rw [hvalues]
  exact ((List.perm_ext_iff_of_nodup hnodup hks).mpr hmem).filterMap _

/-! ### Sums over all entries -/

section Sums

variable {M : Type*} [AddCommMonoid M] (f : κ → α → M)

omit [DecidableEq κ] in
@[simp] theorem sumOn_empty : (∅ : Dict κ α).sumOn f = 0 := rfl

omit [DecidableEq κ] in
/-- Two summands that agree on the entries have the same sum. -/
theorem sumOn_congr {d : Dict κ α} {g : κ → α → M} (h : ∀ e ∈ d.entries, f e.1 e.2 = g e.1 e.2) :
    d.sumOn f = d.sumOn g := by
  unfold sumOn
  rw [List.map_congr_left h]

omit [DecidableEq κ] in
theorem sumOn_eq_zero {d : Dict κ α} (h : ∀ e ∈ d.entries, f e.1 e.2 = 0) : d.sumOn f = 0 := by
  rw [sumOn_congr f (g := fun _ _ => 0) h]
  simp [sumOn]

/-- Assigning to a new key adds its summand. -/
theorem sumOn_set {d : Dict κ α} {k : κ} (v : α) (h : k ∉ d) :
    (d.set k v).sumOn f = d.sumOn f + f k v := by
  have haux : ∀ l : List (κ × α), k ∉ l.map Prod.fst →
      ((setEntries k v l).map fun e => f e.1 e.2).sum
        = (l.map fun e => f e.1 e.2).sum + f k v := by
    intro l hl
    induction l with
    | nil => simp [setEntries]
    | cons e rest ih =>
        simp only [List.map_cons, List.mem_cons, not_or] at hl
        rw [setEntries, if_neg (Ne.symm hl.1)]
        simp only [List.map_cons, List.sum_cons, ih hl.2, add_assoc]
  exact haux d.entries h

/-- A present key's summand splits off the sum. -/
theorem sumOn_pop {d : Dict κ α} {k : κ} {v : α} (h : d.get? k = some v) :
    d.sumOn f = (d.pop k).sumOn f + f k v := by
  have haux : ∀ l : List (κ × α), (l.map Prod.fst).Nodup → (k, v) ∈ l →
      (l.map fun e => f e.1 e.2).sum
        = ((l.filter fun e => e.1 ≠ k).map fun e => f e.1 e.2).sum + f k v := by
    intro l hl hm
    induction l with
    | nil => simp at hm
    | cons e rest ih =>
        have hl' := List.nodup_cons.mp hl
        rcases List.mem_cons.mp hm with rfl | hm'
        · have hrest : (rest.filter fun e => e.1 ≠ k) = rest := by
            rw [List.filter_eq_self]
            intro e he
            have hne : e.1 ≠ k := fun hk => hl'.1 (List.mem_map.mpr ⟨e, he, hk⟩)
            simpa using hne
          rw [List.filter_cons_of_neg (by simp), hrest, List.map_cons, List.sum_cons, add_comm]
        · have hne : e.1 ≠ k := fun hk => hl'.1 (List.mem_map.mpr ⟨(k, v), hm', hk.symm⟩)
          rw [List.filter_cons_of_pos (by simpa using hne)]
          simp only [List.map_cons, List.sum_cons, ih hl'.2 hm', add_assoc]
  exact haux d.entries d.nodup_keys (get?_eq_some_iff.mp h)

end Sums

/-! ### Sums of integers -/

section IntSums

variable {f : κ → α → ℤ}

omit [DecidableEq κ] in
theorem sumOn_nonneg {d : Dict κ α} (h : ∀ e ∈ d.entries, 0 ≤ f e.1 e.2) : 0 ≤ d.sumOn f := by
  apply List.sum_nonneg
  intro x hx
  obtain ⟨e, he, rfl⟩ := List.mem_map.mp hx
  exact h e he

/-- One entry's summand is at most the sum, when no summand is negative. -/
theorem le_sumOn {d : Dict κ α} {k : κ} {v : α} (h : ∀ e ∈ d.entries, 0 ≤ f e.1 e.2)
    (hk : d.get? k = some v) : f k v ≤ d.sumOn f := by
  have hrest : 0 ≤ (d.pop k).sumOn f :=
    sumOn_nonneg fun e he => h e (List.mem_of_mem_filter he)
  rw [sumOn_pop f hk]
  omega

/-- A sum over some entries of a dictionary, each taken once, is at most the sum
over all, when no summand is negative. -/
theorem sum_le_sumOn {d : Dict κ α} {ι : Type*} {l : List ι} {key : ι → κ}
    {g : ι → ℤ} (hd : ∀ e ∈ d.entries, 0 ≤ f e.1 e.2) (hl : (l.map key).Nodup)
    (h : ∀ i ∈ l, ∃ v, d.get? (key i) = some v ∧ g i = f (key i) v) :
    (l.map g).sum ≤ d.sumOn f := by
  induction l generalizing d with
  | nil => exact sumOn_nonneg hd
  | cons i rest ih =>
      obtain ⟨hi, hrest⟩ := List.forall_mem_cons.mp h
      obtain ⟨hnot, hnodup⟩ := List.nodup_cons.mp hl
      obtain ⟨v, hv, hg⟩ := hi
      have hle : (rest.map g).sum ≤ (d.pop (key i)).sumOn f := by
        refine ih (fun e he => hd e (List.mem_of_mem_filter he)) hnodup fun i' hi' => ?_
        obtain ⟨v', hv', hg'⟩ := hrest i' hi'
        have hne : key i' ≠ key i := fun heq => hnot (heq ▸ List.mem_map_of_mem hi')
        exact ⟨v', by rw [get?_pop_ne _ hne, hv'], hg'⟩
      rw [List.map_cons, List.sum_cons, hg, sumOn_pop f hv]
      omega

end IntSums

end Dict
