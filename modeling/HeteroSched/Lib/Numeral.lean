/-
HeteroSched/Lib/Numeral.lean

Numerals whose lexicographic order is the order of the numbers.

Design.  A number below a bound is written as a list (`Ascending`: a larger number
is written as a larger list).  A quotient in a fixed width followed by a remainder
is such a numeral again (`Ascending.append`), which gives zero-padded decimals
digit by digit and mixed radices, like a time of day, part by part.  A decimal of a
known width is read back where other text follows (`readNumber_padded`).  Text in
ASCII keeps the order when its bytes are compared (`bytes_lt`).
-/
import Mathlib.Tactic

namespace Numeral

/-! ### Lists in order -/

section Lists

variable {α β : Type*} [LT α] [LT β]

theorem append_lt_append_left (p : List α) {s t : List α} (h : s < t) : p ++ s < p ++ t := by
  induction p with
  | nil => exact h
  | cons a p ih => exact List.Lex.cons ih

/-- Where two lists of one length differ, what follows them does not matter. -/
theorem append_lt_append_of_lt {p q : List α} (hlen : p.length = q.length) (h : p < q)
    (s t : List α) : p ++ s < q ++ t := by
  induction h with
  | nil => exact absurd hlen (by simp)
  | cons _ ih => exact List.Lex.cons (ih (Nat.succ.inj hlen))
  | rel hab => exact List.Lex.rel hab

theorem map_lt_map {f : α → β} {l l' : List α} (hf : ∀ a ∈ l, ∀ b ∈ l', a < b → f a < f b)
    (h : l < l') : l.map f < l'.map f := by
  induction h with
  | nil => exact List.Lex.nil
  | cons _ ih =>
      refine List.Lex.cons (ih fun a ha b hb => ?_)
      exact hf a (List.mem_cons_of_mem _ ha) b (List.mem_cons_of_mem _ hb)
  | rel hab => exact List.Lex.rel (hf _ List.mem_cons_self _ List.mem_cons_self hab)

end Lists

/-! ### Numerals -/

section Ascending

variable {α : Type*} [LT α]

/-- Of numbers below the bound, the larger one is written as the larger list. -/
def Ascending (bound : ℕ) (f : ℕ → List α) : Prop := ∀ m n, m < n → n < bound → f m < f n

variable {b c w : ℕ} {f g : ℕ → List α}

/-- A quotient of a fixed width, followed by the remainder. -/
theorem Ascending.append (hf : Ascending b f) (hwidth : ∀ n < b, (f n).length = w)
    (hg : Ascending c g) : Ascending (b * c) fun n => f (n / c) ++ g (n % c) := by
  intro m n hlt hn
  have hc : 0 < c := by
    rcases Nat.eq_zero_or_pos c with rfl | hc
    · exact absurd hn (Nat.not_lt_zero n)
    · exact hc
  have hnb : n / c < b := (Nat.div_lt_iff_lt_mul hc).mpr hn
  have hle : m / c ≤ n / c := Nat.div_le_div_right hlt.le
  rcases hle.lt_or_eq with hquot | hquot
  · refine append_lt_append_of_lt ?_ (hf _ _ hquot hnb) _ _
    rw [hwidth _ (hquot.trans hnb), hwidth _ hnb]
  · show f (m / c) ++ g (m % c) < f (n / c) ++ g (n % c)
    rw [hquot]
    refine append_lt_append_left _ (hg _ _ ?_ (Nat.mod_lt n hc))
    have hm := Nat.div_add_mod m c
    have hn' := Nat.div_add_mod n c
    rw [hquot] at hm
    omega

end Ascending

/-! ### Decimals -/

/-- The digit of a number below ten. -/
def digit (n : ℕ) : Char := Char.ofNat (48 + n)

/-- The decimal of a number with at most `w` digits, padded with zeros to `w`. -/
def padded : ℕ → ℕ → List Char
  | 0, _ => []
  | w + 1, n => padded w (n / 10) ++ [digit (n % 10)]

@[simp] theorem length_padded (w n : ℕ) : (padded w n).length = w := by
  induction w generalizing n with
  | zero => rfl
  | succ w ih => rw [padded, List.length_append, ih, List.length_singleton]

theorem ascending_digit : Ascending 10 fun n => [digit n] := by
  have hdigit : ∀ n < 10, ∀ m < n, digit m < digit n := by decide
  exact fun m n hlt hn => List.Lex.rel (hdigit n hn m hlt)

theorem ascending_padded (w : ℕ) : Ascending (10 ^ w) (padded w) := by
  induction w with
  | zero =>
      intro m n hlt hn
      rw [pow_zero] at hn
      omega
  | succ w ih => exact ih.append (fun n _ => length_padded w n) ascending_digit

/-! ### Reading decimals -/

/-- The value of a digit. -/
def digitValue (c : Char) : Option ℕ := if c.isDigit then some (c.toNat - 48) else none

/-- The number of a list of digits. -/
def number (l : List Char) : Option ℕ :=
  l.foldlM (fun acc c => (digitValue c).map fun d => acc * 10 + d) 0

/-- A number of `w` digits and what follows it. -/
def readNumber (w : ℕ) (l : List Char) : Option (ℕ × List Char) :=
  if w ≤ l.length then (number (l.take w)).map fun n => (n, l.drop w) else none

theorem isDigit_digit {n : ℕ} (h : n < 10) : (digit n).isDigit = true := by
  revert n
  decide

theorem digitValue_digit {n : ℕ} (h : n < 10) : digitValue (digit n) = some n := by
  revert n
  decide

theorem isDigit_padded (w n : ℕ) : ∀ c ∈ padded w n, c.isDigit = true := by
  induction w generalizing n with
  | zero => exact fun c hc => absurd hc List.not_mem_nil
  | succ w ih =>
      intro c hc
      rcases List.mem_append.mp hc with hc | hc
      · exact ih (n / 10) c hc
      · obtain rfl := List.mem_singleton.mp hc
        exact isDigit_digit (Nat.mod_lt n (by norm_num))

/-- What was padded is the number again. -/
theorem number_padded {w n : ℕ} (h : n < 10 ^ w) : number (padded w n) = some n := by
  induction w generalizing n with
  | zero =>
      rw [pow_zero] at h
      obtain rfl : n = 0 := by omega
      rfl
  | succ w ih =>
      have hquot : n / 10 < 10 ^ w := by
        rw [Nat.div_lt_iff_lt_mul (by norm_num), ← pow_succ]
        exact h
      have hprefix : number (padded w (n / 10)) = some (n / 10) := ih hquot
      unfold number at hprefix ⊢
      rw [padded, List.foldlM_append, hprefix]
      show ((digitValue (digit (n % 10))).map fun d => n / 10 * 10 + d).bind _ = _
      rw [digitValue_digit (Nat.mod_lt n (by norm_num)), Option.map_some, Nat.div_add_mod']
      rfl

theorem readNumber_padded {w n : ℕ} (h : n < 10 ^ w) (rest : List Char) :
    readNumber w (padded w n ++ rest) = some (n, rest) := by
  have hlength := length_padded w n
  rw [readNumber, if_pos (by rw [List.length_append]; omega), List.take_left' hlength,
    List.drop_left' hlength, number_padded h]
  rfl

/-! ### Bytes -/

/-- The bytes of a text, in UTF-8. -/
def bytes (s : String) : List UInt8 := s.toByteArray.data.toList

/-- All characters are ASCII. -/
def IsAscii (l : List Char) : Prop := ∀ c ∈ l, c.toNat < 128

instance (l : List Char) : Decidable (IsAscii l) :=
  List.decidableBAll (fun c : Char => c.toNat < 128) l

theorem isAscii_append {l l' : List Char} : IsAscii (l ++ l') ↔ IsAscii l ∧ IsAscii l' :=
  List.forall_mem_append

theorem isAscii_padded (w n : ℕ) : IsAscii (padded w n) := by
  have hdigit : ∀ n < 10, (digit n).toNat < 128 := by decide
  induction w generalizing n with
  | zero => exact fun c hc => absurd hc List.not_mem_nil
  | succ w ih =>
      refine isAscii_append.mpr ⟨ih (n / 10), fun c hc => ?_⟩
      obtain rfl := List.mem_singleton.mp hc
      exact hdigit _ (Nat.mod_lt n (by norm_num))

theorem bytes_ofList {l : List Char} (h : IsAscii l) :
    bytes (String.ofList l) = l.map fun c => UInt8.ofNat c.toNat := by
  rw [bytes, String.toByteArray_ofList, List.utf8Encode, List.toList_data_toByteArray]
  induction l with
  | nil => rfl
  | cons c l ih =>
      obtain ⟨hc, hl⟩ := List.forall_mem_cons.mp h
      have hone : String.utf8EncodeChar c = [UInt8.ofNat c.toNat] := by
        rw [String.utf8EncodeChar]
        exact if_pos (Nat.lt_succ_iff.mp hc)
      rw [List.flatMap_cons, hone, ih hl, List.map_cons, List.singleton_append]

/-- Text in ASCII is ordered by its bytes as by its characters. -/
theorem bytes_lt {l l' : List Char} (h : IsAscii l) (h' : IsAscii l') (hlt : l < l') :
    bytes (String.ofList l) < bytes (String.ofList l') := by
  rw [bytes_ofList h, bytes_ofList h']
  refine map_lt_map (fun a ha b hb hab => ?_) hlt
  have hcode : ∀ c : Char, c.toNat < 128 → (UInt8.ofNat c.toNat).toNat = c.toNat :=
    fun c hc => UInt8.toNat_ofNat_of_lt' (hc.trans (by decide))
  rw [UInt8.lt_iff_toNat_lt, hcode a (h a ha), hcode b (h' b hb)]
  exact hab

end Numeral
