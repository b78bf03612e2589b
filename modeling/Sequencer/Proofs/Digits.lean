import Mathlib.Data.List.TakeWhile
import Sequencer.Text.Blank
import Sequencer.Text.Digits

/-!
# Digits and their values

The digits of a number are read as that number, also with zeros in front.

## Main Results

* `digitsValue_toDigits`, `digitsValue_padded` — the value of the digits of a number.
* `digitsValue_lt` — the value of any digits is bounded by their number.
* `length_padded` — the width of a padded number.
-/

namespace Sequencer.Text

theorem digitsValue_append (ds es : List Char) :
    digitsValue (ds ++ es) = Nat.pow 10 es.length * digitsValue ds + digitsValue es := by
  show Nat.ofDigitChars 10 (ds ++ es) 0 = _
  rw [Nat.ofDigitChars_append, Nat.ofDigitChars_eq_ofDigitChars_zero]
  rfl

/-- The digits of a number have its value. -/
theorem digitsValue_toDigits (n : Nat) : digitsValue (Nat.toDigits 10 n) = n :=
  Nat.ofDigitChars_ten_toDigits

/-- The value of some digits lies below the power of ten of their number. -/
theorem digitsValue_lt {ds : List Char} (h : ∀ c ∈ ds, c.isDigit = true) :
    digitsValue ds < Nat.pow 10 ds.length := by
  induction ds with
  | nil => exact Nat.one_pos
  | cons c ds ih =>
      obtain ⟨hc, hds⟩ := List.forall_mem_cons.mp h
      have hvalue : digitsValue [c] < 10 := by
        have hrange : 48 ≤ c.toNat ∧ c.toNat ≤ 57 := Char.isDigit_iff_toNat.mp hc
        show 10 * 0 + (c.toNat - 48) < 10
        omega
      have hsplit : digitsValue (c :: ds) =
          Nat.pow 10 ds.length * digitsValue [c] + digitsValue ds := digitsValue_append [c] ds
      have hpower : Nat.pow 10 (ds.length + 1) = Nat.pow 10 ds.length * 10 := rfl
      have hfirst : Nat.pow 10 ds.length * digitsValue [c] ≤ Nat.pow 10 ds.length * 9 :=
        Nat.mul_le_mul_left _ (Nat.le_of_lt_succ hvalue)
      have hrest := ih hds
      rw [hsplit, List.length_cons, hpower]
      omega

theorem isDigit_of_mem_padded {width n : Nat} {c : Char} (h : c ∈ padded width n) :
    c.isDigit = true := by
  rcases List.mem_append.mp h with hzero | hdigit
  · rw [List.eq_of_mem_replicate hzero]
    rfl
  · exact Nat.isDigit_of_mem_toDigits (by decide) (by decide) hdigit

/-- Zeros in front of a number do not change its value. -/
theorem digitsValue_padded (width n : Nat) : digitsValue (padded width n) = n := by
  have hzeros : ∀ k, digitsValue (List.replicate k '0') = 0 :=
    fun _ => Nat.ofDigitChars_replicate_zero
  unfold padded
  dsimp only
  rw [digitsValue_append, hzeros, digitsValue_toDigits, Nat.mul_zero, Nat.zero_add]

/-- A number that fits has the width it is padded to. -/
theorem length_padded {width n : Nat} (hwidth : 0 < width) (h : n < Nat.pow 10 width) :
    (padded width n).length = width := by
  have hfits : (Nat.toDigits 10 n).length ≤ width :=
    (Nat.length_toDigits_le_iff (by decide) hwidth).mpr h
  unfold padded
  rw [List.length_append, List.length_replicate, Nat.sub_add_cancel hfits]

theorem isBlank_of_isDigit {c : Char} (h : c.isDigit = true) : isBlank c = false := by
  have hrange : 48 ≤ c.toNat ∧ c.toNat ≤ 57 := Char.isDigit_iff_toNat.mp h
  have hranges : ∀ r ∈ blankRanges, r.2 < 48 ∨ 57 < r.1 := by decide
  unfold isBlank
  rw [List.any_eq_false]
  intro r hr
  have hr := hranges r hr
  simp only [Bool.and_eq_true, decide_eq_true_eq]
  omega

/-- No blanks stand in front of a padded number. -/
theorem dropBlanks_padded {width n : Nat} (hwidth : 0 < width) (h : n < Nat.pow 10 width)
    (rest : List Char) :
    ∃ d tail, padded width n ++ rest = d :: tail ∧ d.isDigit = true ∧
      dropBlanks (padded width n ++ rest) = padded width n ++ rest := by
  have hlength := length_padded hwidth h
  obtain ⟨d, ds, hds⟩ := List.exists_cons_of_length_pos (hlength.symm ▸ hwidth)
  have hdigit : d.isDigit = true := isDigit_of_mem_padded (hds ▸ List.mem_cons_self)
  refine ⟨d, ds ++ rest, by rw [hds, List.cons_append], hdigit, ?_⟩
  rw [hds, List.cons_append]
  exact List.dropWhile_cons_of_neg (by simp [isBlank_of_isDigit hdigit])

/-- A text has at least as many bytes as characters. -/
theorem length_le_byteLength (cs : List Char) : cs.length ≤ byteLength cs := by
  induction cs with
  | nil => exact Nat.le_refl 0
  | cons c cs ih =>
      have hpos : 0 < c.utf8Size := c.utf8Size_pos
      have hstep : byteLength (c :: cs) = c.utf8Size + byteLength cs := rfl
      rw [hstep, List.length_cons]
      omega

end Sequencer.Text
