import Sequencer.Proofs.Digits
import Sequencer.Proofs.Json.Cuts

/-!
# Numbers that are cut off

Each beginning of the digits of a natural number, if it has any digit, is again a
natural number, and not a greater one.  So a number that is within bounds stays within
bounds where it is cut off, and the reader is loose on it.

## Main Results

* `isWhole_toDigits` — the digits of a number have no zero in front.
* `number_whole` — whole digits are read as their value.
* `Reader.looseOn_natural` — the reader of natural numbers is loose on their digits.
-/

namespace Sequencer.Json

open Sequencer.Text

/-! ### Digits -/

/-- The first digit of a positive number is not zero. -/
theorem head?_toDigits_ne {n : Nat} (h : 0 < n) : (Nat.toDigits 10 n).head? ≠ some '0' := by
  induction n using Nat.strongRecOn with
  | ind n ih =>
      by_cases hsmall : n < 10
      · rw [Nat.toDigits_of_lt_base hsmall, List.head?_cons]
        intro heq
        have hzero := Nat.digitChar_eq_zero.mp (Option.some.inj heq)
        omega
      · -- the last digit is not the first one
        rw [Nat.toDigits_of_base_le (by decide) (Nat.not_lt.mp hsmall),
          List.head?_append_of_ne_nil _ Nat.toDigits_ne_nil]
        exact ih (n / 10) (by omega) (by omega)

theorem isWhole_toDigits (n : Nat) : IsWhole (Nat.toDigits 10 n) := by
  rcases Nat.eq_zero_or_pos n with rfl | hpos
  · exact Or.inl rfl
  · have hdigits : ∀ c ∈ Nat.toDigits 10 n, c.isDigit = true :=
      fun _ => Nat.isDigit_of_mem_toDigits (by decide) (by decide)
    exact Or.inr ⟨⟨Nat.toDigits_ne_nil, hdigits⟩, head?_toDigits_ne hpos⟩

/-- Each beginning of whole digits that has a digit consists of whole digits. -/
theorem IsWhole.of_append {ds es : List Char} (h : IsWhole (ds ++ es)) (hne : ds ≠ []) :
    IsWhole ds := by
  rcases h with hzero | ⟨⟨-, hdigits⟩, hhead⟩
  · rcases List.append_eq_singleton_iff.mp hzero with ⟨rfl, -⟩ | ⟨hds, -⟩
    · exact absurd rfl hne
    · exact Or.inl hds
  · rw [List.head?_append_of_ne_nil _ hne] at hhead
    exact Or.inr ⟨⟨hne, fun c hc => hdigits c (List.mem_append_left es hc)⟩, hhead⟩

/-- A beginning of digits has no greater value. -/
theorem digitsValue_le_append (ds es : List Char) : digitsValue ds ≤ digitsValue (ds ++ es) := by
  rw [digitsValue_append]
  have hpos : 0 < Nat.pow 10 es.length := Nat.pow_pos (by decide)
  exact Nat.le_trans (Nat.le_mul_of_pos_left _ hpos) (Nat.le_add_right _ _)

/-! ### Numbers -/

/-- **Whole digits are read as their value**, if that is kept exactly. -/
theorem number_whole {ds rest : List Char} (h : IsWhole ds) (hrest : Delimited rest)
    (hvalue : digitsValue ds ≤ maxNatural) :
    number false (ds ++ rest) = .ok (.natural (digitsValue ds), rest) := by
  have hinteger : ∀ significand power,
      integer? false (digitsValue ds) significand power = some (.natural (digitsValue ds)) :=
    fun _ _ => if_pos ⟨rfl, hvalue⟩
  unfold number
  rw [wholeDigits_whole h hrest.noDigit]
  dsimp only
  -- neither a point nor an exponent follows
  split
  · exact absurd rfl (hrest.head_ne rfl).2.1
  · exact absurd rfl (hrest.head_ne rfl).2.2.1
  · exact absurd rfl (hrest.head_ne rfl).2.2.2
  · rw [hinteger]

namespace Reader

/-- Whole digits below the bound are read as their value. -/
theorem natural_whole {bound : Nat} (depth : Nat) (expected : String) (hbound : bound ≤ maxNatural)
    {ds rest gap : List Char} (h : IsWhole ds) (hgap : Gap gap) (hrest : Delimited rest)
    (hvalue : digitsValue ds < bound) :
    natural bound expected depth (gap ++ (ds ++ rest)) = .ok (digitsValue ds, rest) := by
  have hnumber := number_whole h hrest (Nat.le_trans (Nat.le_of_lt hvalue) hbound)
  obtain ⟨c, tail, rfl, hc⟩ := h.exists_digit
  have hminus : c ≠ '-' := by
    rintro rfl
    cases hc
  have hchecked : checkNatural bound expected (.natural (digitsValue (c :: tail))) =
      .ok (digitsValue (c :: tail)) := if_pos hvalue
  have hbody : numberBody false depth (c :: (tail ++ rest)) =
      .ok (.natural (digitsValue (c :: tail)), rest) := hnumber
  unfold natural
  rw [List.cons_append, startingWith_gap _ depth hgap (isBlank_of_isDigit hc), if_neg hminus, hc]
  refine (bind_of_ok hbody).trans ?_
  rw [hchecked]
  rfl

/-- **The reader of natural numbers is loose on their digits.** -/
theorem looseOn_natural {bound n : Nat} (expected : String) (hbound : bound ≤ maxNatural)
    (h : n < bound) : LooseOn (natural bound expected) 0 (Nat.toDigits 10 n) n := by
  refine ⟨fun {depth gap rest} _ hgap hrest p more hp => ?_⟩
  have hblank : ∀ p, Gap p → natural bound expected depth p = .error .endOfText := by
    intro p hp
    unfold natural startingWith
    rw [hp.skipBlanks_eq_nil]
  have hwhole := isWhole_toDigits n
  have hvalue := digitsValue_toDigits n
  rcases List.append_eq_append_iff.mp hp with ⟨left, hleft, -⟩ | ⟨q, rfl, hq⟩
  · -- cut off among the blanks
    refine Or.inl (hblank p fun c hc => hgap c ?_)
    rw [hleft]
    exact List.mem_append_left left hc
  · rcases List.append_eq_append_iff.mp hq with ⟨q', rfl, hmore⟩ | ⟨left, hleft, -⟩
    · -- cut off behind the number
      have hq' : Delimited q' := Delimited.of_append (hmore ▸ hrest)
      have hread := natural_whole depth expected hbound hwhole hgap hq' (hvalue.symm ▸ h)
      rw [hvalue] at hread
      exact Or.inr (Or.inr ⟨q', hmore.symm, hread⟩)
    · -- cut off among the digits
      by_cases hnil : q = []
      · subst hnil
        rw [List.append_nil]
        exact Or.inl (hblank gap hgap)
      · have hle : digitsValue q ≤ n := by
          rw [← hvalue, hleft]
          exact digitsValue_le_append q left
        have hread := natural_whole depth expected hbound
          (IsWhole.of_append (hleft ▸ hwhole) hnil) hgap delimited_nil (Nat.lt_of_le_of_lt hle h)
        rw [List.append_nil] at hread
        exact Or.inr (Or.inl ⟨digitsValue q, hread⟩)

end Reader

end Sequencer.Json
