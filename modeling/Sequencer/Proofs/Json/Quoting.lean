import Mathlib.Data.List.Basic
import Sequencer.Json.Token
import Sequencer.Proofs.Digits

/-!
# Texts between quotes

Whatever characters a text holds, what is written between quotes is read back as
that text, and reading stops right behind the closing quote.

The escapes come in three forms: a letter after a backslash, a code unit of four
digits, or the character itself.  `unquote_escape` says that one round of
`unquote` undoes each of them.  A round takes one character of the bound, and the
escaped text is at least as long as the text, so the bound never runs out.

## Main Results

* `codeUnit_of_control` — the digits of a control character are read back.
* `unquote_escape` — one character.
* `unquote_flatMap_escape` — all characters, up to the closing quote.
* `Reader.textBody_escaped` — the same for the reader.
-/

namespace Sequencer.Json

/-! ### Digits -/

/-- The value of a hexadecimal digit is the number that it was written for. -/
theorem hexValue?_hexDigit : ∀ n < 16, hexValue? (hexDigit n) = some n := by
  decide

/-- The two written digits of a number below 256 are read as that number. -/
theorem codeUnit_of_control {n : Nat} (h : n < 256) (rest : List Char) :
    codeUnit ('0' :: '0' :: hexDigit (n / 16) :: hexDigit (n % 16) :: rest) = .ok (n, rest) := by
  have hhigh := hexValue?_hexDigit (n / 16) (by omega)
  have hlow := hexValue?_hexDigit (n % 16) (by omega)
  have hzero : hexValue? '0' = some 0 := rfl
  have henough : ¬ Text.byteLength ['0', '0', hexDigit (n / 16), hexDigit (n % 16)] < 4 :=
    Nat.not_lt.mpr (Text.length_le_byteLength ['0', '0', hexDigit (n / 16), hexDigit (n % 16)])
  have hvalue : 0 * 4096 + 0 * 256 + n / 16 * 16 + n % 16 = n := by omega
  rw [codeUnit]
  simp only [List.take_succ_cons, List.take_zero, if_neg henough, hzero, hhigh, hlow, hvalue]

/-- A code unit below the surrogates stands for the character of that number. -/
theorem unicodeEscape_of_control {c : Char} (h : c.toNat < 0x20) (rest : List Char) :
    unicodeEscape
        ('0' :: '0' :: hexDigit (c.toNat / 16) :: hexDigit (c.toNat % 16) :: rest) =
      .ok (c, rest) := by
  have hlow : ¬ (0xDC00 ≤ c.toNat ∧ c.toNat ≤ 0xDFFF) := by omega
  have hhigh : ¬ (0xD800 ≤ c.toNat ∧ c.toNat ≤ 0xDBFF) := by omega
  rw [unicodeEscape, codeUnit_of_control (by omega)]
  simp only [if_neg hlow, if_neg hhigh, Char.ofNat_toNat]

/-! ### Characters -/

/-- After a backslash, the escape of a character is read as that character. -/
theorem unquote_backslash (b : Char) (bound : List Char) {c : Char} (code : List Char)
    {rest : List Char} (h : escaped (code ++ rest) = .ok (c, rest)) :
    unquote (b :: bound) ('\\' :: (code ++ rest)) =
      (unquote bound rest).map fun p => (c :: p.1, p.2) := by
  rw [unquote, if_neg (by decide), if_pos rfl, h]
  dsimp only
  cases unquote bound rest <;> rfl

/-- A character that needs no escape stands for itself. -/
theorem unquote_plain {c : Char} (b : Char) (bound rest : List Char) (hquote : c ≠ '"')
    (hbackslash : c ≠ '\\') (hcontrol : ¬ c.toNat < 0x20) :
    unquote (b :: bound) (c :: rest) = (unquote bound rest).map fun p => (c :: p.1, p.2) := by
  rw [unquote, if_neg hquote, if_neg hbackslash, if_neg hcontrol]
  cases unquote bound rest <;> rfl

/-- **One round of reading undoes one escape.** -/
theorem unquote_escape (b : Char) (bound : List Char) (c : Char) (rest : List Char) :
    unquote (b :: bound) (escape c ++ rest) =
      (unquote bound rest).map fun p => (c :: p.1, p.2) := by
  unfold escape
  split
  · exact unquote_backslash b bound ['"'] rfl
  · exact unquote_backslash b bound ['\\'] rfl
  · exact unquote_backslash b bound ['b'] rfl
  · exact unquote_backslash b bound ['f'] rfl
  · exact unquote_backslash b bound ['n'] rfl
  · exact unquote_backslash b bound ['r'] rfl
  · exact unquote_backslash b bound ['t'] rfl
  · rename_i hquote hbackslash _ _ _ _ _
    split
    · rename_i hcontrol
      exact unquote_backslash b bound
        ['u', '0', '0', hexDigit (c.toNat / 16), hexDigit (c.toNat % 16)]
        (unicodeEscape_of_control hcontrol rest)
    · rename_i hcontrol
      exact unquote_plain b bound rest hquote hbackslash hcontrol

/-! ### Whole texts -/

/-- A quoted text is its escaped characters between two quotes. -/
theorem quote_eq (s : String) : quote s = '"' :: (s.toList.flatMap escape ++ ['"']) := rfl

/-- Escaping leaves no character out. -/
theorem length_le_length_flatMap_escape (cs : List Char) :
    cs.length ≤ (cs.flatMap escape).length := by
  induction cs with
  | nil => exact Nat.le_refl 0
  | cons c cs ih =>
      have hc : 1 ≤ (escape c).length := by
        unfold escape
        repeat' split
        all_goals simp
      rw [List.flatMap_cons, List.length_append, List.length_cons]
      omega

/-- **Reading undoes escaping**, with any text after the closing quote. -/
theorem unquote_flatMap_escape (cs rest : List Char) {bound : List Char}
    (h : cs.length < bound.length) :
    unquote bound (cs.flatMap escape ++ '"' :: rest) = .ok (cs, rest) := by
  induction cs generalizing bound with
  | nil =>
      obtain ⟨b, bound, rfl⟩ := List.exists_cons_of_length_pos h
      rfl
  | cons c cs ih =>
      obtain ⟨b, bound, rfl⟩ := List.exists_cons_of_length_pos (Nat.zero_lt_of_lt h)
      rw [List.flatMap_cons, List.append_assoc, unquote_escape, ih (Nat.lt_of_succ_lt_succ h)]
      rfl

namespace Reader

/-- A text is read back from its escaped form and the closing quote. -/
theorem textBody_escaped (s : String) (depth : Nat) (rest : List Char) :
    textBody depth (s.toList.flatMap escape ++ '"' :: rest) = .ok (s, rest) := by
  have hbound : s.toList.length < (s.toList.flatMap escape ++ '"' :: rest).length := by
    have hle := length_le_length_flatMap_escape s.toList
    rw [List.length_append, List.length_cons]
    omega
  unfold textBody
  rw [unquote_flatMap_escape s.toList rest hbound]
  simp only [String.ofList_toList]

end Reader

end Sequencer.Json
