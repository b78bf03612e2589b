import Sequencer.Proofs.Json.Spelling

/-!
# Well-formed values are skipped

The grammar of JSON texts, in any layout: words, numbers of any size, texts with any
escapes, lists and objects nested to any depth.  It does not mention a reader.  Where a
value is not asked for, every text of the grammar is passed over, up to its end and no
further.

The escapes of a text need not make characters, and the keys of an object may be
repeated.  The steps of `skip` are bounded by a text; each value, each comma and each
bracket has a character of its own, so a text never needs more steps than it has
characters.

## Main Definitions

* `IsText`, `IsNumber` — texts between quotes, and numbers.
* `WellFormed` — the texts of values.

## Main Results

* `skipText_parts`, `IsUnsigned.skip_eq` — texts and numbers.
* `skip_items`, `skip_fields` — the rest of a list or of an object.
* `WellFormed.takes_skipValue` — every well-formed value is skipped.
-/

namespace Sequencer.Json

/-! ### Texts between quotes -/

/-- Whether a character is a hexadecimal digit, of either case. -/
def IsHexDigit (c : Char) : Prop := c ∈ "0123456789abcdefABCDEF".toList

/-- What may stand for one character between quotes: the character itself unless it must
be escaped, a letter after a backslash, or a code unit of four digits. -/
inductive IsTextPart : List Char → Prop
  | plain {c : Char} (quote : c ≠ '"') (backslash : c ≠ '\\') (control : 0x20 ≤ c.toNat) :
      IsTextPart [c]
  | letter {c : Char} (letter : c ∈ ['"', '\\', '/', 'b', 'f', 'n', 'r', 't']) :
      IsTextPart ['\\', c]
  | unit {a b c d : Char} (digits : ∀ x ∈ [a, b, c, d], IsHexDigit x) :
      IsTextPart ['\\', 'u', a, b, c, d]

/-- A text between quotes. -/
def IsText (cs : List Char) : Prop :=
  ∃ parts : List (List Char), (∀ part ∈ parts, IsTextPart part) ∧
    cs = '"' :: (parts.flatten ++ ['"'])

theorem hexValue?_of_isHexDigit {c : Char} (h : IsHexDigit c) : ∃ n, hexValue? c = some n := by
  have hall : ∀ c ∈ "0123456789abcdefABCDEF".toList, (hexValue? c).isSome = true :=
    List.all_eq_true.mp rfl
  exact Option.isSome_iff_exists.mp (hall c h)

/-- Four hexadecimal digits are a code unit. -/
theorem exists_codeUnit_of_digits {a b c d : Char} (h : ∀ x ∈ [a, b, c, d], IsHexDigit x)
    (rest : List Char) : ∃ n, codeUnit (a :: b :: c :: d :: rest) = .ok (n, rest) := by
  obtain ⟨na, ha⟩ := hexValue?_of_isHexDigit (h a (by simp))
  obtain ⟨nb, hb⟩ := hexValue?_of_isHexDigit (h b (by simp))
  obtain ⟨nc, hc⟩ := hexValue?_of_isHexDigit (h c (by simp))
  obtain ⟨nd, hd⟩ := hexValue?_of_isHexDigit (h d (by simp))
  have henough : ¬ Text.byteLength [a, b, c, d] < 4 :=
    Nat.not_lt.mpr (Text.length_le_byteLength [a, b, c, d])
  refine ⟨na * 4096 + nb * 256 + nc * 16 + nd, ?_⟩
  rw [codeUnit]
  simp only [List.take_succ_cons, List.take_zero, if_neg henough, ha, hb, hc, hd]

/-- One round of skipping passes over one part. -/
theorem skipText_part {part : List Char} (h : IsTextPart part) (b : Char)
    (bound rest : List Char) :
    skipText (b :: bound) (part ++ rest) = skipText bound rest := by
  cases h with
  | plain hquote hbackslash hcontrol =>
      rw [List.singleton_append, skipText, if_neg hquote, if_neg hbackslash,
        if_neg (Nat.not_lt.mpr hcontrol)]
  | @letter c hletter =>
      have hknown : ∀ c ∈ ['"', '\\', '/', 'b', 'f', 'n', 'r', 't'],
          c ≠ 'u' ∧ (simpleEscape? c).isSome = true := by simp [simpleEscape?]
      obtain ⟨hunit, hsimple⟩ := hknown c hletter
      have hescape : skipEscape (c :: rest) = .ok ((), rest) := by
        rw [skipEscape, if_neg hunit, if_pos hsimple]
      show skipText (b :: bound) ('\\' :: c :: rest) = _
      rw [skipText, if_neg (by decide), if_pos rfl, hescape]
  | @unit w x y z hdigits =>
      obtain ⟨n, hn⟩ := exists_codeUnit_of_digits hdigits rest
      have hescape : skipEscape ('u' :: w :: x :: y :: z :: rest) = .ok ((), rest) := by
        rw [skipEscape, if_pos rfl, hn]
        rfl
      show skipText (b :: bound) ('\\' :: 'u' :: w :: x :: y :: z :: rest) = _
      rw [skipText, if_neg (by decide), if_pos rfl, hescape]

/-- **A text is passed over part by part**, up to the closing quote. -/
theorem skipText_parts {parts : List (List Char)} (h : ∀ part ∈ parts, IsTextPart part)
    {bound : List Char} (hbound : parts.length < bound.length) (rest : List Char) :
    skipText bound (parts.flatten ++ '"' :: rest) = .ok ((), rest) := by
  induction parts generalizing bound with
  | nil =>
      obtain ⟨b, bound, rfl⟩ := List.exists_cons_of_length_pos hbound
      rfl
  | cons part parts ih =>
      obtain ⟨b, bound, rfl⟩ := List.exists_cons_of_length_pos (Nat.zero_lt_of_lt hbound)
      obtain ⟨hpart, hparts⟩ := List.forall_mem_cons.mp h
      rw [List.flatten_cons, List.append_assoc, skipText_part hpart]
      exact ih hparts (Nat.lt_of_succ_lt_succ hbound)

/-- No part is without characters. -/
theorem length_le_length_flatten {parts : List (List Char)}
    (h : ∀ part ∈ parts, IsTextPart part) : parts.length ≤ parts.flatten.length := by
  induction parts with
  | nil => exact Nat.le_refl 0
  | cons part parts ih =>
      obtain ⟨hpart, hparts⟩ := List.forall_mem_cons.mp h
      have hpos : 0 < part.length := by cases hpart <;> simp
      have hmore := ih hparts
      rw [List.flatten_cons, List.length_append, List.length_cons]
      omega

/-- A text is passed over after its opening quote. -/
theorem IsText.skip_eq {cs : List Char} (h : IsText cs) :
    ∃ body, cs = '"' :: body ∧
      ∀ rest, skipText (body ++ rest) (body ++ rest) = .ok ((), rest) := by
  obtain ⟨parts, hparts, rfl⟩ := h
  refine ⟨_, rfl, fun rest => ?_⟩
  rw [List.append_assoc, List.singleton_append]
  refine skipText_parts hparts ?_ rest
  have hle := length_le_length_flatten hparts
  rw [List.length_append, List.length_cons]
  omega

/-! ### Numbers -/

/-- At least one decimal digit. -/
def IsDigits (cs : List Char) : Prop := cs ≠ [] ∧ ∀ c ∈ cs, c.isDigit = true

/-- The whole digits of a number: a zero stands alone. -/
def IsWhole (cs : List Char) : Prop := cs = ['0'] ∨ IsDigits cs ∧ cs.head? ≠ some '0'

/-- The fraction of a number, if it has one. -/
def IsFraction (cs : List Char) : Prop :=
  cs = [] ∨ ∃ digits, IsDigits digits ∧ cs = '.' :: digits

/-- The exponent of a number, if it has one. -/
def IsExponent (cs : List Char) : Prop :=
  cs = [] ∨ ∃ mark sign digits, (mark = 'e' ∨ mark = 'E') ∧
    (sign = [] ∨ sign = ['+'] ∨ sign = ['-']) ∧ IsDigits digits ∧ cs = mark :: (sign ++ digits)

/-- A number without its sign. -/
def IsUnsigned (cs : List Char) : Prop :=
  ∃ whole fraction exponent, IsWhole whole ∧ IsFraction fraction ∧ IsExponent exponent ∧
    cs = whole ++ (fraction ++ exponent)

/-- A number of any size. -/
def IsNumber (cs : List Char) : Prop :=
  IsUnsigned cs ∨ ∃ unsigned, IsUnsigned unsigned ∧ cs = '-' :: unsigned

/-- The text does not go on with a digit. -/
def NoDigit (cs : List Char) : Prop := ∀ c ∈ cs.head?, c.isDigit = false

theorem NoDigit.dropWhile_eq {cs : List Char} (h : NoDigit cs) :
    cs.dropWhile Char.isDigit = cs := by
  cases cs with
  | nil => rfl
  | cons c cs => exact List.dropWhile_cons_of_neg (by simp [h c rfl])

theorem NoDigit.takeWhile_eq {cs : List Char} (h : NoDigit cs) :
    cs.takeWhile Char.isDigit = [] := by
  cases cs with
  | nil => rfl
  | cons c cs => exact List.takeWhile_cons_of_neg (by simp [h c rfl])

/-- With what may follow a value no number goes on. -/
theorem Delimited.head_ne {c : Char} {rest : List Char} (h : Delimited rest)
    (hc : rest.head? = some c) : c.isDigit = false ∧ c ≠ '.' ∧ c ≠ 'e' ∧ c ≠ 'E' := by
  rcases h c hc with hblank | rfl | rfl | rfl
  · simp only [isBlank, Bool.or_eq_true, decide_eq_true_eq] at hblank
    rcases hblank with ((rfl | rfl) | rfl) | rfl <;> decide
  · decide
  · decide
  · decide

theorem Delimited.noDigit {rest : List Char} (h : Delimited rest) : NoDigit rest :=
  fun _ hc => (h.head_ne hc).1

/-- What stands where an exponent may stand is neither a digit nor a point. -/
theorem IsExponent.head_ne {cs rest : List Char} (h : IsExponent cs) (hrest : Delimited rest)
    {c : Char} (hc : (cs ++ rest).head? = some c) : c.isDigit = false ∧ c ≠ '.' := by
  rcases h with rfl | ⟨mark, sign, digits, hmark, -, -, rfl⟩
  · obtain ⟨hdigit, hpoint, -, -⟩ := hrest.head_ne hc
    exact ⟨hdigit, hpoint⟩
  · obtain rfl : mark = c := Option.some.inj hc
    rcases hmark with rfl | rfl <;> decide

theorem skipDigits_digits {digits rest : List Char} (h : IsDigits digits) (hrest : NoDigit rest) :
    skipDigits (digits ++ rest) = .ok ((), rest) := by
  obtain ⟨hne, hdigits⟩ := h
  obtain ⟨c, cs, rfl⟩ := List.exists_cons_of_ne_nil hne
  obtain ⟨hc, hcs⟩ := List.forall_mem_cons.mp hdigits
  rw [List.cons_append, skipDigits, if_pos hc, List.dropWhile_append_of_pos hcs,
    hrest.dropWhile_eq]

/-- The whole digits end where no digit follows. -/
theorem wholeDigits_whole {whole rest : List Char} (h : IsWhole whole) (hrest : NoDigit rest) :
    wholeDigits (whole ++ rest) = .ok (whole, rest) := by
  rcases h with rfl | ⟨⟨hne, hdigits⟩, hzero⟩
  · cases rest with
    | nil => rfl
    | cons d rest =>
        show (if d.isDigit = true then _ else _) = _
        rw [if_neg (by simp [hrest d rfl])]
        rfl
  · obtain ⟨c, cs, rfl⟩ := List.exists_cons_of_ne_nil hne
    obtain ⟨hc, hcs⟩ := List.forall_mem_cons.mp hdigits
    have hnonzero : c ≠ '0' := fun h => hzero (congrArg some h)
    unfold wholeDigits
    rw [List.cons_append]
    dsimp only
    rw [if_neg hnonzero, if_pos hc, List.dropWhile_append_of_pos hcs, hrest.dropWhile_eq,
      List.takeWhile_append_of_pos hcs, hrest.takeWhile_eq, List.append_nil]

theorem skipExponent_exponent {exponent rest : List Char} (h : IsExponent exponent)
    (hrest : Delimited rest) : skipExponent (exponent ++ rest) = .ok ((), rest) := by
  rcases h with rfl | ⟨mark, sign, digits, hmark, hsign, hdigits, rfl⟩
  · cases rest with
    | nil => rfl
    | cons c rest =>
        obtain ⟨-, -, hsmall, hlarge⟩ := hrest.head_ne rfl
        rw [List.nil_append, skipExponent, if_neg (not_or.mpr ⟨hsmall, hlarge⟩)]
  · have hskip := skipDigits_digits hdigits hrest.noDigit
    have hafter : (exponentSign (sign ++ (digits ++ rest))).2 = digits ++ rest := by
      rcases hsign with rfl | rfl | rfl
      · -- without a sign the first digit stands here, which is none
        obtain ⟨c, cs, rfl⟩ := List.exists_cons_of_ne_nil hdigits.1
        have hc := hdigits.2 c List.mem_cons_self
        rw [List.nil_append, List.cons_append]
        unfold exponentSign
        split
        · rename_i heq
          rw [(List.cons.inj heq).1] at hc
          cases hc
        · rename_i heq
          rw [(List.cons.inj heq).1] at hc
          cases hc
        · rfl
      · rfl
      · rfl
    rw [List.cons_append, skipExponent, if_pos hmark, List.append_assoc, hafter, hskip]

/-- **A number is passed over after its sign.** -/
theorem IsUnsigned.skip_eq {cs rest : List Char} (h : IsUnsigned cs) (hrest : Delimited rest) :
    skipNumber (cs ++ rest) = .ok ((), rest) := by
  obtain ⟨whole, fraction, exponent, hwhole, hfraction, hexponent, rfl⟩ := h
  have hexp := skipExponent_exponent hexponent hrest
  have hnodigit : NoDigit (exponent ++ rest) := fun c hc => (hexponent.head_ne hrest hc).1
  simp only [List.append_assoc]
  rcases hfraction with rfl | ⟨digits, hdigits, rfl⟩
  · have hds := wholeDigits_whole hwhole hnodigit
    rw [List.nil_append, skipNumber, hds]
    -- no point follows, so the number goes on with its exponent, if it has one
    split
    · rename_i heq
      cases heq
    · rename_i heq
      obtain ⟨-, hpoint⟩ := Prod.mk.inj (Except.ok.inj heq)
      exact absurd rfl (hexponent.head_ne hrest (congrArg List.head? hpoint)).2
    · rename_i heq
      rw [← (Prod.mk.inj (Except.ok.inj heq)).2, hexp]
  · have hpoint : NoDigit ('.' :: (digits ++ (exponent ++ rest))) := by
      intro c hc
      obtain rfl : '.' = c := Option.some.inj hc
      rfl
    have hds := wholeDigits_whole hwhole hpoint
    have hdigitsSkipped := skipDigits_digits hdigits hnodigit
    rw [List.cons_append, skipNumber, hds]
    simp only [hdigitsSkipped, hexp]

theorem IsWhole.exists_digit {cs : List Char} (h : IsWhole cs) :
    ∃ c tail, cs = c :: tail ∧ c.isDigit = true := by
  rcases h with rfl | ⟨⟨hne, hdigits⟩, -⟩
  · exact ⟨'0', [], rfl, rfl⟩
  · obtain ⟨c, tail, rfl⟩ := List.exists_cons_of_ne_nil hne
    exact ⟨c, tail, rfl, hdigits c List.mem_cons_self⟩

/-- A number starts with a digit. -/
theorem IsUnsigned.exists_digit {cs : List Char} (h : IsUnsigned cs) :
    ∃ c tail, cs = c :: tail ∧ c.isDigit = true := by
  obtain ⟨whole, fraction, exponent, hwhole, -, -, rfl⟩ := h
  obtain ⟨c, tail, rfl, hc⟩ := hwhole.exists_digit
  exact ⟨c, _, rfl, hc⟩

/-! ### The grammar -/

/-- The parts of a member of an object: its key, the blanks on both sides of the colon,
and its value. -/
structure MemberParts where
  key : List Char
  before : List Char
  after : List Char
  value : List Char

/-- The text of a member. -/
def MemberParts.text (m : MemberParts) : List Char :=
  m.key ++ (m.before ++ ':' :: (m.after ++ m.value))

/-- **The texts of values**, without blanks around them. -/
inductive WellFormed : List Char → Prop
  | null : WellFormed "null".toList
  | true : WellFormed "true".toList
  | false : WellFormed "false".toList
  | number {cs : List Char} (number : IsNumber cs) : WellFormed cs
  | text {cs : List Char} (text : IsText cs) : WellFormed cs
  | list {cs : List Char} {pieces : List (List Char)} (layout : Separated true cs pieces)
      (items : ∀ piece ∈ pieces, WellFormed piece) : WellFormed ('[' :: (cs ++ [']']))
  | object {cs : List Char} {members : List MemberParts}
      (layout : Separated true cs (members.map MemberParts.text))
      (keys : ∀ m ∈ members, IsText m.key ∧ Gap m.before ∧ Gap m.after)
      (values : ∀ m ∈ members, WellFormed m.value) : WellFormed ('\x7b' :: (cs ++ ['\x7d']))

theorem isBlank_of_isDigit {c : Char} (h : c.isDigit = true) : isBlank c = false := by
  by_contra hblank
  simp only [Bool.not_eq_false, isBlank, Bool.or_eq_true, decide_eq_true_eq] at hblank
  rcases hblank with ((rfl | rfl) | rfl) | rfl <;> cases h

theorem IsUnsigned.opens {cs : List Char} (h : IsUnsigned cs) : Opens cs := by
  obtain ⟨c, tail, rfl, hc⟩ := h.exists_digit
  refine ⟨c, tail, rfl, isBlank_of_isDigit hc, ?_⟩
  rintro rfl
  cases hc

theorem WellFormed.opens {cs : List Char} (h : WellFormed cs) : Opens cs := by
  cases h with
  | null => exact ⟨'n', _, rfl, rfl, by decide⟩
  | true => exact ⟨'t', _, rfl, rfl, by decide⟩
  | false => exact ⟨'f', _, rfl, rfl, by decide⟩
  | number hnumber =>
      rcases hnumber with hunsigned | ⟨unsigned, -, rfl⟩
      · exact hunsigned.opens
      · exact ⟨'-', _, rfl, rfl, by decide⟩
  | text htext =>
      obtain ⟨body, rfl, -⟩ := htext.skip_eq
      exact ⟨'"', _, rfl, rfl, by decide⟩
  | list layout items => exact ⟨'[', _, rfl, rfl, by decide⟩
  | object layout keys values => exact ⟨'\x7b', _, rfl, rfl, by decide⟩

/-! ### Skipping -/

/-- The text is passed over as a value, in as many steps as it has characters. -/
def Skipped (cs : List Char) : Prop :=
  ∀ bound gap rest : List Char, cs.length ≤ bound.length → Gap gap → Delimited rest →
    skip bound .value (gap ++ (cs ++ rest)) = .ok ((), rest)

/-- What is passed over after the first character of a value is passed over as a value. -/
theorem Skipped.of_cons {c : Char} {tail : List Char} (hc : isBlank c = false)
    (h : ∀ {b : Char} {bound rest : List Char}, tail.length ≤ bound.length → Delimited rest →
      skip (b :: bound) .value (c :: (tail ++ rest)) = .ok ((), rest)) :
    Skipped (c :: tail) := by
  intro bound gap rest hbound hgap hrest
  rw [List.length_cons] at hbound
  obtain ⟨b, bound, rfl⟩ := List.exists_cons_of_length_pos (Nat.lt_of_lt_of_le
    (Nat.succ_pos _) hbound)
  have hhere := h (b := b) (Nat.le_of_succ_le_succ hbound) hrest
  rw [List.cons_append]
  unfold skip at hhere ⊢
  rw [skipBlanks_gap_cons hgap hc]
  rw [skipBlanks_cons hc] at hhere
  exact hhere

theorem skipped_number {cs : List Char} (h : IsNumber cs) : Skipped cs := by
  rcases h with hunsigned | ⟨unsigned, hunsigned, rfl⟩
  · have hskip : ∀ rest, Delimited rest → skipNumber (cs ++ rest) = .ok ((), rest) :=
      fun _ => hunsigned.skip_eq
    obtain ⟨c, tail, rfl, hc⟩ := hunsigned.exists_digit
    refine Skipped.of_cons (isBlank_of_isDigit hc) fun {b bound rest} _ hrest => ?_
    unfold skip
    rw [skipBlanks_cons (isBlank_of_isDigit hc)]
    -- a digit is none of the other characters that a value may start with
    split
    · rename_i heq
      cases heq
    all_goals rename_i heq; obtain ⟨hfirst, rfl⟩ := List.cons.inj heq
    case h_9 => rw [← hfirst, if_pos hc]; exact hskip _ hrest
    all_goals rw [hfirst] at hc; cases hc
  · refine Skipped.of_cons rfl fun {b bound rest} _ hrest => ?_
    exact hunsigned.skip_eq hrest

theorem skipped_text {cs : List Char} (h : IsText cs) : Skipped cs := by
  obtain ⟨body, rfl, hskip⟩ := h.skip_eq
  exact Skipped.of_cons rfl fun {b bound rest} _ _ => hskip rest

/-- An item and the rest of its list are passed over one after the other. -/
theorem skipItem_of_skipped {piece : List Char} (h : Skipped piece)
    {bound gap tail rest : List Char} (hlength : piece.length ≤ bound.length) (hgap : Gap gap)
    (htail : Delimited tail) (hitems : skip bound .items tail = .ok ((), rest)) :
    skipItem (skip bound) (gap ++ (piece ++ tail)) = .ok ((), rest) := by
  rw [skipItem, h _ _ _ hlength hgap htail]
  exact hitems

/-- **The rest of a list is passed over**, up to and with its closing bracket. -/
theorem skip_items {cs : List Char} {pieces : List (List Char)}
    (h : Separated false cs pieces) (hpieces : ∀ piece ∈ pieces, 0 < piece.length ∧ Skipped piece)
    {bound : List Char} (hbound : cs.length < bound.length) (rest : List Char) :
    skip bound .items (cs ++ ']' :: rest) = .ok ((), rest) := by
  generalize hfirst : false = first at h
  induction h generalizing bound with
  | nil blank =>
      obtain ⟨b, bound, rfl⟩ := List.exists_cons_of_length_pos (Nat.zero_lt_of_lt hbound)
      unfold skip
      rw [skipBlanks_gap_cons blank rfl]
      rfl
  | @cons first before after piece tail pieces blankBefore blankAfter more ih =>
      subst hfirst
      obtain ⟨b, bound, rfl⟩ := List.exists_cons_of_length_pos (Nat.zero_lt_of_lt hbound)
      obtain ⟨⟨hpos, hpiece⟩, hrest⟩ := List.forall_mem_cons.mp hpieces
      have htail := length_tail_lt hpos hbound
      have hlength : piece.length ≤ bound.length := by
        simp only [separator, List.length_append, List.length_cons] at hbound
        omega
      have hitem := skipItem_of_skipped hpiece hlength blankAfter
        (more.delimited (Or.inl rfl) rest) (ih hrest htail rfl)
      simp only [List.append_assoc]
      unfold skip
      rw [separator, List.singleton_append, skipBlanks_gap_cons blankBefore rfl]
      exact hitem

theorem skipped_list {cs : List Char} {pieces : List (List Char)}
    (layout : Separated true cs pieces)
    (hpieces : ∀ piece ∈ pieces, Opens piece ∧ Skipped piece) :
    Skipped ('[' :: (cs ++ [']'])) := by
  refine Skipped.of_cons rfl fun {b bound rest} hbound _ => ?_
  rw [List.length_append, List.length_singleton] at hbound
  rw [List.append_assoc, List.singleton_append]
  show skipList (skip bound) (cs ++ ']' :: rest) = _
  cases layout with
  | nil blank =>
      rw [skipList, skipBlanks_gap_cons blank rfl]
      rfl
  | @cons _ before after piece tail pieces blankBefore blankAfter more =>
      obtain ⟨⟨hopens, hpiece⟩, hrest⟩ := List.forall_mem_cons.mp hpieces
      have hlengths : piece.length ≤ bound.length ∧ tail.length < bound.length := by
        simp only [separator, List.length_append, List.length_nil] at hbound
        omega
      have hitems := skip_items more
        (fun p hp => ⟨(hrest p hp).1.length_pos, (hrest p hp).2⟩) hlengths.2 rest
      have hitem := skipItem_of_skipped hpiece hlengths.1 gap_nil
        (more.delimited (Or.inl rfl) rest) hitems
      obtain ⟨c, code, rfl, hc, hclose⟩ := hopens
      simp only [separator, List.append_assoc, List.nil_append, List.cons_append] at hitem ⊢
      rw [skipList, skipBlanks_gap blankBefore, skipBlanks_gap_cons blankAfter hc]
      split
      · rename_i heq
        cases heq
      · rename_i heq
        exact absurd (List.cons.inj heq).1 hclose
      · exact hitem

/-- A member and the rest of its object are passed over one after the other. -/
theorem skipField_of_skipped {m : MemberParts} (hkey : IsText m.key) (hbefore : Gap m.before)
    (hafter : Gap m.after) (hvalue : Skipped m.value) {bound gap tail rest : List Char}
    (hlength : m.value.length ≤ bound.length) (hgap : Gap gap) (htail : Delimited tail)
    (hfields : skip bound .fields tail = .ok ((), rest)) :
    skipField (skip bound) (gap ++ (m.text ++ tail)) = .ok ((), rest) := by
  obtain ⟨body, hbody, hskip⟩ := hkey.skip_eq
  simp only [MemberParts.text, hbody, List.append_assoc, List.cons_append]
  have hcolon := skipBlanks_gap_cons hbefore (c := ':') rfl (m.after ++ (m.value ++ tail))
  have hpass := hvalue bound m.after tail hlength hafter htail
  rw [skipField, skipBlanks_gap_cons hgap rfl]
  simp only [hskip, hcolon, hpass, hfields]

theorem MemberParts.length_value_lt (m : MemberParts) : m.value.length < m.text.length := by
  simp only [MemberParts.text, List.length_append, List.length_cons]
  omega

/-- **The rest of an object is passed over**, up to and with its closing brace. -/
theorem skip_fields {cs : List Char} {members : List MemberParts}
    (h : Separated false cs (members.map MemberParts.text))
    (hmembers : ∀ m ∈ members, (IsText m.key ∧ Gap m.before ∧ Gap m.after) ∧ Skipped m.value)
    {bound : List Char} (hbound : cs.length < bound.length) (rest : List Char) :
    skip bound .fields (cs ++ '\x7d' :: rest) = .ok ((), rest) := by
  generalize hfirst : false = first at h
  generalize hpieces : members.map MemberParts.text = pieces at h
  induction h generalizing bound members with
  | nil blank =>
      obtain ⟨b, bound, rfl⟩ := List.exists_cons_of_length_pos (Nat.zero_lt_of_lt hbound)
      unfold skip
      rw [skipBlanks_gap_cons blank rfl]
      rfl
  | @cons first before after piece tail pieces blankBefore blankAfter more ih =>
      subst hfirst
      obtain ⟨m, members, rfl, rfl, rfl⟩ := List.map_eq_cons_iff.mp hpieces
      obtain ⟨b, bound, rfl⟩ := List.exists_cons_of_length_pos (Nat.zero_lt_of_lt hbound)
      obtain ⟨⟨⟨hkey, hbefore, hafter⟩, hvalue⟩, hrest⟩ := List.forall_mem_cons.mp hmembers
      have hvaluelt := m.length_value_lt
      have htail := length_tail_lt (Nat.zero_lt_of_lt hvaluelt) hbound
      have hlength : m.value.length ≤ bound.length := by
        simp only [separator, List.length_append, List.length_cons] at hbound
        omega
      have hfield := skipField_of_skipped hkey hbefore hafter hvalue hlength blankAfter
        (more.delimited (Or.inr rfl) rest) (ih hrest htail rfl rfl)
      simp only [List.append_assoc]
      unfold skip
      rw [separator, List.singleton_append, skipBlanks_gap_cons blankBefore rfl]
      exact hfield

theorem skipped_object {cs : List Char} {members : List MemberParts}
    (layout : Separated true cs (members.map MemberParts.text))
    (hmembers : ∀ m ∈ members, (IsText m.key ∧ Gap m.before ∧ Gap m.after) ∧ Skipped m.value) :
    Skipped ('\x7b' :: (cs ++ ['\x7d'])) := by
  refine Skipped.of_cons rfl fun {b bound rest} hbound _ => ?_
  rw [List.length_append, List.length_singleton] at hbound
  rw [List.append_assoc, List.singleton_append]
  show skipObject (skip bound) (cs ++ '\x7d' :: rest) = _
  generalize hpieces : members.map MemberParts.text = pieces at layout
  cases layout with
  | nil blank =>
      rw [skipObject, skipBlanks_gap_cons blank rfl]
      rfl
  | @cons _ before after piece tail pieces blankBefore blankAfter more =>
      obtain ⟨m, members, rfl, rfl, rfl⟩ := List.map_eq_cons_iff.mp hpieces
      obtain ⟨⟨⟨hkey, hbefore, hafter⟩, hvalue⟩, hrest⟩ := List.forall_mem_cons.mp hmembers
      have hvaluelt := m.length_value_lt
      have hlengths : m.value.length ≤ bound.length ∧ tail.length < bound.length := by
        simp only [separator, List.length_append, List.length_nil] at hbound
        omega
      have hfield := skipField_of_skipped hkey hbefore hafter hvalue hlengths.1 gap_nil
        (more.delimited (Or.inr rfl) rest) (skip_fields more hrest hlengths.2 rest)
      obtain ⟨body, hbody, -⟩ := hkey.skip_eq
      simp only [separator, MemberParts.text, hbody, List.append_assoc, List.nil_append,
        List.cons_append] at hfield ⊢
      rw [skipObject, skipBlanks_gap blankBefore, skipBlanks_gap_cons blankAfter rfl]
      exact hfield

theorem WellFormed.skipped {cs : List Char} (h : WellFormed cs) : Skipped cs := by
  induction h with
  | null => exact Skipped.of_cons rfl fun _ _ => rfl
  | true => exact Skipped.of_cons rfl fun _ _ => rfl
  | false => exact Skipped.of_cons rfl fun _ _ => rfl
  | number hnumber => exact skipped_number hnumber
  | text htext => exact skipped_text htext
  | list layout items ih => exact skipped_list layout fun p hp => ⟨(items p hp).opens, ih p hp⟩
  | object layout keys values ih => exact skipped_object layout fun m hm => ⟨keys m hm, ih m hm⟩

/-- **Every well-formed value is skipped**, however deep it is nested. -/
theorem WellFormed.takes_skipValue {cs : List Char} (h : WellFormed cs) :
    Reader.Takes Reader.skipValue 0 cs () := by
  refine ⟨h.opens, fun {depth gap rest} _ hgap hrest => h.skipped _ _ _ ?_ hgap hrest⟩
  simp only [List.length_append]
  omega

end Sequencer.Json
