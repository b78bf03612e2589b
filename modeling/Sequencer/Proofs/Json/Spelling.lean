import Mathlib.Data.List.Forall2
import Sequencer.Json.Typed
import Sequencer.Proofs.Json.Quoting

/-!
# Which texts a reader takes

A reader *takes* a text as a value if it reads the value from that text whatever
stands around it: blanks in front, and anything behind that cannot continue the
text.  Readers are built from smaller ones, and this module says for each way of
building them which texts the whole takes, given what its parts take.

Lists, maps and records have one layout in common: pieces set apart by commas,
with blanks around them (`Separated`).  A piece of an object is a key with a value
(`Member`).  Nothing is fixed about the blanks, so that texts of any layout are
covered.  The loops of the readers follow the pieces.  Each piece has at least one
character, so the text that bounds a loop is never shorter than the number of
rounds.

## Main Definitions

* `Gap`, `Opens`, `Delimited` — blanks, the start of a value, what may follow a value.
* `Reader.Takes` — a reader takes a text as a value.
* `Separated`, `Member` — the pieces of a list or an object.
* `Shape.Fills` — the members of an object turn one draft of a record into another.

## Main Results

* `Reader.items_separated`, `Reader.entries_separated`, `Shape.object_separated` —
  the three loops.
* `Reader.Takes.list`, `Reader.Takes.map`, `Reader.Takes.record` — the readers.
* `Reader.Takes.readAll_gaps` — a text that is taken is read as a whole.
-/

namespace Sequencer.Json

variable {α β κ σ : Type}

/-! ### Blanks -/

/-- Blanks only. -/
def Gap (cs : List Char) : Prop := ∀ c ∈ cs, isBlank c = true

theorem gap_nil : Gap [] := List.forall_mem_nil _

theorem skipBlanks_gap {gap : List Char} (h : Gap gap) (cs : List Char) :
    skipBlanks (gap ++ cs) = skipBlanks cs :=
  List.dropWhile_append_of_pos h

theorem Gap.skipBlanks_eq_nil {gap : List Char} (h : Gap gap) : skipBlanks gap = [] := by
  rw [← List.append_nil gap]
  exact skipBlanks_gap h []

theorem skipBlanks_cons {c : Char} (h : isBlank c = false) (cs : List Char) :
    skipBlanks (c :: cs) = c :: cs :=
  List.dropWhile_cons_of_neg (by simp [h])

/-- Blanks are skipped up to the first character that is none. -/
theorem skipBlanks_gap_cons {gap : List Char} (h : Gap gap) {c : Char} (hc : isBlank c = false)
    (cs : List Char) : skipBlanks (gap ++ c :: cs) = c :: cs := by
  rw [skipBlanks_gap h, skipBlanks_cons hc]

/-- The text of a value starts here: with no blank, and with no closing bracket. -/
def Opens (cs : List Char) : Prop :=
  ∃ c tail, cs = c :: tail ∧ isBlank c = false ∧ c ≠ ']'

theorem opens_quote (s : String) : Opens (quote s) :=
  ⟨'"', _, rfl, rfl, by decide⟩

theorem Opens.length_pos {cs : List Char} (h : Opens cs) : 0 < cs.length := by
  obtain ⟨c, tail, rfl, -, -⟩ := h
  exact Nat.succ_pos _

/-- What may follow a value: nothing, a blank, a comma or a closing bracket. -/
def Delimited (rest : List Char) : Prop :=
  ∀ c ∈ rest.head?, isBlank c = true ∨ c = ',' ∨ c = ']' ∨ c = '\x7d'

theorem delimited_nil : Delimited [] := by
  intro c hc
  cases hc

theorem delimited_cons {c : Char} (h : isBlank c = true ∨ c = ',' ∨ c = ']' ∨ c = '\x7d')
    (rest : List Char) : Delimited (c :: rest) := by
  intro d hd
  obtain rfl : c = d := Option.some.inj hd
  exact h

theorem Gap.delimited_append {gap rest : List Char} (h : Gap gap) (hrest : Delimited rest) :
    Delimited (gap ++ rest) := by
  cases gap with
  | nil => exact hrest
  | cons c gap => exact delimited_cons (Or.inl (h c List.mem_cons_self)) _

theorem Gap.delimited {gap : List Char} (h : Gap gap) : Delimited gap := by
  rw [← List.append_nil gap]
  exact h.delimited_append delimited_nil

/-! ### Readers -/

namespace Reader

/-- The second of two readers goes on where the first has stopped. -/
theorem bind_of_ok {r : Reader α} {f : α → Reader β} {depth : Nat} {cs rest : List Char} {a : α}
    (h : r depth cs = .ok (a, rest)) : (r >>= f) depth cs = f a depth rest := by
  simp only [bind, h]

theorem startingWith_gap (r : Char → Reader α) (depth : Nat) {gap : List Char} (h : Gap gap)
    {c : Char} (hc : isBlank c = false) (cs : List Char) :
    startingWith r depth (gap ++ c :: cs) = r c depth cs := by
  unfold startingWith
  rw [skipBlanks_gap_cons h hc]

/-- A text is read as a whole if blanks alone are left of it. -/
theorem readAll_of_gap {r : Reader α} {text : String} {a : α} {rest : List Char}
    (h : r maxNesting text.toList = .ok (a, rest)) (hrest : Gap rest) :
    readAll r text = .ok a := by
  unfold readAll
  rw [h]
  show (if (skipBlanks rest).isEmpty then Except.ok a else _) = _
  rw [hrest.skipBlanks_eq_nil]
  rfl

/-- **The reader takes the text as the value `a`**, where at least `n` more containers
may be opened: it skips blanks in front, and it leaves what follows. -/
structure Takes (r : Reader α) (n : Nat) (cs : List Char) (a : α) : Prop where
  opens : Opens cs
  read : ∀ {depth : Nat} {gap rest : List Char}, n ≤ depth → Gap gap → Delimited rest →
    r depth (gap ++ (cs ++ rest)) = .ok (a, rest)

namespace Takes

variable {r : Reader α} {n : Nat} {cs : List Char} {a : α}

/-- A reader that looks at the first character of a value takes what it takes after it. -/
theorem of_startingWith {f : Char → Reader α} {c : Char} {tail : List Char}
    (hc : isBlank c = false) (hclose : c ≠ ']')
    (h : ∀ {depth : Nat} {rest : List Char}, n ≤ depth → Delimited rest →
      f c depth (tail ++ rest) = .ok (a, rest)) :
    Takes (startingWith f) n (c :: tail) a := by
  refine ⟨⟨c, tail, rfl, hc, hclose⟩, fun hn hgap hrest => ?_⟩
  rw [List.cons_append, startingWith_gap f _ hgap hc]
  exact h hn hrest

/-- Without blanks in front. -/
theorem read_here (h : Takes r n cs a) {depth : Nat} (hn : n ≤ depth) {rest : List Char}
    (hrest : Delimited rest) : r depth (cs ++ rest) = .ok (a, rest) :=
  h.read hn gap_nil hrest

/-- More containers may be opened than needed. -/
theorem mono (h : Takes r n cs a) {n' : Nat} (hn : n ≤ n') : Takes r n' cs a :=
  ⟨h.opens, fun hdepth hgap hrest => h.read (Nat.le_trans hn hdepth) hgap hrest⟩

/-- What is read may be turned into another value without reading on. -/
theorem andThen (h : Takes r n cs a) {f : α → Reader β} {b : β}
    (hf : ∀ depth rest, f a depth rest = .ok (b, rest)) : Takes (r >>= f) n cs b := by
  refine ⟨h.opens, fun hn hgap hrest => ?_⟩
  rw [bind_of_ok (h.read hn hgap hrest)]
  exact hf _ _

/-- **A text that is taken is read as a whole**, with blanks around it. -/
theorem readAll_gaps (h : Takes r n cs a) (hn : n ≤ maxNesting) {before after : List Char}
    (hbefore : Gap before) (hafter : Gap after) {text : String}
    (htext : text.toList = before ++ (cs ++ after)) : Reader.readAll r text = .ok a := by
  refine readAll_of_gap ?_ hafter
  rw [htext, h.read hn hbefore hafter.delimited]

/-- A text that is taken is read as a whole. -/
theorem readAll (h : Takes r n cs a) (hn : n ≤ maxNesting) :
    Reader.readAll r (String.ofList cs) = .ok a :=
  h.readAll_gaps hn gap_nil gap_nil (by simp)

end Takes

/-! ### Texts and optional values -/

/-- **A quoted text is taken as that text**, whatever characters it holds. -/
theorem takes_textFor (expected s : String) : Takes (textFor expected) 0 (quote s) s := by
  rw [quote_eq]
  refine Takes.of_startingWith rfl (by decide) fun {depth rest} _ _ => ?_
  rw [if_pos rfl, List.append_assoc]
  exact textBody_escaped s depth rest

/-- A quoted text that stands for a value is taken as that value. -/
theorem takes_textOf (expected : String) {parse : String → Except String α} {s : String} {a : α}
    (h : parse s = .ok a) : Takes (textOf expected parse) 0 (quote s) a := by
  refine (takes_textFor expected s).andThen fun depth rest => ?_
  rw [h]
  rfl

/-- Where no `null` starts, an optional value is taken as a value. -/
theorem Takes.orNull {r : Reader α} {n : Nat} {cs : List Char} {a : α} (h : Takes r n cs a)
    (hnull : cs.head? ≠ some 'n') : Takes (orNull r) n cs (some a) := by
  refine ⟨h.opens, fun {depth gap rest} hn hgap hrest => ?_⟩
  have hread := bind_of_ok (f := fun a => (pure (some a) : Reader (Option α)))
    (h.read_here hn hrest)
  -- the first character decides whether a `null` or a value is read
  obtain ⟨c, tail, rfl, hc, -⟩ := h.opens
  have hskip : skipBlanks (gap ++ (c :: tail ++ rest)) = c :: (tail ++ rest) :=
    skipBlanks_gap_cons hgap hc _
  unfold Reader.orNull
  rw [hskip]
  split
  · rename_i heq
    exact absurd (congrArg some (List.cons.inj heq).1) hnull
  · exact hread

end Reader

/-! ### Pieces -/

/-- What stands between the pieces: nothing before the first one, and else a comma. -/
def separator : Bool → List Char
  | true => []
  | false => [',']

/-- The text consists of the given pieces, set apart by commas and with blanks around
them: it holds all pieces of a list or an object, or, if `first` is false, those
that follow another piece. -/
inductive Separated : Bool → List Char → List (List Char) → Prop
  | nil {first : Bool} {gap : List Char} (blank : Gap gap) : Separated first gap []
  | cons {first : Bool} {before after piece tail : List Char} {pieces : List (List Char)}
      (blankBefore : Gap before) (blankAfter : Gap after) (rest : Separated false tail pieces) :
      Separated first (before ++ (separator first ++ (after ++ (piece ++ tail))))
        (piece :: pieces)

/-- Behind a piece there is a blank, a comma or the closing bracket. -/
theorem Separated.delimited {cs : List Char} {pieces : List (List Char)}
    (h : Separated false cs pieces) {close : Char} (hclose : close = ']' ∨ close = '\x7d')
    (rest : List Char) : Delimited (cs ++ close :: rest) := by
  cases h with
  | nil blank => exact blank.delimited_append (delimited_cons (Or.inr (Or.inr hclose)) rest)
  | cons blankBefore blankAfter more =>
      rw [List.append_assoc]
      exact blankBefore.delimited_append (delimited_cons (Or.inr (Or.inl rfl)) _)

/-- Behind a piece, which has at least one character, a shorter bound suffices. -/
theorem length_tail_lt {before comma after piece tail bound : List Char} {b : Char}
    (hpiece : 0 < piece.length)
    (hbound : (before ++ (comma ++ (after ++ (piece ++ tail)))).length < (b :: bound).length) :
    tail.length < bound.length := by
  simp only [List.length_append, List.length_cons] at hbound
  omega

/-- A piece of an object: a key and the text of its value. -/
def Member (key : String) (value piece : List Char) : Prop :=
  ∃ before after, Gap before ∧ Gap after ∧
    piece = quote key ++ (before ++ ':' :: (after ++ value))

theorem Member.length_pos {key : String} {value piece : List Char}
    (h : Member key value piece) : 0 < piece.length := by
  obtain ⟨before, after, -, -, rfl⟩ := h
  exact Nat.succ_pos _

namespace Reader

/-! ### Lists -/

/-- A closing bracket ends the list. -/
theorem nextItem_close (first : Bool) (depth : Nat) {gap : List Char} (h : Gap gap)
    (rest : List Char) :
    nextItem first depth (gap ++ ']' :: rest) = .ok (false, ']' :: rest) := by
  unfold nextItem
  rw [skipBlanks_gap_cons h rfl]
  rfl

/-- Anything else than a closing bracket is a first item. -/
theorem nextItem_first (depth : Nat) {cs tail : List Char} {c : Char}
    (hskip : skipBlanks cs = c :: tail) (hc : c ≠ ']') :
    nextItem true depth cs = .ok (true, c :: tail) := by
  unfold nextItem
  rw [hskip]
  split
  · rename_i heq
    cases heq
  · rename_i heq
    exact absurd (List.cons.inj heq).1 hc
  · rename_i heq
    rw [if_pos rfl, heq]

/-- After a comma, anything else than a closing bracket is a further item. -/
theorem nextItem_further (depth : Nat) {cs tail tail' : List Char} {c : Char}
    (hcomma : skipBlanks cs = ',' :: tail) (hskip : skipBlanks tail = c :: tail')
    (hc : c ≠ ']') : nextItem false depth cs = .ok (true, c :: tail') := by
  unfold nextItem
  rw [hcomma]
  split
  · rename_i heq
    cases heq
  · rename_i heq
    exact absurd (List.cons.inj heq).1 (by decide)
  · rename_i heq
    obtain ⟨rfl, rfl⟩ := List.cons.inj heq
    rw [if_neg Bool.false_ne_true, if_pos rfl, hskip]
    -- behind the comma the closing bracket is not allowed either
    split
    · rename_i heq
      cases heq
    · rename_i heq
      exact absurd (List.cons.inj heq).1 hc
    · rfl

/-- Before a piece the list goes on. -/
theorem nextItem_piece (first : Bool) (depth : Nat) {before after piece : List Char}
    (hbefore : Gap before) (hafter : Gap after) (hpiece : Opens piece) (rest : List Char) :
    nextItem first depth (before ++ (separator first ++ (after ++ (piece ++ rest)))) =
      .ok (true, piece ++ rest) := by
  obtain ⟨c, tail, rfl, hc, hclose⟩ := hpiece
  have hskip : skipBlanks (after ++ c :: (tail ++ rest)) = c :: (tail ++ rest) :=
    skipBlanks_gap_cons hafter hc _
  cases first with
  | true =>
      refine nextItem_first depth ?_ hclose
      rw [skipBlanks_gap hbefore]
      exact hskip
  | false => exact nextItem_further depth (skipBlanks_gap_cons hbefore rfl _) hskip hclose

/-- **The loop over a list** reads each piece, and stops before the closing bracket. -/
theorem items_separated {item : Reader α} {n depth : Nat} (hn : n ≤ depth) {first : Bool}
    {cs : List Char} {pieces : List (List Char)} (h : Separated first cs pieces) {as : List α}
    (htakes : List.Forall₂ (Takes item n) pieces as) {bound : List Char}
    (hbound : cs.length < bound.length) (rest : List Char) :
    items item bound first depth (cs ++ ']' :: rest) = .ok (as, ']' :: rest) := by
  -- the loop follows the pieces; its bound may be any list that is longer than the text
  induction h generalizing as bound with
  | nil blank =>
      obtain ⟨b, bound, rfl⟩ := List.exists_cons_of_length_pos (Nat.zero_lt_of_lt hbound)
      obtain rfl := List.forall₂_nil_left_iff.mp htakes
      unfold items
      rw [bind_of_ok (nextItem_close _ depth blank rest)]
      rfl
  | @cons first before after piece tail pieces blankBefore blankAfter more ih =>
      obtain ⟨b, bound, rfl⟩ := List.exists_cons_of_length_pos (Nat.zero_lt_of_lt hbound)
      obtain ⟨a, as, hpiece, hpieces, rfl⟩ := List.forall₂_cons_left_iff.mp htakes
      have htail := length_tail_lt hpiece.opens.length_pos hbound
      have hnext := nextItem_piece first depth blankBefore blankAfter hpiece.opens
        (tail ++ ']' :: rest)
      have hread := hpiece.read_here hn (more.delimited (Or.inl rfl) rest)
      simp only [List.append_assoc]
      unfold items
      rw [bind_of_ok hnext, if_pos rfl, bind_of_ok hread, bind_of_ok (ih hpieces htail)]
      rfl

/-- The text behind an opening bracket bounds the loop over what it encloses. -/
theorem length_lt_enclosed (cs : List Char) (close : Char) (rest : List Char) :
    cs.length < (cs ++ close :: rest).length := by
  rw [List.length_append, List.length_cons]
  omega

/-- **A list of any layout is taken item by item.** -/
theorem Takes.list {item : Reader α} {n : Nat} {cs : List Char} {pieces : List (List Char)}
    (h : Separated true cs pieces) {as : List α}
    (htakes : List.Forall₂ (Takes item n) pieces as) :
    Takes (list item) (n + 1) ('[' :: (cs ++ [']'])) as := by
  refine Takes.of_startingWith rfl (by decide) fun {depth rest} hn hrest => ?_
  obtain ⟨d, rfl⟩ := Nat.exists_eq_succ_of_ne_zero (Nat.ne_zero_of_lt hn)
  have hitems := items_separated (Nat.le_of_succ_le_succ hn) h htakes
    (length_lt_enclosed cs ']' rest) rest
  have hbounded : bounded (fun bound => items item bound true) d (cs ++ ']' :: rest) =
      .ok (as, ']' :: rest) := hitems
  rw [if_pos rfl, List.append_assoc]
  exact bind_of_ok hbounded

/-! ### Objects -/

/-- A closing brace ends the object. -/
theorem nextKey_close (first : Bool) (depth : Nat) {gap : List Char} (h : Gap gap)
    (rest : List Char) :
    nextKey first depth (gap ++ '\x7d' :: rest) = .ok (false, '\x7d' :: rest) := by
  unfold nextKey
  rw [skipBlanks_gap_cons h rfl]
  rfl

/-- Before a member the object goes on, and the quote of its key is taken. -/
theorem nextKey_quote (first : Bool) (depth : Nat) {before after : List Char}
    (hbefore : Gap before) (hafter : Gap after) (rest : List Char) :
    nextKey first depth (before ++ (separator first ++ (after ++ '"' :: rest))) =
      .ok (true, rest) := by
  have hskip : skipBlanks (after ++ '"' :: rest) = '"' :: rest :=
    skipBlanks_gap_cons hafter rfl _
  cases first with
  | true =>
      have hfirst : skipBlanks (before ++ (separator true ++ (after ++ '"' :: rest))) =
          '"' :: rest := by
        rw [skipBlanks_gap hbefore]
        exact hskip
      unfold nextKey
      rw [hfirst]
      rfl
  | false =>
      have hcomma : skipBlanks (before ++ (separator false ++ (after ++ '"' :: rest))) =
          ',' :: (after ++ '"' :: rest) := skipBlanks_gap_cons hbefore rfl _
      unfold nextKey
      rw [hcomma]
      split
      · rename_i heq
        cases heq
      · rename_i heq
        exact absurd (List.cons.inj heq).1 (by decide)
      · rename_i heq
        obtain ⟨rfl, rfl⟩ := List.cons.inj heq
        rw [if_neg Bool.false_ne_true, if_pos rfl, hskip]
        rfl

theorem colon_gap (depth : Nat) {gap : List Char} (h : Gap gap) (rest : List Char) :
    colon depth (gap ++ ':' :: rest) = .ok ((), rest) := by
  unfold colon
  rw [skipBlanks_gap_cons h rfl]
  rfl

/-- Up to its key and colon, a member is read like its key alone. -/
theorem nextKey_member (first : Bool) (depth : Nat) {before after value piece : List Char}
    {key : String} (hbefore : Gap before) (hafter : Gap after) (hpiece : Member key value piece)
    (rest : List Char) :
    ∃ cs gap, Gap gap ∧
      nextKey first depth (before ++ (separator first ++ (after ++ (piece ++ rest)))) =
        .ok (true, key.toList.flatMap escape ++ '"' :: cs) ∧
      colon depth cs = .ok ((), gap ++ (value ++ rest)) := by
  obtain ⟨left, right, hleft, hright, rfl⟩ := hpiece
  refine ⟨left ++ ':' :: (right ++ (value ++ rest)), right, hright, ?_, colon_gap depth hleft _⟩
  rw [← nextKey_quote first depth hbefore hafter]
  simp [quote]

/-- The reader takes the key `k` as `a`, after the opening quote. -/
def TakesKey (key : Reader κ) (k : String) (a : κ) : Prop :=
  ∀ depth rest, key depth (k.toList.flatMap escape ++ '"' :: rest) = .ok (a, rest)

/-- **The loop over a map** reads each key and its value, and stops before the closing
brace. -/
theorem entries_separated {key : Reader κ} {value : Reader α} {n depth : Nat} (hn : n ≤ depth)
    {first : Bool} {cs : List Char} {pieces : List (List Char)} (h : Separated first cs pieces)
    {members : List (String × List Char)}
    (hmembers : List.Forall₂ (fun m piece => Member m.1 m.2 piece) members pieces)
    {es : List (κ × α)}
    (htakes : List.Forall₂ (fun m e => TakesKey key m.1 e.1 ∧ Takes value n m.2 e.2) members es)
    {bound : List Char} (hbound : cs.length < bound.length) (rest : List Char) :
    entries key value bound first depth (cs ++ '\x7d' :: rest) = .ok (es, '\x7d' :: rest) := by
  induction h generalizing members es bound with
  | nil blank =>
      obtain ⟨b, bound, rfl⟩ := List.exists_cons_of_length_pos (Nat.zero_lt_of_lt hbound)
      obtain rfl := List.forall₂_nil_right_iff.mp hmembers
      obtain rfl := List.forall₂_nil_left_iff.mp htakes
      unfold entries
      rw [bind_of_ok (nextKey_close _ depth blank rest)]
      rfl
  | @cons first before after piece tail pieces blankBefore blankAfter more ih =>
      obtain ⟨b, bound, rfl⟩ := List.exists_cons_of_length_pos (Nat.zero_lt_of_lt hbound)
      obtain ⟨m, members, hpiece, hpieces, rfl⟩ := List.forall₂_cons_right_iff.mp hmembers
      obtain ⟨e, es, ⟨hkey, hvalue⟩, hmore, rfl⟩ := List.forall₂_cons_left_iff.mp htakes
      have htail := length_tail_lt hpiece.length_pos hbound
      obtain ⟨cs, gap, hgap, hnext, hcolon⟩ := nextKey_member first depth blankBefore blankAfter
        hpiece (tail ++ '\x7d' :: rest)
      have hread := hvalue.read hn hgap (more.delimited (Or.inr rfl) rest)
      simp only [List.append_assoc]
      unfold entries
      rw [bind_of_ok hnext, if_pos rfl, bind_of_ok (hkey depth cs), bind_of_ok hcolon,
        bind_of_ok hread, bind_of_ok (ih hpieces hmore htail)]
      rfl

/-- **A map of any layout is taken entry by entry**, each key as what it stands for. -/
theorem Takes.map {parseKey : String → Except String κ} {value : Reader α} {n : Nat}
    {cs : List Char} {pieces : List (List Char)} (h : Separated true cs pieces)
    {members : List (String × List Char)}
    (hmembers : List.Forall₂ (fun m piece => Member m.1 m.2 piece) members pieces)
    {es : List (κ × α)}
    (htakes : List.Forall₂ (fun m e => parseKey m.1 = .ok e.1 ∧ Takes value n m.2 e.2)
      members es) :
    Takes (map parseKey value) (n + 1) ('\x7b' :: (cs ++ ['\x7d'])) es := by
  refine Takes.of_startingWith rfl (by decide) fun {depth rest} hn hrest => ?_
  obtain ⟨d, rfl⟩ := Nat.exists_eq_succ_of_ne_zero (Nat.ne_zero_of_lt hn)
  rw [if_pos rfl, List.append_assoc]
  refine bind_of_ok (?_ : _ = Except.ok (es, '\x7d' :: rest))
  refine entries_separated (Nat.le_of_succ_le_succ hn) h hmembers (htakes.imp ?_)
    (length_lt_enclosed cs '\x7d' rest) rest
  intro m e hme
  refine ⟨fun depth rest => ?_, hme.2⟩
  rw [bind_of_ok (textBody_escaped m.1 depth rest), hme.1]
  rfl

end Reader

/-! ### Records -/

namespace Shape

open Reader

/-- The members of an object turn one draft of a record into another: each of them
names a field that the draft has no value for yet, or it names no field and is skipped. -/
inductive Fills (shape : Shape σ α) (n : Nat) : σ → List (String × List Char) → σ → Prop
  | nil {draft : σ} : Fills shape n draft [] draft
  | cons {draft next last : σ} {key : String} {text : List Char} {f : Field σ}
      {members : List (String × List Char)}
      (found : (shape.fields.find? fun f => f.key = key) = some f)
      (unset : f.isSet draft = false) (value : Takes (f.read draft) n text next)
      (more : Fills shape n next members last) :
      Fills shape n draft ((key, text) :: members) last
  | skip {draft last : σ} {key : String} {text : List Char}
      {members : List (String × List Char)}
      (unknown : (shape.fields.find? fun f => f.key = key) = none)
      (value : Takes skipValue n text ()) (more : Fills shape n draft members last) :
      Fills shape n draft ((key, text) :: members) last

/-- **The loop over a record** reads each member into the draft, and stops before the
closing brace. -/
theorem object_separated {shape : Shape σ α} {n depth : Nat} (hn : n ≤ depth) {first : Bool}
    {cs : List Char} {pieces : List (List Char)} (h : Separated first cs pieces)
    {members : List (String × List Char)}
    (hmembers : List.Forall₂ (fun m piece => Member m.1 m.2 piece) members pieces)
    {draft last : σ} (hfills : shape.Fills n draft members last) {bound : List Char}
    (hbound : cs.length < bound.length) (rest : List Char) :
    shape.object bound first draft depth (cs ++ '\x7d' :: rest) = .ok (last, '\x7d' :: rest) := by
  induction h generalizing members draft bound with
  | nil blank =>
      obtain ⟨b, bound, rfl⟩ := List.exists_cons_of_length_pos (Nat.zero_lt_of_lt hbound)
      obtain rfl := List.forall₂_nil_right_iff.mp hmembers
      cases hfills
      unfold object
      rw [bind_of_ok (nextKey_close _ depth blank rest)]
      rfl
  | @cons first before after piece tail pieces blankBefore blankAfter more ih =>
      obtain ⟨b, bound, rfl⟩ := List.exists_cons_of_length_pos (Nat.zero_lt_of_lt hbound)
      obtain ⟨m, members, hpiece, hpieces, rfl⟩ := List.forall₂_cons_right_iff.mp hmembers
      have htail := length_tail_lt hpiece.length_pos hbound
      obtain ⟨cs, gap, hgap, hnext, hcolon⟩ := nextKey_member first depth blankBefore blankAfter
        hpiece (tail ++ '\x7d' :: rest)
      -- the key is looked up among the fields; the one it names must not have a value yet
      cases hfills with
      | cons found unset value hmore =>
          have hread := value.read hn hgap (more.delimited (Or.inr rfl) rest)
          simp only [List.append_assoc]
          unfold object
          rw [bind_of_ok hnext, if_pos rfl, bind_of_ok (textBody_escaped _ depth cs), found]
          dsimp only
          rw [unset, if_neg Bool.false_ne_true, bind_of_ok hcolon, bind_of_ok hread]
          exact ih hpieces hmore htail
      | skip unknown value hmore =>
          have hread := value.read hn hgap (more.delimited (Or.inr rfl) rest)
          simp only [List.append_assoc]
          unfold object
          rw [bind_of_ok hnext, if_pos rfl, bind_of_ok (textBody_escaped _ depth cs), unknown]
          dsimp only
          rw [bind_of_ok hcolon, bind_of_ok hread]
          exact ih hpieces hmore htail

end Shape

namespace Reader

/-- **A record is taken from an object of any layout** whose members fill its draft. -/
theorem Takes.record {shape : Shape σ α} {n : Nat} {cs : List Char} {pieces : List (List Char)}
    (h : Separated true cs pieces) {members : List (String × List Char)}
    (hmembers : List.Forall₂ (fun m piece => Member m.1 m.2 piece) members pieces) {draft : σ}
    (hfills : shape.Fills n shape.start members draft) {a : α}
    (hfinish : shape.finish draft = .ok a) :
    Takes (record shape) (n + 1) ('\x7b' :: (cs ++ ['\x7d'])) a := by
  refine Takes.of_startingWith rfl (by decide) fun {depth rest} hn hrest => ?_
  obtain ⟨d, rfl⟩ := Nat.exists_eq_succ_of_ne_zero (Nat.ne_zero_of_lt hn)
  have hobject : bounded (fun bound => shape.object bound true shape.start) d
      (cs ++ '\x7d' :: rest) = .ok (draft, '\x7d' :: rest) :=
    Shape.object_separated (Nat.le_of_succ_le_succ hn) h hmembers hfills
      (length_lt_enclosed cs '\x7d' rest) rest
  have hchecked : check (shape.finishObject draft) d ('\x7d' :: rest) =
      .ok (a, '\x7d' :: rest) := by
    unfold Shape.finishObject
    rw [hfinish]
    rfl
  rw [if_pos rfl, List.append_assoc]
  refine (bind_of_ok hobject).trans ?_
  exact bind_of_ok hchecked

end Reader

end Sequencer.Json
