import Sequencer.Proofs.Json.Records

/-!
# Texts that are cut off

A reader sees a text from left to right, so what it makes of a beginning of the text
does not depend on what was cut off.  It is *steady* on a text if on each beginning it
either finds that the text ends too soon or reads what it reads from the whole text.
Steadiness carries over from readers to what is built from them, step by step along the
text.

Texts, lists, maps and records end with a character of their own and are steady.  A
number is not: where it is cut off, a shorter number stands there.  A reader is *loose*
if it may also read something from all of a beginning.  In an object this does no harm,
since the closing brace is still missing.

A stray member is not allowed here.  Its value is passed over, and a number that is
passed over and cut off behind its point is malformed.

## Main Definitions

* `Reader.Steady`, `Reader.Loose` — what a reader makes of the beginnings of a text.
* `Reader.SteadyOn`, `Reader.LooseOn` — the same for a value, whatever stands around it.

## Main Results

* `Reader.steady_textBody` — cuts in a text, also within an escape.
* `Reader.steady_items`, `Reader.steady_entries`, `Shape.Slots.steady_object` — the
  three loops.
* `Reader.SteadyOn.list`, `Reader.SteadyOn.map`, `Shape.Slots.steadyOn_record` — the
  readers.
* `Reader.SteadyOn.readAll_cut` — whole texts.
-/

namespace Sequencer.Json

variable {α β κ σ : Type}

/-! ### Beginnings -/

/-- A beginning of a text that starts with blanks and another character consists of
blanks, or it goes on behind that character. -/
theorem beginning_gap_cons {gap p more cs : List Char} {c : Char} (hgap : Gap gap)
    (h : p ++ more = gap ++ c :: cs) : Gap p ∨ ∃ q, p = gap ++ c :: q ∧ q ++ more = cs := by
  rcases List.append_eq_append_iff.mp h with ⟨left, hleft, -⟩ | ⟨q, hp, hq⟩
  · refine Or.inl fun d hd => hgap d ?_
    rw [hleft]
    exact List.mem_append_left left hd
  · cases q with
    | nil =>
        rw [List.append_nil] at hp
        exact Or.inl (hp ▸ hgap)
    | cons d q =>
        obtain ⟨rfl, hcs⟩ := List.cons.inj hq
        exact Or.inr ⟨q, hp, hcs.symm⟩

theorem Gap.append {gap gap' : List Char} (h : Gap gap) (h' : Gap gap') : Gap (gap ++ gap') :=
  List.forall_mem_append.mpr ⟨h, h'⟩

/-- A beginning of what may follow a value may follow it too. -/
theorem Delimited.of_append {p more : List Char} (h : Delimited (p ++ more)) : Delimited p := by
  cases p with
  | nil => exact delimited_nil
  | cons c p => exact delimited_cons (h c rfl) p

namespace Reader

/-! ### Steady readers -/

/-- **The reader is steady on the text**, from which it reads `a` and leaves `rest`: on
each beginning of the text it finds that the text ends too soon, or it reads `a` and
leaves what is there of the rest. -/
def Steady (r : Reader α) (depth : Nat) (cs : List Char) (a : α) (rest : List Char) : Prop :=
  ∀ p more, p ++ more = cs →
    r depth p = .error .endOfText ∨ ∃ left, left ++ more = rest ∧ r depth p = .ok (a, left)

/-- The reader is loose on the text: it may also read another value from all of a
beginning. -/
def Loose (r : Reader α) (depth : Nat) (cs : List Char) (a : α) (rest : List Char) : Prop :=
  ∀ p more, p ++ more = cs →
    r depth p = .error .endOfText ∨ (∃ b, r depth p = .ok (b, [])) ∨
      ∃ left, left ++ more = rest ∧ r depth p = .ok (a, left)

theorem bind_of_error {r : Reader α} {f : α → Reader β} {depth : Nat} {cs : List Char}
    {e : ReadError} (h : r depth cs = .error e) : (r >>= f) depth cs = .error e := by
  simp only [bind, h]

variable {r : Reader α} {f : α → Reader β} {depth : Nat} {cs rest last : List Char} {a : α}
  {b : β}

theorem steady_pure (a : α) (depth : Nat) (cs : List Char) : Steady (pure a) depth cs a cs :=
  fun p _ h => Or.inr ⟨p, h, rfl⟩

theorem steady_fail : Steady (fail .endOfText : Reader α) depth cs a rest :=
  fun _ _ _ => Or.inl rfl

/-- The second of two readers goes on where the first one stops. -/
theorem Steady.bind (h : Steady r depth cs a rest) (h' : Steady (f a) depth rest b last) :
    Steady (r >>= f) depth cs b last := by
  intro p more hp
  rcases h p more hp with hend | ⟨left, hleft, hread⟩
  · exact Or.inl (bind_of_error hend)
  · rw [bind_of_ok hread]
    exact h' left more hleft

/-- After a loose reader, the next one must need more text. -/
theorem Loose.bind (h : Loose r depth cs a rest) (h' : Steady (f a) depth rest b last)
    (hneeds : ∀ a', f a' depth [] = .error .endOfText) : Steady (r >>= f) depth cs b last := by
  intro p more hp
  rcases h p more hp with hend | ⟨a', hread⟩ | ⟨left, hleft, hread⟩
  · exact Or.inl (bind_of_error hend)
  · rw [bind_of_ok hread]
    exact Or.inl (hneeds a')
  · rw [bind_of_ok hread]
    exact h' left more hleft

theorem Steady.loose (h : Steady r depth cs a rest) : Loose r depth cs a rest :=
  fun p more hp => (h p more hp).imp_right Or.inr

/-- What a loose reader reads may be turned into another value. -/
theorem Loose.map (h : Loose r depth cs a rest) (g : α → β) :
    Loose (r >>= fun x => pure (g x)) depth cs (g a) rest := by
  intro p more hp
  rcases h p more hp with hend | ⟨a', hread⟩ | ⟨left, hleft, hread⟩
  · exact Or.inl (bind_of_error hend)
  · exact Or.inr (Or.inl ⟨g a', bind_of_ok hread⟩)
  · exact Or.inr (Or.inr ⟨left, hleft, bind_of_ok hread⟩)

theorem Steady.nested (h : Steady r depth cs a rest) :
    Steady (nested r) (depth + 1) cs a rest := h

/-- However long the text is that bounds a loop. -/
theorem steady_bounded {loop : List Char → Reader α}
    (h : ∀ bound, Steady (loop bound) depth cs a rest) :
    Steady (bounded loop) depth cs a rest :=
  fun p more hp => h p p more hp

/-- A reader that looks for one character after blanks. -/
theorem steady_of_gap_cons {gap : List Char} (hgap : Gap gap) {c : Char}
    (hblank : ∀ p, Gap p → r depth p = .error .endOfText)
    (hread : ∀ q, ∃ left, r depth (gap ++ c :: q) = .ok (a, left) ∧
      ∀ more, q ++ more = cs → left ++ more = rest) :
    Steady r depth (gap ++ c :: cs) a rest := by
  intro p more hp
  rcases beginning_gap_cons hgap hp with hp | ⟨q, rfl, hq⟩
  · exact Or.inl (hblank p hp)
  · obtain ⟨left, hleft, hmore⟩ := hread q
    exact Or.inr ⟨left, hmore more hq, hleft⟩

theorem steady_startingWith {g : Char → Reader α} {gap : List Char} (hgap : Gap gap) {c : Char}
    (hc : isBlank c = false) (h : Steady (g c) depth cs a rest) :
    Steady (startingWith g) depth (gap ++ c :: cs) a rest := by
  intro p more hp
  rcases beginning_gap_cons hgap hp with hp | ⟨q, rfl, hq⟩
  · unfold startingWith
    rw [hp.skipBlanks_eq_nil]
    exact Or.inl rfl
  · rw [startingWith_gap g depth hgap hc]
    exact h q more hq

/-! ### Marks -/

/-- A mark that is looked for after blanks. -/
theorem steady_mark {r : Reader Unit} {gap : List Char} (hgap : Gap gap) {c : Char}
    (hblank : ∀ p, Gap p → r depth p = .error .endOfText)
    (hread : ∀ q, r depth (gap ++ c :: q) = .ok ((), q)) :
    Steady r depth (gap ++ c :: cs) () cs :=
  steady_of_gap_cons hgap hblank fun q => ⟨q, hread q, fun _ => id⟩

theorem steady_colon {gap : List Char} (hgap : Gap gap) :
    Steady colon depth (gap ++ ':' :: cs) () cs := by
  refine steady_mark hgap (fun p hp => ?_) (colon_gap depth hgap)
  unfold colon
  rw [hp.skipBlanks_eq_nil]

theorem steady_closeList : Steady closeList depth (']' :: cs) () cs := by
  refine steady_mark gap_nil (fun p hp => ?_) fun q => rfl
  unfold closeList
  rw [hp.skipBlanks_eq_nil]

theorem steady_closeObject : Steady closeObject depth ('\x7d' :: cs) () cs := by
  refine steady_mark gap_nil (fun p hp => ?_) fun q => rfl
  unfold closeObject
  rw [hp.skipBlanks_eq_nil]

theorem nextItem_blank (first : Bool) (depth : Nat) {p : List Char} (h : Gap p) :
    nextItem first depth p = .error .endOfText := by
  unfold nextItem
  rw [h.skipBlanks_eq_nil]

theorem nextKey_blank (first : Bool) (depth : Nat) {p : List Char} (h : Gap p) :
    nextKey first depth p = .error .endOfText := by
  unfold nextKey
  rw [h.skipBlanks_eq_nil]

theorem steady_nextItem_close (first : Bool) {gap : List Char} (hgap : Gap gap) :
    Steady (nextItem first) depth (gap ++ ']' :: cs) false (']' :: cs) :=
  steady_of_gap_cons hgap (fun _ => nextItem_blank first depth) fun q =>
    ⟨']' :: q, nextItem_close first depth hgap q, fun _ h => congrArg (']' :: ·) h⟩

theorem steady_nextKey_close (first : Bool) {gap : List Char} (hgap : Gap gap) :
    Steady (nextKey first) depth (gap ++ '\x7d' :: cs) false ('\x7d' :: cs) :=
  steady_of_gap_cons hgap (fun _ => nextKey_blank first depth) fun q =>
    ⟨'\x7d' :: q, nextKey_close first depth hgap q, fun _ h => congrArg ('\x7d' :: ·) h⟩

/-- Behind a comma and blanks the list must go on. -/
theorem nextItem_comma_blank (depth : Nat) {before p : List Char} (hbefore : Gap before)
    (h : Gap p) : nextItem false depth (before ++ ',' :: p) = .error .endOfText := by
  unfold nextItem
  rw [skipBlanks_gap_cons hbefore rfl]
  simp [h.skipBlanks_eq_nil]

/-- Behind a comma and blanks the object must go on. -/
theorem nextKey_comma_blank (depth : Nat) {before p : List Char} (hbefore : Gap before)
    (h : Gap p) : nextKey false depth (before ++ ',' :: p) = .error .endOfText := by
  unfold nextKey
  rw [skipBlanks_gap_cons hbefore rfl]
  simp [h.skipBlanks_eq_nil]

/-- A reader that looks for a comma, if there was a piece before, and for the first
character of a piece. -/
theorem steady_of_separator {r : Reader Bool} {first : Bool} {before after : List Char}
    (hbefore : Gap before) (hafter : Gap after) {c : Char}
    (hblank : ∀ p, Gap p → r depth p = .error .endOfText)
    (hcomma : first = false → ∀ p, Gap p → r depth (before ++ ',' :: p) = .error .endOfText)
    (hread : ∀ q, ∃ left, r depth (before ++ (separator first ++ (after ++ c :: q))) =
      .ok (true, left) ∧ ∀ more, q ++ more = cs → left ++ more = rest) :
    Steady r depth (before ++ (separator first ++ (after ++ c :: cs))) true rest := by
  intro p more hp
  cases first with
  | true =>
      have hp' : p ++ more = (before ++ after) ++ c :: cs := by simpa [separator] using hp
      rcases beginning_gap_cons (hbefore.append hafter) hp' with hp | ⟨q, rfl, hq⟩
      · exact Or.inl (hblank p hp)
      · obtain ⟨left, hleft, hmore⟩ := hread q
        rw [List.append_assoc]
        exact Or.inr ⟨left, hmore more hq, hleft⟩
  | false =>
      rcases beginning_gap_cons hbefore hp with hp | ⟨q, rfl, hq⟩
      · exact Or.inl (hblank p hp)
      · rcases beginning_gap_cons hafter hq with hq' | ⟨q, rfl, hq'⟩
        · exact Or.inl (hcomma rfl q hq')
        · obtain ⟨left, hleft, hmore⟩ := hread q
          exact Or.inr ⟨left, hmore more hq', hleft⟩

theorem steady_nextItem_piece (first : Bool) {before after piece : List Char}
    (hbefore : Gap before) (hafter : Gap after) (hpiece : Opens piece) :
    Steady (nextItem first) depth (before ++ (separator first ++ (after ++ (piece ++ cs)))) true
      (piece ++ cs) := by
  obtain ⟨c, tail, rfl, hc, hclose⟩ := hpiece
  refine steady_of_separator hbefore hafter (fun _ => nextItem_blank first depth)
    (fun hfirst p hp => ?_) fun q => ⟨c :: q, ?_, fun _ h => congrArg (c :: ·) h⟩
  · subst hfirst
    exact nextItem_comma_blank depth hbefore hp
  · have hopens : Opens (c :: q) := ⟨c, q, rfl, hc, hclose⟩
    have hnext := nextItem_piece first depth hbefore hafter hopens []
    rwa [List.append_nil] at hnext

theorem steady_nextKey_quote (first : Bool) {before after : List Char} (hbefore : Gap before)
    (hafter : Gap after) :
    Steady (nextKey first) depth (before ++ (separator first ++ (after ++ '"' :: cs))) true
      cs := by
  refine steady_of_separator hbefore hafter (fun _ => nextKey_blank first depth)
    (fun hfirst p hp => ?_)
    fun q => ⟨q, nextKey_quote first depth hbefore hafter q, fun _ => id⟩
  subst hfirst
  exact nextKey_comma_blank depth hbefore hp

/-- Up to its key and colon, a member is read like its key alone. -/
theorem steady_nextKey_member (first : Bool) (depth : Nat)
    {before after value piece : List Char} {key : String} (hbefore : Gap before)
    (hafter : Gap after) (hpiece : Member key value piece) (cs : List Char) :
    ∃ cs' gap, Gap gap ∧
      Steady (nextKey first) depth (before ++ (separator first ++ (after ++ (piece ++ cs)))) true
        (key.toList.flatMap escape ++ '"' :: cs') ∧
      Steady colon depth cs' () (gap ++ (value ++ cs)) := by
  obtain ⟨left, right, hleft, hright, rfl⟩ := hpiece
  refine ⟨left ++ ':' :: (right ++ (value ++ cs)), right, hright, ?_, steady_colon hleft⟩
  have hquote : quote key ++ (left ++ ':' :: (right ++ value)) ++ cs =
      '"' :: (key.toList.flatMap escape ++ '"' :: (left ++ ':' :: (right ++ (value ++ cs)))) := by
    simp [quote]
  rw [hquote]
  exact steady_nextKey_quote first hbefore hafter

end Reader

/-! ### Texts -/

theorem byteLength_append (p q : List Char) :
    Text.byteLength (p ++ q) = Text.byteLength p + Text.byteLength q := by
  induction p with
  | nil => exact (Nat.zero_add _).symm
  | cons c p ih =>
      show c.utf8Size + Text.byteLength (p ++ q) = c.utf8Size + Text.byteLength p + _
      rw [ih, Nat.add_assoc]

/-- A code unit that is cut off. -/
theorem codeUnit_cut {p left : List Char} (h : Text.byteLength (p ++ left) = 4)
    (hleft : left ≠ []) : codeUnit p = .error .endOfText := by
  have hpos := List.length_pos_iff.mpr hleft
  have hbytes := Text.length_le_byteLength left
  have hlength := Text.length_le_byteLength p
  rw [byteLength_append] at h
  have htake : p.take 4 = p := List.take_of_length_le (by omega)
  have hfew : Text.byteLength (p.take 4) < 4 := by
    rw [htake]
    omega
  unfold codeUnit
  rw [if_pos hfew]

/-- An escape that is cut off behind its backslash. -/
theorem unquote_cut_backslash {b : Char} {bound code p left : List Char}
    (h : '\\' :: code = p ++ left)
    (hcode : ∀ q, code = q ++ left → escaped q = .error .endOfText) :
    unquote (b :: bound) p = .error .endOfText := by
  cases p with
  | nil => rfl
  | cons c q =>
      obtain ⟨rfl, hq⟩ := List.cons.inj h
      rw [unquote, if_neg (by decide), if_pos rfl, hcode q hq]

/-- **The escape of a character that is cut off.** -/
theorem unquote_cut_escape {c b : Char} {bound p left : List Char} (h : escape c = p ++ left)
    (hleft : left ≠ []) : unquote (b :: bound) p = .error .endOfText := by
  have hletter : ∀ x q : _, [x] = q ++ left → escaped q = .error .endOfText := by
    intro x q hq
    rcases List.append_eq_singleton_iff.mp hq.symm with ⟨rfl, -⟩ | ⟨-, rfl⟩
    · rfl
    · exact absurd rfl hleft
  have hsize : ∀ n < 16, (hexDigit n).utf8Size = 1 := by decide
  unfold escape at h
  split at h
  · exact unquote_cut_backslash h (hletter _)
  · exact unquote_cut_backslash h (hletter _)
  · exact unquote_cut_backslash h (hletter _)
  · exact unquote_cut_backslash h (hletter _)
  · exact unquote_cut_backslash h (hletter _)
  · exact unquote_cut_backslash h (hletter _)
  · exact unquote_cut_backslash h (hletter _)
  · split at h
    · -- a code unit, which may be cut off before its letter or among its digits
      rename_i hcontrol
      refine unquote_cut_backslash h fun q hq => ?_
      cases q with
      | nil => rfl
      | cons u q =>
          obtain ⟨rfl, hdigits⟩ := List.cons.inj hq
          have hbytes : Text.byteLength (q ++ left) = 4 := by
            have hdigits' : q ++ left = _ := hdigits.symm
            rw [hdigits']
            show '0'.utf8Size + ('0'.utf8Size + ((hexDigit (c.toNat / 16)).utf8Size +
              ((hexDigit (c.toNat % 16)).utf8Size + 0))) = 4
            rw [hsize _ (by omega), hsize _ (by omega)]
            rfl
          show unicodeEscape q = _
          rw [unicodeEscape, codeUnit_cut hbytes hleft]
    · rcases List.append_eq_singleton_iff.mp h.symm with ⟨rfl, -⟩ | ⟨-, rfl⟩
      · rfl
      · exact absurd rfl hleft

/-- **A text that is cut off before its closing quote ends too soon.** -/
theorem unquote_cut (cs bound : List Char) {p more rest : List Char}
    (h : p ++ more = cs.flatMap escape ++ '"' :: rest) :
    unquote bound p = .error .endOfText ∨
      ∃ left, left ++ more = rest ∧ unquote bound p = .ok (cs, left) := by
  induction cs generalizing bound p with
  | nil =>
      cases bound with
      | nil => exact Or.inl rfl
      | cons b bound =>
          cases p with
          | nil => exact Or.inl rfl
          | cons c p =>
              obtain ⟨rfl, hp⟩ := List.cons.inj h
              exact Or.inr ⟨p, hp, rfl⟩
  | cons c cs ih =>
      cases bound with
      | nil => exact Or.inl rfl
      | cons b bound =>
          rw [List.flatMap_cons, List.append_assoc] at h
          rcases List.append_eq_append_iff.mp h with ⟨left, hleft, hmore⟩ | ⟨q, rfl, hq⟩
          · by_cases hnil : left = []
            · subst hnil
              rw [List.append_nil] at hleft
              rw [← hleft, ← List.append_nil (escape c), unquote_escape]
              cases bound <;> exact Or.inl rfl
            · exact Or.inl (unquote_cut_escape hleft hnil)
          · rw [unquote_escape]
            rcases ih bound hq.symm with hend | ⟨left, hleft, hread⟩
            · rw [hend]
              exact Or.inl rfl
            · rw [hread]
              exact Or.inr ⟨left, hleft, rfl⟩

namespace Reader

variable {r : Reader α} {f : α → Reader β} {depth : Nat} {cs rest last : List Char} {a : α}
  {b : β}

theorem steady_textBody (s : String) (depth : Nat) (rest : List Char) :
    Steady textBody depth (s.toList.flatMap escape ++ '"' :: rest) s rest := by
  intro p more hp
  unfold textBody
  rcases unquote_cut s.toList p hp with hend | ⟨left, hleft, hread⟩
  · rw [hend]
    exact Or.inl rfl
  · rw [hread]
    refine Or.inr ⟨left, hleft, ?_⟩
    show Except.ok (String.ofList s.toList, left) = _
    rw [String.ofList_toList]

/-! ### Values -/

/-- **The reader is steady on the text of a value**, whatever stands around it. -/
structure SteadyOn (r : Reader α) (n : Nat) (cs : List Char) (a : α) : Prop where
  opens : Opens cs
  steady : ∀ {depth : Nat} {gap rest : List Char}, n ≤ depth → Gap gap → Delimited rest →
    Steady r depth (gap ++ (cs ++ rest)) a rest

/-- The reader is loose on the text of a value, whatever stands around it. -/
structure LooseOn (r : Reader α) (n : Nat) (cs : List Char) (a : α) : Prop where
  loose : ∀ {depth : Nat} {gap rest : List Char}, n ≤ depth → Gap gap → Delimited rest →
    Loose r depth (gap ++ (cs ++ rest)) a rest

namespace SteadyOn

variable {n : Nat}

theorem of_startingWith {g : Char → Reader α} {c : Char} {tail : List Char}
    (hc : isBlank c = false) (hclose : c ≠ ']')
    (h : ∀ {depth : Nat} {rest : List Char}, n ≤ depth → Delimited rest →
      Steady (g c) depth (tail ++ rest) a rest) : SteadyOn (startingWith g) n (c :: tail) a :=
  ⟨⟨c, tail, rfl, hc, hclose⟩, fun hn hgap hrest => steady_startingWith hgap hc (h hn hrest)⟩

theorem mono (h : SteadyOn r n cs a) {n' : Nat} (hn : n ≤ n') : SteadyOn r n' cs a :=
  ⟨h.opens, fun hdepth hgap hrest => h.steady (Nat.le_trans hn hdepth) hgap hrest⟩

theorem looseOn (h : SteadyOn r n cs a) : LooseOn r n cs a :=
  ⟨fun hn hgap hrest => (h.steady hn hgap hrest).loose⟩

/-- What is read may be turned into another value without reading on. -/
theorem andThen (h : SteadyOn r n cs a) (hf : ∀ depth rest, f a depth rest = .ok (b, rest)) :
    SteadyOn (r >>= f) n cs b :=
  ⟨h.opens, fun hn hgap hrest =>
    (h.steady hn hgap hrest).bind fun p _ hp => Or.inr ⟨p, hp, hf _ p⟩⟩

/-- Without a character nothing is read. -/
theorem read_nil (h : SteadyOn r n cs a) (hn : n ≤ depth) : r depth [] = .error .endOfText := by
  rcases h.steady hn gap_nil delimited_nil [] _ rfl with hend | ⟨left, hleft, -⟩
  · exact hend
  · obtain ⟨c, tail, rfl, -⟩ := h.opens
    simp at hleft

end SteadyOn

theorem steadyOn_textFor (expected s : String) : SteadyOn (textFor expected) 0 (quote s) s := by
  rw [quote_eq]
  refine .of_startingWith rfl (by decide) fun {depth rest} _ _ => ?_
  rw [if_pos rfl, List.append_assoc]
  exact steady_textBody s depth rest

theorem steadyOn_textOf (expected : String) {parse : String → Except String α} {s : String}
    (h : parse s = .ok a) : SteadyOn (textOf expected parse) 0 (quote s) a := by
  refine (steadyOn_textFor expected s).andThen fun depth rest => ?_
  rw [h]
  rfl

/-- A word that is cut off. -/
theorem steady_spell (ws : List Char) (depth : Nat) (rest : List Char) :
    Steady (fun _ => spell ws) depth (ws ++ rest) () rest := by
  induction ws with
  | nil => exact steady_pure () depth rest
  | cons w ws ih =>
      intro p more hp
      cases p with
      | nil => exact Or.inl rfl
      | cons c p =>
          obtain ⟨rfl, hp'⟩ := List.cons.inj hp
          show spell (c :: ws) (c :: p) = _ ∨ ∃ left, _ ∧ spell (c :: ws) (c :: p) = _
          rw [spell, if_pos rfl]
          exact ih p more hp'

/-- A `null` that is cut off, where the reader of the value needs text too. -/
theorem steadyOn_null (n : Nat) (hr : ∀ depth, r depth [] = .error .endOfText) :
    SteadyOn (orNull r) n "null".toList none := by
  refine ⟨⟨'n', _, rfl, rfl, by decide⟩, fun {depth gap rest} _ hgap _ p more hp => ?_⟩
  have hcons : p ++ more = gap ++ 'n' :: ("ull".toList ++ rest) := hp
  rcases beginning_gap_cons hgap hcons with hp | ⟨q, rfl, hq⟩
  · unfold orNull
    rw [hp.skipBlanks_eq_nil]
    exact Or.inl (bind_of_error (hr depth))
  · unfold orNull
    rw [skipBlanks_gap_cons hgap rfl]
    exact (steady_spell "ull".toList depth rest).bind (steady_pure none depth rest) q more hq

/-- Where no `null` starts, an optional value is steady like a value. -/
theorem SteadyOn.orNull {n : Nat} (h : SteadyOn r n cs a) (hnull : cs.head? ≠ some 'n') :
    SteadyOn (orNull r) n cs (some a) := by
  refine ⟨h.opens, fun {depth gap rest} hn hgap hrest p more hp => ?_⟩
  have hsteady := (h.steady hn gap_nil hrest).bind
    (f := fun a => (pure (some a) : Reader (Option α))) (steady_pure (some a) depth rest)
  have hnil := h.read_nil hn
  obtain ⟨c, tail, rfl, hc, -⟩ := h.opens
  have hcons : p ++ more = gap ++ c :: (tail ++ rest) := hp
  rcases beginning_gap_cons hgap hcons with hp | ⟨q, rfl, hq⟩
  · unfold Reader.orNull
    rw [hp.skipBlanks_eq_nil]
    exact Or.inl (bind_of_error hnil)
  · have hother : Reader.orNull r depth (gap ++ c :: q) =
        (do return some (← r) : Reader (Option α)) depth (c :: q) := by
      unfold Reader.orNull
      rw [skipBlanks_gap_cons hgap hc]
      split
      · rename_i heq
        exact absurd (congrArg some (List.cons.inj heq).1) hnull
      · rfl
    rw [hother]
    exact hsteady (c :: q) more (congrArg (c :: ·) hq)

/-! ### Lists -/

/-- **The loop over a list** is steady if its items are: without the closing bracket the
text ends too soon. -/
theorem steady_items {item : Reader α} {n : Nat} (hn : n ≤ depth) {first : Bool}
    {pieces : List (List Char)} (h : Separated first cs pieces) {as : List α}
    (hitems : List.Forall₂ (SteadyOn item n) pieces as) (bound rest : List Char) :
    Steady (items item bound first) depth (cs ++ ']' :: rest) as (']' :: rest) := by
  -- the bound may be any text: where it is too short, the text ends too soon as well
  induction h generalizing as bound with
  | nil blank =>
      obtain rfl := List.forall₂_nil_left_iff.mp hitems
      cases bound with
      | nil => exact steady_fail
      | cons b bound =>
          unfold items
          exact (steady_nextItem_close _ blank).bind (steady_pure [] depth _)
  | @cons first before after piece tail pieces blankBefore blankAfter more ih =>
      obtain ⟨a, as, hpiece, hpieces, rfl⟩ := List.forall₂_cons_left_iff.mp hitems
      cases bound with
      | nil => exact steady_fail
      | cons b bound =>
          simp only [List.append_assoc]
          unfold items
          refine (steady_nextItem_piece first blankBefore blankAfter hpiece.opens).bind ?_
          rw [if_pos rfl]
          refine (hpiece.steady hn gap_nil (more.delimited (Or.inl rfl) rest)).bind ?_
          exact (ih hpieces bound).bind (steady_pure (a :: as) depth _)

theorem SteadyOn.list {item : Reader α} {n : Nat} {pieces : List (List Char)}
    (h : Separated true cs pieces) {as : List α}
    (hitems : List.Forall₂ (SteadyOn item n) pieces as) :
    SteadyOn (list item) (n + 1) ('[' :: (cs ++ [']'])) as := by
  refine .of_startingWith rfl (by decide) fun {depth rest} hn hrest => ?_
  obtain ⟨d, rfl⟩ := Nat.exists_eq_succ_of_ne_zero (Nat.ne_zero_of_lt hn)
  rw [if_pos rfl, List.append_assoc]
  have hloop : Steady (bounded fun bound => items item bound true) d (cs ++ ']' :: rest) as
      (']' :: rest) :=
    steady_bounded fun bound => steady_items (Nat.le_of_succ_le_succ hn) h hitems bound rest
  exact (hloop.bind (steady_closeList.bind (steady_pure as d rest))).nested

/-! ### Maps -/

/-- The reader is steady on the key `k`, after the opening quote. -/
def SteadyKey (key : Reader κ) (k : String) (a : κ) : Prop :=
  ∀ depth rest, Steady key depth (k.toList.flatMap escape ++ '"' :: rest) a rest

/-- **The loop over a map** is steady if its keys and values are. -/
theorem steady_entries {key : Reader κ} {value : Reader α} {n : Nat} (hn : n ≤ depth)
    {first : Bool} {pieces : List (List Char)} (h : Separated first cs pieces)
    {members : List (String × List Char)}
    (hmembers : List.Forall₂ (fun m piece => Member m.1 m.2 piece) members pieces)
    {es : List (κ × α)}
    (hentries : List.Forall₂ (fun m e => SteadyKey key m.1 e.1 ∧ SteadyOn value n m.2 e.2)
      members es) (bound rest : List Char) :
    Steady (entries key value bound first) depth (cs ++ '\x7d' :: rest) es
      ('\x7d' :: rest) := by
  induction h generalizing members es bound with
  | nil blank =>
      obtain rfl := List.forall₂_nil_right_iff.mp hmembers
      obtain rfl := List.forall₂_nil_left_iff.mp hentries
      cases bound with
      | nil => exact steady_fail
      | cons b bound =>
          unfold entries
          exact (steady_nextKey_close _ blank).bind (steady_pure [] depth _)
  | @cons first before after piece tail pieces blankBefore blankAfter more ih =>
      obtain ⟨m, members, hpiece, hpieces, rfl⟩ := List.forall₂_cons_right_iff.mp hmembers
      obtain ⟨e, es, ⟨hkey, hvalue⟩, hmore, rfl⟩ := List.forall₂_cons_left_iff.mp hentries
      cases bound with
      | nil => exact steady_fail
      | cons b bound =>
          obtain ⟨cs, gap, hgap, hnext, hcolon⟩ := steady_nextKey_member first depth blankBefore
            blankAfter hpiece (tail ++ '\x7d' :: rest)
          simp only [List.append_assoc]
          unfold entries
          refine hnext.bind ?_
          rw [if_pos rfl]
          refine (hkey depth cs).bind (hcolon.bind ?_)
          refine (hvalue.steady hn hgap (more.delimited (Or.inr rfl) rest)).bind ?_
          exact (ih hpieces hmore bound).bind (steady_pure (e :: es) depth _)

theorem SteadyOn.map {parseKey : String → Except String κ} {value : Reader α} {n : Nat}
    {pieces : List (List Char)} (h : Separated true cs pieces)
    {members : List (String × List Char)}
    (hmembers : List.Forall₂ (fun m piece => Member m.1 m.2 piece) members pieces)
    {es : List (κ × α)}
    (hentries : List.Forall₂ (fun m e => parseKey m.1 = .ok e.1 ∧ SteadyOn value n m.2 e.2)
      members es) :
    SteadyOn (map parseKey value) (n + 1) ('\x7b' :: (cs ++ ['\x7d'])) es := by
  refine .of_startingWith rfl (by decide) fun {depth rest} hn hrest => ?_
  obtain ⟨d, rfl⟩ := Nat.exists_eq_succ_of_ne_zero (Nat.ne_zero_of_lt hn)
  rw [if_pos rfl, List.append_assoc]
  refine Steady.nested (Steady.bind (steady_bounded fun bound =>
    steady_entries (Nat.le_of_succ_le_succ hn) h hmembers (hentries.imp ?_) bound rest)
    (steady_closeObject.bind (steady_pure es d rest)))
  intro m e hme
  refine ⟨fun depth rest => (steady_textBody m.1 depth rest).bind ?_, hme.2⟩
  rw [hme.1]
  exact steady_pure e.1 depth rest

/-! ### Trees -/

theorem steadyOn_valueAt_quote (depth : Nat) (s : String) :
    SteadyOn (valueAt depth) 0 (quote s) (.string s) := by
  have hbody : ∀ (inner : Option (Reader Value)) (outer : Nat) (rest : List Char),
      Steady (valueFrom inner '"') outer (s.toList.flatMap escape ++ '"' :: rest) (.string s)
        rest :=
    fun _ outer rest =>
      (steady_textBody s outer rest).bind (steady_pure (Value.string s) outer rest)
  rw [quote_eq]
  cases depth with
  | zero =>
      refine SteadyOn.of_startingWith (g := valueFrom none) rfl (by decide) fun _ _ => ?_
      rw [List.append_assoc]
      exact hbody none _ _
  | succ depth =>
      refine SteadyOn.of_startingWith (g := valueFrom (some (valueAt depth))) rfl (by decide)
        fun _ _ => ?_
      rw [List.append_assoc]
      exact hbody (some (valueAt depth)) _ _

/-- A list of texts that is read as a tree. -/
theorem steadyOn_texts {texts : List String} (h : Separated true cs (texts.map quote)) :
    SteadyOn value 1 ('[' :: (cs ++ [']'])) (.ofTexts texts) := by
  have hitems : ∀ d, List.Forall₂ (SteadyOn (valueAt d) 0) (texts.map quote)
      (texts.map Value.string) := by
    intro d
    rw [List.forall₂_map_left_iff, List.forall₂_map_right_iff, List.forall₂_same]
    exact fun s _ => steadyOn_valueAt_quote d s
  refine ⟨⟨'[', _, rfl, rfl, by decide⟩, fun {depth gap rest} hn hgap hrest => ?_⟩
  obtain ⟨d, rfl⟩ := Nat.exists_eq_succ_of_ne_zero (Nat.ne_zero_of_lt hn)
  have hloop : Steady (bounded fun bound => items (valueAt d) bound true) (d + 1)
      (cs ++ ']' :: rest) (texts.map Value.string) (']' :: rest) :=
    steady_bounded fun bound => steady_items (Nat.zero_le _) h (hitems d) bound rest
  rw [List.cons_append, List.append_assoc]
  exact steady_startingWith (g := valueFrom (some (valueAt d))) hgap rfl
    (hloop.bind (steady_closeList.bind (steady_pure (Value.ofTexts texts) (d + 1) rest)))

/-! ### Whole texts -/

/-- **A text that is cut off ends too soon**, unless only blanks at its end are missing. -/
theorem SteadyOn.readAll_cut {n : Nat} (h : SteadyOn r n cs a) (hn : n ≤ maxNesting)
    {before after : List Char} (hbefore : Gap before) (hafter : Gap after) {text p : String}
    (htext : text.toList = before ++ (cs ++ after)) (hp : p.toList <+: text.toList) :
    readAll r p = .error .endOfText ∨
      ∃ left gap, left ++ gap = after ∧ p.toList ++ gap = text.toList ∧ readAll r p = .ok a := by
  obtain ⟨gap, hgap⟩ := hp
  rcases h.steady hn hbefore hafter.delimited p.toList gap (hgap.trans htext) with
    hend | ⟨left, hleft, hread⟩
  · left
    unfold readAll
    rw [hend]
  · have hblank : Gap left := fun c hc => hafter c (hleft ▸ List.mem_append_left gap hc)
    exact Or.inr ⟨left, gap, hleft, hgap, readAll_of_gap hread hblank⟩

/-- A written text that is cut off ends too soon. -/
theorem SteadyOn.readAll_cut_pretty {n : Nat} {v : Value}
    (h : SteadyOn r n (v.write .indented 0) a) (hn : n ≤ maxNesting) {p : String}
    (hp : p.toList <+: v.pretty.toList) (hne : p ≠ v.pretty) :
    readAll r p = .error .endOfText := by
  have htext : v.pretty.toList = [] ++ (v.write .indented 0 ++ []) := by simp [Value.pretty]
  rcases h.readAll_cut hn gap_nil gap_nil htext hp with hend | ⟨left, gap, hleft, hgap, -⟩
  · exact hend
  · obtain ⟨-, rfl⟩ := List.append_eq_nil_iff.mp hleft
    rw [List.append_nil] at hgap
    exact absurd (String.toList_injective hgap) hne

end Reader

/-! ### Records -/

namespace Shape.Slots

open Reader

variable {shape : Shape σ α} {slots : List (Slot σ)} {a : α}

/-- **The loop over a record** is steady if its fields are loose and all members name
fields: behind a field the object must go on. -/
theorem steady_object (h : shape.Slots slots a) {n depth : Nat} (hn : n ≤ depth)
    (hloose : ∀ p ∈ slots, ∀ cs, p.form.spelled cs → LooseOn p.reader n cs p.value)
    {first : Bool} {cs : List Char} {pieces : List (List Char)}
    (hlayout : Separated first cs pieces) {members : List (String × List Char)}
    (hmembers : List.Forall₂ (fun m piece => Member m.1 m.2 piece) members pieces)
    {draft last : σ} (hrun : Slot.Run noStray slots draft members last)
    (bound rest : List Char) :
    Steady (shape.object bound first draft) depth (cs ++ '\x7d' :: rest) last
      ('\x7d' :: rest) := by
  induction hlayout generalizing members draft bound with
  | nil blank =>
      obtain rfl := List.forall₂_nil_right_iff.mp hmembers
      cases hrun
      cases bound with
      | nil => exact steady_fail
      | cons b bound =>
          unfold object
          exact (steady_nextKey_close _ blank).bind (steady_pure last depth _)
  | @cons first before after piece tail pieces blankBefore blankAfter more ih =>
      obtain ⟨m, members, hpiece, hpieces, rfl⟩ := List.forall₂_cons_right_iff.mp hmembers
      cases bound with
      | nil => exact steady_fail
      | cons b bound =>
          obtain ⟨cs, gap, hgap, hnext, hcolon⟩ := steady_nextKey_member first depth blankBefore
            blankAfter hpiece (tail ++ '\x7d' :: rest)
          cases hrun with
          | skip _ value _ => exact value.elim
          | @fill _ _ p text _ mem unset value hmore =>
              have hread := ((hloose p mem text value).loose hn hgap
                (more.delimited (Or.inr rfl) rest)).map (p.set draft)
              have hneeds : ∀ draft', shape.object bound false draft' depth [] =
                  .error .endOfText := by
                intro draft'
                cases bound <;> rfl
              simp only [List.append_assoc]
              unfold object
              refine hnext.bind ?_
              rw [if_pos rfl]
              refine (steady_textBody _ depth cs).bind ?_
              rw [h.find?_key mem]
              dsimp only
              rw [isSet_field unset, if_neg Bool.false_ne_true]
              exact hcolon.bind (hread.bind (ih hpieces hmore bound) hneeds)

/-- **A record is steady** on each of its spellings without stray members. -/
theorem steadyOn_record (h : shape.Slots slots a) {n : Nat}
    (hloose : ∀ p ∈ slots, ∀ cs, p.form.spelled cs → LooseOn p.reader n cs p.value)
    {cs : List Char} (hcs : SpellsRecord noStray (slots.map Slot.form) cs) :
    SteadyOn (record shape) (n + 1) cs a := by
  obtain ⟨members, ⟨inner, pieces, hlayout, hmembers, rfl⟩, hrecord⟩ := hcs
  obtain ⟨last, hrun, hfinish⟩ := h.exists_run hrecord
  refine .of_startingWith rfl (by decide) fun {depth rest} hn hrest => ?_
  obtain ⟨d, rfl⟩ := Nat.exists_eq_succ_of_ne_zero (Nat.ne_zero_of_lt hn)
  have hloop : Steady (bounded fun bound => shape.object bound true shape.start) d
      (inner ++ '\x7d' :: rest) last ('\x7d' :: rest) :=
    steady_bounded fun bound => h.steady_object (Nat.le_of_succ_le_succ hn) hloose hlayout
      hmembers hrun bound rest
  have hchecked : Steady (check (shape.finishObject last)) d ('\x7d' :: rest) a
      ('\x7d' :: rest) := by
    unfold Shape.finishObject
    rw [hfinish]
    exact steady_pure a d _
  rw [if_pos rfl, List.append_assoc]
  exact (hloop.bind (hchecked.bind (steady_closeObject.bind (steady_pure a d rest)))).nested

end Shape.Slots

end Sequencer.Json
