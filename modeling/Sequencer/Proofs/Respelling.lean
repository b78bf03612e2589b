import Sequencer.Proofs.Forms

/-!
# All spellings are read alike

Every spelling of a description is read as that description, with any well-formed value
behind a key that names no field.  Each part takes each of its spellings, and a record
takes its members in any order because they fill different slots of its draft.

## Main Results

* `Cases.takes_spelled`, `SignalMap.takes_spelled` — cases and maps.
* `Output.takes_spelled`, `Rule.takes_spelled`, `State.takes_spelled` — the parts.
* `spellings_load_alike` — every spelling is read as the description.
-/

namespace Sequencer

open Json Json.Reader

/-! ### Values without fields -/

section Values

variable {α : Type}

theorem takes_isQuoted {s : String} {cs : List Char} (h : IsQuoted s cs) :
    Takes Json.Reader.text 0 cs s := by
  unfold IsQuoted at h
  rw [h]
  exact takes_textFor "a string" s

/-- A list is taken in each of its layouts if its items are. -/
theorem takes_isListOf {spelled : α → List Char → Prop} {item : Reader α} {n : Nat}
    (h : ∀ a cs, spelled a cs → Takes item n cs a) {as : List α} {cs : List Char}
    (hcs : IsListOf spelled as cs) : Takes (list item) (n + 1) cs as := by
  obtain ⟨inner, pieces, hlayout, hitems, rfl⟩ := hcs
  exact Takes.list hlayout (hitems.flip.imp fun cs a => h a cs)

/-- Where there is nothing, `null` is taken. -/
theorem takes_null (r : Reader α) (n : Nat) : Takes (orNull r) n "null".toList none := by
  refine ⟨⟨'n', _, rfl, rfl, by decide⟩, fun {depth gap rest} _ hgap _ => ?_⟩
  have hskip : skipBlanks (gap ++ ("null".toList ++ rest)) = 'n' :: ("ull".toList ++ rest) :=
    skipBlanks_gap_cons hgap rfl _
  unfold orNull
  rw [hskip]
  rfl

/-- An optional value is taken in each of its spellings, none of which starts like
`null`. -/
theorem takes_isOptional {spelled : α → List Char → Prop} {r : Reader α} {n : Nat}
    (h : ∀ a cs, spelled a cs → Takes r n cs a ∧ cs.head? ≠ some 'n') {value : Option α}
    {cs : List Char} (hcs : IsOptional spelled value cs) : Takes (orNull r) n cs value := by
  cases value with
  | none =>
      obtain rfl : cs = "null".toList := hcs
      exact takes_null r n
  | some a =>
      obtain ⟨htakes, hhead⟩ := h a cs hcs
      exact htakes.orNull hhead

end Values

theorem Cases.takes_spelled {c : Cases} {cs : List Char} (h : c.Spelled cs) :
    Takes Cases.reader 1 cs c := by
  rcases h with ⟨inner, pieces, hlayout, hquoted, rfl⟩ | ⟨s, rfl, hquoted⟩
  · obtain rfl := map_quote_eq hquoted
    refine (takes_texts hlayout).andThen fun depth rest => ?_
    have hchecked : Cases.ofJson (.ofTexts c.values) = .ok c := c.ofJson_toJson
    rw [hchecked]
    rfl
  · unfold IsQuoted at hquoted
    rw [hquoted]
    -- the reader of any value looks at how many containers may be opened, a text does not
    have hvalue : Takes value 1 (quote s) (.string s) :=
      ⟨opens_quote s, fun {depth gap rest} _ hgap hrest =>
        (takes_valueAt_quote depth s).read (Nat.zero_le depth) hgap hrest⟩
    exact hvalue.andThen fun depth rest => rfl

namespace SignalMap

variable {α : Type}

/-- **A map is taken in each of its spellings** if its values are. -/
theorem takes_spelled {spelled : α → List Char → Prop} {value : Reader α} {n : Nat}
    (h : ∀ a cs, spelled a cs → Takes value n cs a) {m : SignalMap α} {cs : List Char}
    (hcs : m.Spelled spelled cs) : Takes (SignalMap.reader value) (n + 1) cs m := by
  obtain ⟨members, pairs, ⟨inner, pieces, hlayout, hmembers, rfl⟩, hpairs, hlast⟩ := hcs
  have hentries : Takes (Json.Reader.map Signal.parse value) (n + 1)
      ('\x7b' :: (inner ++ ['\x7d'])) pairs := by
    refine Takes.map hlayout hmembers (hpairs.imp fun member p hp => ⟨?_, h p.2 member.2 hp.2⟩)
    rw [hp.1]
    exact p.1.parse_name
  exact hentries.andThen fun depth rest => ofList_eq hlast ▸ rfl

end SignalMap

/-! ### Records -/

/-- What may stand behind a key that names no field is skipped. -/
theorem takes_stray (n : Nat) : ∀ cs, WellFormed cs → Takes skipValue n cs () :=
  fun _ h => h.takes_skipValue.mono (Nat.zero_le n)

theorem takes_isOptional_isQuoted {value : Option String} {cs : List Char}
    (h : IsOptional IsQuoted value cs) : Takes (orNull Json.Reader.text) 0 cs value := by
  exact takes_isOptional (fun s cs hs => ⟨takes_isQuoted hs, hs.head?_ne⟩) h

theorem Emitter.takes_spelled {e : Emitter} {cs : List Char}
    (h : SpellsRecord WellFormed e.forms cs) : Takes Emitter.reader 1 cs e := by
  refine e.slots_shape.takes_record ?_ (takes_stray 0) h
  simp only [slots, List.forall_mem_cons]
  exact ⟨fun _ => takes_isQuoted, fun _ => takes_isQuoted, fun _ => takes_isQuoted,
    List.forall_mem_nil _⟩

theorem Output.takes_spelled {o : Output} {cs : List Char}
    (h : SpellsRecord WellFormed o.forms cs) : Takes Output.reader 3 cs o := by
  refine o.slots_shape.takes_record ?_ (takes_stray 2) h
  simp only [slots, List.forall_mem_cons]
  refine ⟨fun _ => SignalMap.takes_spelled fun _ _ => Cases.takes_spelled, fun _ h => ?_,
    List.forall_mem_nil _⟩
  exact (SignalMap.takes_spelled (fun _ _ => takes_isQuoted) h).mono (by decide)

theorem Rule.takes_spelled {r : Rule} {cs : List Char} (h : SpellsRecord WellFormed r.forms cs) :
    Takes Rule.reader 2 cs r := by
  have htext : ∀ (value : Option String) cs, IsOptional IsQuoted value cs →
      Takes (orNull Json.Reader.text) 1 cs value :=
    fun value cs h => (takes_isOptional_isQuoted h).mono (by decide)
  refine r.slots_shape.takes_record ?_ (takes_stray 1) h
  simp only [slots, List.forall_mem_cons]
  exact ⟨fun _ => Cases.takes_spelled, fun _ => Cases.takes_spelled, htext _, htext _,
    htext _, List.forall_mem_nil _⟩

theorem State.takes_spelled {s : State} {cs : List Char}
    (h : SpellsRecord WellFormed (s.forms WellFormed) cs) : Takes State.reader 4 cs s := by
  have hrule : ∀ (r : Rule) cs, SpellsRecord WellFormed r.forms cs →
      Takes Rule.reader 3 cs r ∧ cs.head? ≠ some 'n' :=
    fun r cs h => ⟨(Rule.takes_spelled h).mono (by decide), h.head?_ne⟩
  refine s.slots_shape.takes_record ?_ (takes_stray 3) h
  simp only [slots, List.forall_mem_cons]
  exact ⟨fun _ h => (takes_isQuoted h).mono (by decide), fun _ => Output.takes_spelled,
    fun _ => takes_isOptional hrule, List.forall_mem_nil _⟩

theorem Description.takes_spelled {d : Description} {cs : List Char}
    (h : SpellsRecord WellFormed (d.forms WellFormed) cs) : Takes Description.reader 6 cs d := by
  refine d.slots_shape.takes_record ?_ (takes_stray 5) h
  simp only [slots, List.forall_mem_cons]
  exact ⟨fun _ h => (Emitter.takes_spelled h).mono (by decide),
    fun _ => takes_isListOf fun _ _ => State.takes_spelled, List.forall_mem_nil _⟩

/-- **Every spelling of a description is read as that description.**  The order of the
members, members that name no field with any well-formed value, defaults that are left
out, what is written as `null`, a single case without brackets, the order and the
repetitions of the entries of a map, and blanks make no difference, in any combination.
The written text is one of the spellings. -/
theorem spellings_load_alike (d : Description) :
    d.Spelled WellFormed d.pretty ∧
      ∀ text, d.Spelled WellFormed text → Description.parse text = .ok d := by
  refine ⟨d.spelled_pretty, fun text htext => ?_⟩
  obtain ⟨before, cs, after, hbefore, hafter, hcs, htext⟩ := htext
  exact (Description.takes_spelled hcs).readAll_gaps (by decide) hbefore hafter htext

/-- An output that enables writing. -/
def writing : Output := ⟨SignalMap.empty.set .writeEnable (.single "1"), .empty⟩

/-- A description of one state without a rule, with standard settings. -/
def writeOnce : Description := ⟨.standard, [⟨"GO", writing, none⟩]⟩

/-- A well-formed value that nothing can be read from: its number is too large, and its
text is no sequence of characters. -/
theorem wellFormed_stray : WellFormed "[-1.5e400,\"\\ud800\"]".toList := by
  have hdigits : IsDigits ['1'] ∧ IsDigits ['5'] ∧ IsDigits ['4', '0', '0'] := by
    simp [IsDigits]
  have hnumber : IsNumber "-1.5e400".toList :=
    Or.inr ⟨_, ⟨_, _, _, Or.inr ⟨hdigits.1, by decide⟩, Or.inr ⟨_, hdigits.2.1, rfl⟩,
      Or.inr ⟨'e', [], _, Or.inl rfl, Or.inl rfl, hdigits.2.2, rfl⟩, rfl⟩, rfl⟩
  have hunit : IsTextPart ['\\', 'u', 'd', '8', '0', '0'] := .unit (by simp [IsHexDigit])
  have htext : IsText "\"\\ud800\"".toList := ⟨_, List.forall_mem_singleton.mpr hunit, rfl⟩
  have hitems : ∀ piece ∈ ["-1.5e400".toList, "\"\\ud800\"".toList], WellFormed piece :=
    List.forall_mem_cons.mpr ⟨.number hnumber, List.forall_mem_singleton.mpr (.text htext)⟩
  exact .list (separated_commas _) hitems

/-- The labels are left out, and of two entries for the same signal the second counts. -/
theorem writing_spelled : SpellsRecord WellFormed writing.forms
    "\x7b\"signals\":\x7b\"we\":[\"0\",\"1\"],\"we\":\"1\"\x7d\x7d".toList := by
  have hlist : Cases.Spelled ⟨["0", "1"]⟩ "[\"0\",\"1\"]".toList :=
    Or.inl ⟨_, _, separated_commas _, .cons rfl (.cons rfl .nil), rfl⟩
  have hsingle : Cases.Spelled (.single "1") "\"1\"".toList := Or.inr ⟨"1", rfl, rfl⟩
  have hsignals : writing.values.Spelled Cases.Spelled
      "\x7b\"we\":[\"0\",\"1\"],\"we\":\"1\"\x7d".toList := by
    refine ⟨[("we", "[\"0\",\"1\"]".toList), ("we", "\"1\"".toList)],
      [(.writeEnable, ⟨["0", "1"]⟩), (.writeEnable, .single "1")], isObject_commas _,
      .cons ⟨rfl, hlist⟩ (.cons ⟨rfl, hsingle⟩ .nil), fun s => ?_⟩
    cases s <;> rfl
  have hinOrder : InOrder writing.forms [("signals", _)] := .keep hsignals (.leave rfl .nil)
  exact ⟨_, isObject_commas _, hinOrder.isRecord writing.slots_shape.distinct⟩

/-- A text with blanks around it, without the settings, with the fields of the state in
another order, a member that names no field and a rule written as `null`. -/
def writeOnceText : String :=
  " \x7b\"states\":[\x7b\"transition\":null,\"note\":[-1.5e400,\"\\ud800\"]," ++
    "\"output\":\x7b\"signals\":\x7b\"we\":[\"0\",\"1\"],\"we\":\"1\"\x7d\x7d," ++
    "\"name\":\"GO\"\x7d]\x7d\n"

theorem writeOnceText_spelled : writeOnce.Spelled WellFormed writeOnceText := by
  have hrecord : IsRecord WellFormed (State.forms WellFormed ⟨"GO", writing, none⟩)
      [("transition", "null".toList), ("note", "[-1.5e400,\"\\ud800\"]".toList),
        ("output", "\x7b\"signals\":\x7b\"we\":[\"0\",\"1\"],\"we\":\"1\"\x7d\x7d".toList),
        ("name", "\"GO\"".toList)] :=
    ⟨by simpa [State.forms, IsQuoted, IsOptional] using ⟨writing_spelled, rfl⟩,
      by simpa [State.forms] using wellFormed_stray,
      by simp [State.forms], by simp [State.forms]⟩
  have hstates :
      IsListOf (fun s => SpellsRecord WellFormed (s.forms WellFormed)) writeOnce.states _ :=
    ⟨_, _, separated_commas _, .cons ⟨_, isObject_commas _, hrecord⟩ .nil, rfl⟩
  have hinOrder : InOrder (writeOnce.forms WellFormed) [("states", _)] :=
    .leave rfl (.keep hstates .nil)
  have hblank : Gap [' '] ∧ Gap ['\n'] := by simp [Gap, isBlank]
  refine ⟨[' '], _, ['\n'], hblank.1, hblank.2,
    ⟨_, isObject_commas _, hinOrder.isRecord (Description.slots_shape writeOnce).distinct⟩, ?_⟩
  unfold writeOnceText
  rw [String.toList_append, String.toList_append]
  rfl

/-- The text spells the description, and it is read as such. -/
theorem writeOnceText_loads :
    writeOnce.Spelled WellFormed writeOnceText ∧ Description.parse writeOnceText = .ok writeOnce :=
  ⟨writeOnceText_spelled, (spellings_load_alike writeOnce).2 writeOnceText writeOnceText_spelled⟩

end Sequencer
