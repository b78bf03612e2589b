import Sequencer.Proofs.Json.Numbers
import Sequencer.Proofs.Manifests
import Sequencer.Proofs.Timestamps

/-!
# Files that are cut off

A text that was cut off, at whatever character, is never taken for a whole one, although
most fields may be left out, and never for one of another shape or version.  All that is
found is that the text ends too soon.

This holds for every spelling of a description without stray members, and so for its
written text.  A manifest has a number in it, which may be cut off between two digits,
and a time, which is checked where it ends; the check must not fail before the end of the
text is found.

## Main Results

* `Cases.steadyOn_spelled`, `SignalMap.steadyOn_spelled` — cases and maps.
* `Output.steadyOn_spelled`, `Rule.steadyOn_spelled`, `State.steadyOn_spelled` — the parts.
* `Description.parse_cut` — every spelling of a description that is cut off.
* `Manifest.steadyOn_spelled` — manifests.
* `truncated_texts_end_too_soon` — written texts that are cut off.
-/

namespace Sequencer

open Json Json.Reader

/-! ### Values without fields -/

section Values

variable {α : Type}

theorem steadyOn_isQuoted {s : String} {cs : List Char} (h : IsQuoted s cs) :
    SteadyOn Json.Reader.text 0 cs s := by
  unfold IsQuoted at h
  rw [h]
  exact steadyOn_textFor "a string" s

theorem steadyOn_isListOf {spelled : α → List Char → Prop} {item : Reader α} {n : Nat}
    (h : ∀ a cs, spelled a cs → SteadyOn item n cs a) {as : List α} {cs : List Char}
    (hcs : IsListOf spelled as cs) : SteadyOn (list item) (n + 1) cs as := by
  obtain ⟨inner, pieces, hlayout, hitems, rfl⟩ := hcs
  exact SteadyOn.list hlayout (hitems.flip.imp fun cs a => h a cs)

/-- An optional value, none of whose spellings starts like `null`. -/
theorem steadyOn_isOptional {spelled : α → List Char → Prop} {r : Reader α} {n : Nat}
    (hr : ∀ depth, r depth [] = .error .endOfText)
    (h : ∀ a cs, spelled a cs → SteadyOn r n cs a ∧ cs.head? ≠ some 'n') {value : Option α}
    {cs : List Char} (hcs : IsOptional spelled value cs) : SteadyOn (orNull r) n cs value := by
  cases value with
  | none =>
      obtain rfl : cs = "null".toList := hcs
      exact steadyOn_null n hr
  | some a =>
      obtain ⟨hsteady, hhead⟩ := h a cs hcs
      exact hsteady.orNull hhead

end Values

theorem Cases.steadyOn_spelled {c : Cases} {cs : List Char} (h : c.Spelled cs) :
    SteadyOn Cases.reader 1 cs c := by
  rcases h with ⟨inner, pieces, hlayout, hquoted, rfl⟩ | ⟨s, rfl, hquoted⟩
  · obtain rfl := map_quote_eq hquoted
    refine (steadyOn_texts hlayout).andThen fun depth rest => ?_
    have hchecked : Cases.ofJson (.ofTexts c.values) = .ok c := c.ofJson_toJson
    rw [hchecked]
    rfl
  · unfold IsQuoted at hquoted
    rw [hquoted]
    have hvalue : SteadyOn value 1 (quote s) (.string s) :=
      ⟨opens_quote s, fun {depth gap rest} _ hgap hrest =>
        (steadyOn_valueAt_quote depth s).steady (Nat.zero_le depth) hgap hrest⟩
    exact hvalue.andThen fun depth rest => rfl

theorem SignalMap.steadyOn_spelled {α : Type} {spelled : α → List Char → Prop}
    {value : Reader α} {n : Nat} (h : ∀ a cs, spelled a cs → SteadyOn value n cs a)
    {m : SignalMap α} {cs : List Char} (hcs : m.Spelled spelled cs) :
    SteadyOn (SignalMap.reader value) (n + 1) cs m := by
  obtain ⟨members, pairs, ⟨inner, pieces, hlayout, hmembers, rfl⟩, hpairs, hlast⟩ := hcs
  have hentries : SteadyOn (Json.Reader.map Signal.parse value) (n + 1)
      ('\x7b' :: (inner ++ ['\x7d'])) pairs := by
    refine SteadyOn.map hlayout hmembers
      (hpairs.imp fun member p hp => ⟨?_, h p.2 member.2 hp.2⟩)
    rw [hp.1]
    exact p.1.parse_name
  exact hentries.andThen fun depth rest => ofList_eq hlast ▸ rfl

/-! ### Records -/

theorem Emitter.steadyOn_spelled {e : Emitter} {cs : List Char}
    (h : SpellsRecord noStray e.forms cs) : SteadyOn Emitter.reader 1 cs e := by
  have htext : ∀ (s : String) cs, IsQuoted s cs → LooseOn Json.Reader.text 0 cs s :=
    fun _ _ h => (steadyOn_isQuoted h).looseOn
  refine e.slots_shape.steadyOn_record ?_ h
  simp only [slots, List.forall_mem_cons]
  exact ⟨htext _, htext _, htext _, List.forall_mem_nil _⟩

theorem Output.steadyOn_spelled {o : Output} {cs : List Char}
    (h : SpellsRecord noStray o.forms cs) : SteadyOn Output.reader 3 cs o := by
  refine o.slots_shape.steadyOn_record ?_ h
  simp only [slots, List.forall_mem_cons]
  refine ⟨fun _ h => ?_, fun _ h => ?_, List.forall_mem_nil _⟩
  · exact (SignalMap.steadyOn_spelled (fun _ _ => Cases.steadyOn_spelled) h).looseOn
  · have hlabels := SignalMap.steadyOn_spelled (fun _ _ => steadyOn_isQuoted) h
    exact (hlabels.mono (by decide)).looseOn

theorem Rule.steadyOn_spelled {r : Rule} {cs : List Char} (h : SpellsRecord noStray r.forms cs) :
    SteadyOn Rule.reader 2 cs r := by
  have hcases : ∀ (c : Cases) cs, c.Spelled cs → LooseOn Cases.reader 1 cs c :=
    fun _ _ h => (Cases.steadyOn_spelled h).looseOn
  have htext : ∀ (value : Option String) cs, IsOptional IsQuoted value cs →
      LooseOn (orNull Json.Reader.text) 1 cs value := by
    intro value cs h
    have hsteady : SteadyOn (orNull Json.Reader.text) 0 cs value :=
      steadyOn_isOptional (fun _ => rfl) (fun s cs hs => ⟨steadyOn_isQuoted hs, hs.head?_ne⟩) h
    exact (hsteady.mono (by decide)).looseOn
  refine r.slots_shape.steadyOn_record ?_ h
  simp only [slots, List.forall_mem_cons]
  exact ⟨hcases _, hcases _, htext _, htext _, htext _, List.forall_mem_nil _⟩

theorem State.steadyOn_spelled {s : State} {cs : List Char}
    (h : SpellsRecord noStray (s.forms noStray) cs) : SteadyOn State.reader 4 cs s := by
  have hrule : ∀ (r : Rule) cs, SpellsRecord noStray r.forms cs →
      SteadyOn Rule.reader 3 cs r ∧ cs.head? ≠ some 'n' :=
    fun r cs h => ⟨(Rule.steadyOn_spelled h).mono (by decide), h.head?_ne⟩
  refine s.slots_shape.steadyOn_record ?_ h
  simp only [slots, List.forall_mem_cons]
  refine ⟨fun _ h => ?_, fun _ h => ?_, fun _ h => ?_, List.forall_mem_nil _⟩
  · exact ((steadyOn_isQuoted h).mono (by decide)).looseOn
  · exact (Output.steadyOn_spelled h).looseOn
  · exact (steadyOn_isOptional (fun _ => rfl) hrule h).looseOn

namespace Description

theorem steadyOn_spelled {d : Description} {cs : List Char}
    (h : SpellsRecord noStray (d.forms noStray) cs) : SteadyOn Description.reader 6 cs d := by
  refine d.slots_shape.steadyOn_record ?_ h
  simp only [slots, List.forall_mem_cons]
  refine ⟨fun _ h => ?_, fun _ h => ?_, List.forall_mem_nil _⟩
  · exact ((Emitter.steadyOn_spelled h).mono (by decide)).looseOn
  · exact (steadyOn_isListOf (fun _ _ => State.steadyOn_spelled) h).looseOn

/-- **A spelling without stray members that is cut off ends too soon**, unless only
blanks at its end are missing: then it is read as the description. -/
theorem parse_cut {d : Description} {text p : String} (h : d.Spelled noStray text)
    (hp : p.toList <+: text.toList) :
    parse p = .error .endOfText ∨
      ∃ gap, Gap gap ∧ p.toList ++ gap = text.toList ∧ parse p = .ok d := by
  obtain ⟨before, cs, after, hbefore, hafter, hcs, htext⟩ := h
  rcases (steadyOn_spelled hcs).readAll_cut (by decide) hbefore hafter htext hp with
    hend | ⟨left, gap, hleft, hgap, hread⟩
  · exact Or.inl hend
  · have hblank : Gap gap := fun c hc => hafter c (hleft ▸ List.mem_append_right left hc)
    exact Or.inr ⟨gap, hblank, hgap, hread⟩

end Description

/-! ### Manifests -/

namespace Manifest

/-- A version that is cut off is another version, and is not looked at. -/
theorem looseOn_versionReader (version : UInt32) :
    LooseOn versionReader 0 (Nat.toDigits 10 version.toNat) version := by
  have hnatural : LooseOn (natural UInt32.size "u32") 0 (Nat.toDigits 10 version.toNat)
      version.toNat := looseOn_natural "u32" (by decide) version.toNat_lt
  refine ⟨fun hn hgap hrest => ?_⟩
  have hversion := (hnatural.loose hn hgap hrest).map UInt32.ofNat
  rwa [UInt32.ofNat_toNat] at hversion

theorem steadyOn_spelled {m : Manifest} {time : String}
    (htime : Timestamp.parse time = .ok m.generatedAt) {cs : List Char}
    (h : SpellsRecord noStray (m.forms noStray time) cs) : SteadyOn Manifest.reader 2 cs m := by
  refine (m.slots_shape time).steadyOn_record ?_ h
  simp only [slots, List.forall_mem_cons]
  refine ⟨fun cs hcs => ?_, fun _ h => ?_, fun cs hcs => ?_, fun _ h => ?_, fun _ h => ?_,
    List.forall_mem_nil _⟩
  · rw [hcs]
    exact ⟨fun _ => (looseOn_versionReader m.version).loose (Nat.zero_le _)⟩
  · exact ((steadyOn_isQuoted h).mono (by decide)).looseOn
  · unfold IsQuoted at hcs
    rw [hcs]
    exact ((steadyOn_textOf _ (parseTime_eq htime)).mono (by decide)).looseOn
  · exact (steadyOn_isListOf (fun _ _ => steadyOn_isQuoted) h).looseOn
  · exact (Emitter.steadyOn_spelled h).looseOn

end Manifest

/-! ### Written texts -/

/-- **A file that was cut off is never accepted.**  Whatever the description holds and
wherever its written text is cut off, it is found that the text ends too soon.  The same
holds for its other spellings without stray members, where blanks at the end may be
missing.  A manifest of any version, whose time lies in a year of four digits, is refused
for the same reason and not for its version. -/
theorem truncated_texts_end_too_soon :
    (∀ (d : Description) (p : String), p.toList <+: d.pretty.toList → p ≠ d.pretty →
      Description.parse p = .error .endOfText) ∧
    (∀ (d : Description) (text p : String), d.Spelled noStray text →
      p.toList <+: text.toList →
        Description.parse p = .error .endOfText ∨
          ∃ gap, Gap gap ∧ p.toList ++ gap = text.toList ∧ Description.parse p = .ok d) ∧
    ∀ (m : Manifest) (p : String), 0 ≤ m.generatedAt.date.year →
      m.generatedAt.date.year ≤ 9999 → p.toList <+: m.pretty.toList → p ≠ m.pretty →
        Manifest.parse p = .error (.unreadable .endOfText) := by
  refine ⟨fun d p hp hne => ?_, fun d text p => Description.parse_cut,
    fun m p hfrom huntil hp hne => ?_⟩
  · have hsteady := Description.steadyOn_spelled (Description.spelled_toJson .indented 0 d)
    exact hsteady.readAll_cut_pretty (by decide) hp hne
  · have hsteady := Manifest.steadyOn_spelled (Timestamp.parse_text hfrom huntil)
      (m.spelled_valueAt .indented 0 _)
    have hread : readAll Manifest.reader p = .error .endOfText :=
      hsteady.readAll_cut_pretty (by decide) hp hne
    unfold Manifest.parse
    rw [hread]

/-- A beginning behind which there is another character. -/
theorem proper_of_append {p text : String} {c : Char} {more : List Char}
    (h : p.toList ++ c :: more = text.toList) : p.toList <+: text.toList ∧ p ≠ text := by
  refine ⟨⟨c :: more, h⟩, ?_⟩
  rintro rfl
  simp at h

/-- A description whose settings hold a control character. -/
def belled : Description := ⟨⟨"s\x07", "", ""⟩, []⟩

/-- The text of `belled` up to the escape of the control character. -/
def belledStart : String := "\x7b\n  \"emitter\": \x7b\n    \"state_register\": \"s\\u00"

theorem belledStart_proper :
    belledStart.toList <+: belled.pretty.toList ∧ belledStart ≠ belled.pretty := by
  have htext : belled.pretty.toList = belled.toJson.write .indented 0 := String.toList_ofList
  obtain ⟨more, hmore⟩ : ∃ more, belledStart.toList ++ '0' :: more = belled.pretty.toList := by
    rw [htext]
    exact ⟨_, rfl⟩
  exact proper_of_append hmore

/-- A manifest of another version, made in a leap second. -/
def foreign : Manifest := ⟨.ofNat 12, "", ⟨0, ⟨60, by decide⟩, ⟨500, by decide⟩⟩, [], .standard⟩

/-- The text of `foreign` up to the first digit of the version, which is the supported
version. -/
def foreignStart : String := "\x7b\n  \"version\": 1"

theorem foreignStart_proper :
    foreignStart.toList <+: foreign.pretty.toList ∧ foreignStart ≠ foreign.pretty := by
  have htext : foreign.pretty.toList = foreign.toJson.write .indented 0 := String.toList_ofList
  obtain ⟨more, hmore⟩ : ∃ more, foreignStart.toList ++ '2' :: more = foreign.pretty.toList := by
    rw [htext]
    exact ⟨_, rfl⟩
  exact proper_of_append hmore

/-- Cut off within an escape, before the first character, and between the digits of the
version. -/
theorem belled_and_foreign_end_too_soon :
    (belledStart.toList <+: belled.pretty.toList ∧
      Description.parse belledStart = .error .endOfText) ∧
    (belled.Spelled noStray belled.pretty ∧ (Description.parse "" = .error .endOfText ∨
      ∃ gap, Gap gap ∧ "".toList ++ gap = belled.pretty.toList ∧
        Description.parse "" = .ok belled)) ∧
    foreignStart.toList <+: foreign.pretty.toList ∧
      Manifest.parse foreignStart = .error (.unreadable .endOfText) := by
  obtain ⟨hwritten, hspelled, hmanifest⟩ := truncated_texts_end_too_soon
  obtain ⟨hbelled, hbelled'⟩ := belledStart_proper
  obtain ⟨hforeign, hforeign'⟩ := foreignStart_proper
  refine ⟨⟨hbelled, hwritten belled belledStart hbelled hbelled'⟩, ⟨belled.spelled_pretty, ?_⟩,
    hforeign, ?_⟩
  · exact hspelled belled belled.pretty "" belled.spelled_pretty (List.nil_prefix)
  · exact hmanifest foreign foreignStart (by decide) (by decide) hforeign hforeign'

end Sequencer
