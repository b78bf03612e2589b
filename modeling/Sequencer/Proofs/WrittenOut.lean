import Sequencer.Proofs.Broadcast
import Sequencer.Proofs.Layout

/-!
# Broadcasts written out by hand

A single text serves all cases of a state, so it may as well be written out, once for
each case.  Here the parts of a state are rewritten in this way, any choice of them at
once, and also in the other direction, where a text that is given for each case is
contracted to a single one.

Both directions are instances of `State.rewrite`, which changes each part by a function.
What such a function must keep is said for one part (`Cases.Restates`): the text of each
case.  The rows then stay as they are if the number of cases does, and that number is the
only thing that may be lost, since it is taken from the signals with several values.
After a contraction it is still there exactly if such a signal is left.

## Main Definitions

* `Cases.Restates` — cases that hold the same texts in another length.
* `State.rewrite` — a state with each of its parts changed.
* `State.writeOut`, `State.contract` — the two directions, for any choice of parts.

## Main Results

* `State.isCaseCount_rewrite_iff` — when the number of cases is kept.
* `State.rows_rewrite` — the rows are then kept as well.
* `State.isCaseCount_rewrite_one` — otherwise a single case is left.
* `broadcasts_may_be_written_out` — both directions.
-/

namespace Sequencer

/-! ### Single parts -/

namespace Cases

/-- A single text written out for each of `n` cases.  Other cases are left as they are. -/
def writtenOut (n : Nat) (c : Cases) : Cases :=
  match c.values with
  | [v] => ⟨List.replicate n v⟩
  | _ => c

/-- The text that is given for each of `n` cases, if it is always the same one.  Other
cases are left as they are. -/
def contracted (n : Nat) (c : Cases) : Cases :=
  match c.values with
  | [] => c
  | v :: _ => if c.values = List.replicate n v then single v else c

/-- `d` holds the same texts as `c` in `n` cases, and its length fits them. -/
structure Restates (n : Nat) (c d : Cases) : Prop where
  suits : d.Suits n
  textAt : ∀ i < n, d.textAt i = c.textAt i

theorem Restates.refl {n : Nat} {c : Cases} (h : c.Suits n) : Restates n c c :=
  ⟨h, fun _ _ => rfl⟩

theorem textAt_single (v : String) (i : Nat) : (single v).textAt i = some v := rfl

theorem textAt_replicate {n i : Nat} (hi : i < n) (v : String) :
    (⟨List.replicate n v⟩ : Cases).textAt i = some v := by
  rw [textAt_eq]
  have hpos : 0 < n := Nat.zero_lt_of_lt hi
  split
  · exact List.getElem?_replicate_of_lt hpos
  · exact List.getElem?_replicate_of_lt hi

theorem writtenOut_single (n : Nat) (v : String) :
    (single v).writtenOut n = ⟨List.replicate n v⟩ := rfl

theorem writtenOut_of_length_ne_one {n : Nat} {c : Cases} (h : c.length ≠ 1) :
    c.writtenOut n = c := by
  unfold writtenOut
  split
  · next v hv =>
      refine absurd ?_ h
      unfold length
      rw [hv]
      rfl
  · rfl

theorem eq_single_of_length_eq_one {c : Cases} (h : c.length = 1) : ∃ v, c = single v := by
  obtain ⟨v, hv⟩ := List.length_eq_one_iff.mp h
  exact ⟨v, congrArg Cases.mk hv⟩

/-- **Writing a text out keeps the text of each case.** -/
theorem restates_writtenOut {n : Nat} {c : Cases} (h : c.Suits n) :
    Restates n c (c.writtenOut n) := by
  by_cases hone : c.length = 1
  · obtain ⟨v, rfl⟩ := eq_single_of_length_eq_one hone
    refine ⟨Or.inr List.length_replicate, fun i hi => ?_⟩
    rw [writtenOut_single, textAt_replicate hi, textAt_single]
  · rw [writtenOut_of_length_ne_one hone]
    exact Restates.refl h

/-- Cases are contracted if they hold one text throughout, and else left as they are. -/
theorem contracted_cases (n : Nat) (c : Cases) :
    (∃ v, c = ⟨List.replicate n v⟩ ∧ c.contracted n = single v) ∨ c.contracted n = c := by
  unfold contracted
  split
  · exact Or.inr rfl
  · next v vs hvs =>
      split
      · next hconst => exact Or.inl ⟨v, congrArg Cases.mk hconst, rfl⟩
      · exact Or.inr rfl

/-- **Contracting keeps the text of each case.** -/
theorem restates_contracted {n : Nat} {c : Cases} (h : c.Suits n) :
    Restates n c (c.contracted n) := by
  rcases contracted_cases n c with ⟨v, rfl, hv⟩ | hsame
  · rw [hv]
    refine ⟨Or.inl rfl, fun i hi => ?_⟩
    rw [textAt_single, textAt_replicate hi]
  · rw [hsame]
    exact Restates.refl h

/-- A single text is the same in all cases. -/
theorem textAt_of_length_eq_one {c : Cases} (h : c.length = 1) (i j : Nat) :
    c.textAt i = c.textAt j := by
  rw [textAt_eq, textAt_eq, if_pos h, if_pos h]

end Cases

/-- Whatever part it is applied to, `f` keeps the texts of `n` cases. -/
def Restating (n : Nat) (f : ShapeError.Part → Cases → Cases) : Prop :=
  ∀ part (c : Cases), c.Suits n → c.Restates n (f part c)

/-! ### States -/

/-- Rows that hold the same case of a state are the same. -/
theorem IsCase.unique {o : Output} {rule : Option Rule} {i : Nat} {row row' : Row}
    (h : IsCase o rule i row) (h' : IsCase o rule i row') : row = row' := by
  obtain ⟨condition, assignments, target⟩ := row
  obtain ⟨condition', assignments', target'⟩ := row'
  obtain rfl : condition = condition' := Option.some.inj (h.condition.symm.trans h'.condition)
  obtain rfl : assignments = assignments' := h.assignments.trans h'.assignments.symm
  obtain rfl : target = target' := h.target.trans h'.target.symm
  rfl

/-- Where two states hold the same texts, each in a case of its own, the same row holds
these cases. -/
theorem IsCase.congr {o o' : Output} {rule rule' : Option Rule} {i j : Nat} {row : Row}
    (h : IsCase o rule i row) (hslice : o'.slice j = o.slice i)
    (hconditions : (rule'.map fun r => r.conditions.textAt j) =
      rule.map fun r => r.conditions.textAt i)
    (htargets : (rule'.map fun r => r.targets.textAt j) =
      rule.map fun r => r.targets.textAt i) : IsCase o' rule' j row := by
  obtain ⟨hcondition, hassignments, htarget⟩ := h
  rw [← hslice] at hassignments
  cases rule with
  | none =>
      obtain rfl : rule' = none := Option.map_eq_none_iff.mp hconditions
      exact ⟨hcondition, hassignments, htarget⟩
  | some r =>
      obtain ⟨r', rfl, hcondition'⟩ := Option.map_eq_some_iff.mp hconditions
      have htarget' : r'.targets.textAt j = r.targets.textAt i := Option.some.inj htargets
      exact ⟨hcondition'.trans hcondition, hassignments, htarget.trans htarget'.symm⟩

/-- In a state with a single case, a row that holds some case holds all of them. -/
theorem IsCase.of_fits_one {o : Output} {rule : Option Rule} {i : Nat} {row : Row}
    (h : IsCase o rule i row) (hfits : Fits o rule 1) (j : Nat) : IsCase o rule j row := by
  have htext : ∀ c : Cases, c.Suits 1 → c.textAt j = c.textAt i := by
    intro c hc
    exact Cases.textAt_of_length_eq_one (or_self_iff.mp hc) j i
  apply h.congr
  · ext1 signal
    rw [Output.get?_slice, Output.get?_slice]
    cases hc : o.values.get? signal with
    | none => rfl
    | some c => exact htext c (hfits.suits hc)
  · exact Option.map_congr fun r hr => htext _ (hfits.conditions r hr)
  · exact Option.map_congr fun r hr => htext _ (hfits.targets r hr)

namespace State

/-- The state with each of its parts changed by `f`.  Its name, its labels and its else
target stay as they are. -/
def rewrite (f : ShapeError.Part → Cases → Cases) (s : State) : State where
  name := s.name
  output := ⟨⟨fun signal => (s.output.values.get? signal).map (f (.attribute signal))⟩,
    s.output.labels⟩
  rule := s.rule.map fun r =>
    { r with
      conditions := f .conditions r.conditions
      targets := f .targets r.targets }

/-- The chosen parts that have a single text, written out for each of `n` cases. -/
def writeOut (n : Nat) (chosen : ShapeError.Part → Bool) (s : State) : State :=
  s.rewrite fun part c => if chosen part then c.writtenOut n else c

/-- The chosen parts that hold one text in each of `n` cases, contracted to that text. -/
def contract (n : Nat) (chosen : ShapeError.Part → Bool) (s : State) : State :=
  s.rewrite fun part c => if chosen part then c.contracted n else c

/-- The number `n` is the length of one of the driven signals. -/
def HasSignalOfLength (s : State) (n : Nat) : Prop :=
  ∃ signal c, s.output.values.get? signal = some c ∧ c.length = n

variable {s : State} {f : ShapeError.Part → Cases → Cases} {n : Nat} {rows : List Row}

theorem get?_rewrite_eq_some_iff {signal : Signal} {d : Cases} :
    (s.rewrite f).output.values.get? signal = some d ↔
      ∃ c, s.output.values.get? signal = some c ∧ f (.attribute signal) c = d :=
  Option.map_eq_some_iff

theorem rule_rewrite_eq_some_iff {r' : Rule} :
    (s.rewrite f).rule = some r' ↔
      ∃ r, s.rule = some r ∧
        { r with conditions := f .conditions r.conditions, targets := f .targets r.targets } =
          r' :=
  Option.map_eq_some_iff

@[simp] theorem elseTarget_rewrite (f : ShapeError.Part → Cases → Cases) (s : State) :
    (s.rewrite f).elseTarget = s.elseTarget := by
  unfold elseTarget rewrite
  cases s.rule <;> rfl

/-- States with the same rows have the same code if only their parts were changed. -/
theorem block_rewrite (e : Emitter) (h : (s.rewrite f).rows = s.rows) :
    (s.rewrite f).block e = s.block e := by
  rw [block_eq_map, block_eq_map, h, elseTarget_rewrite]
  rfl

/-- A signal that is restated still fits. -/
theorem suits_rewrite (hfits : Fits s.output s.rule n)
    (hf : Restating n f) {signal : Signal} {d : Cases}
    (hd : (s.rewrite f).output.values.get? signal = some d) : d.Suits n := by
  obtain ⟨c, hc, rfl⟩ := get?_rewrite_eq_some_iff.mp hd
  exact (hf _ c (hfits.suits hc)).suits

/-- The number of cases is one, or a signal has it. -/
theorem hasSignalOfLength_of_isCaseCount (h : s.output.IsCaseCount n) (hn : n ≠ 1) :
    s.HasSignalOfLength n := by
  by_contra hno
  apply hn
  apply h.single
  intro signal c hc hlong
  exact hno ⟨signal, c, hc, h.agree signal c hc hlong⟩

/-- **The number of cases is kept exactly if a signal still has it**, or it is one. -/
theorem isCaseCount_rewrite_iff (hfits : Fits s.output s.rule n) (hf : Restating n f) :
    (s.rewrite f).output.IsCaseCount n ↔ n = 1 ∨ (s.rewrite f).HasSignalOfLength n := by
  constructor
  · intro hcount
    by_cases hone : n = 1
    · exact Or.inl hone
    · exact Or.inr (hasSignalOfLength_of_isCaseCount hcount hone)
  · intro hkept
    constructor
    · intro signal d hd hlong
      exact (suits_rewrite hfits hf hd).resolve_left (Nat.ne_of_gt hlong)
    · intro hshort
      rcases hkept with hone | ⟨signal, d, hd, rfl⟩
      · exact hone
      · have hpos := hfits.pos
        have hle := Nat.not_lt.mp (hshort signal d hd)
        omega

/-- Where no signal has the number of cases any more, a single case is left. -/
theorem isCaseCount_rewrite_one (hfits : Fits s.output s.rule n)
    (hf : Restating n f)
    (hnone : ¬ (s.rewrite f).HasSignalOfLength n) :
    (s.rewrite f).output.IsCaseCount 1 := by
  have hone : ∀ signal d, (s.rewrite f).output.values.get? signal = some d → d.length = 1 := by
    intro signal d hd
    exact (suits_rewrite hfits hf hd).resolve_right fun hn => hnone ⟨signal, d, hd, hn⟩
  exact ⟨fun signal d hd _ => hone signal d hd, fun _ => rfl⟩

/-- A rewritten state fits its number of cases if its rule does. -/
theorem fits_rewrite {k : Nat} (hfits : Fits s.output s.rule n)
    (hf : Restating n f)
    (hcount : (s.rewrite f).output.IsCaseCount k)
    (hrule : ∀ r, (s.rewrite f).rule = some r → r.conditions.Suits k ∧ r.targets.Suits k) :
    Fits (s.rewrite f).output (s.rewrite f).rule k where
  toIsCaseCount := hcount
  nonempty signal d hd := by
    have hpos := hfits.pos
    rcases suits_rewrite hfits hf hd with hone | hn <;> omega
  conditions r hr := (hrule r hr).1
  targets r hr := (hrule r hr).2

/-- The rule of a rewritten state still fits. -/
theorem suits_rule_rewrite (hfits : Fits s.output s.rule n)
    (hf : Restating n f) :
    ∀ r, (s.rewrite f).rule = some r → r.conditions.Suits n ∧ r.targets.Suits n := by
  intro r' hr'
  obtain ⟨r, hr, rfl⟩ := rule_rewrite_eq_some_iff.mp hr'
  exact ⟨(hf _ _ (hfits.conditions r hr)).suits, (hf _ _ (hfits.targets r hr)).suits⟩

/-- **Each case of a rewritten state is the same case as before.** -/
theorem isCase_rewrite (hfits : Fits s.output s.rule n) (hf : Restating n f) {i : Nat}
    (hi : i < n) {row : Row} (h : IsCase s.output s.rule i row) :
    IsCase (s.rewrite f).output (s.rewrite f).rule i row := by
  apply h.congr
  · ext1 signal
    rw [Output.get?_slice, Output.get?_slice]
    show ((s.output.values.get? signal).map (f (.attribute signal))).bind _ = _
    cases hc : s.output.values.get? signal with
    | none => rfl
    | some c => exact (hf _ c (hfits.suits hc)).textAt i hi
  · show (s.rule.map _).map _ = _
    rw [Option.map_map]
    exact Option.map_congr fun r hr => (hf _ _ (hfits.conditions r hr)).textAt i hi
  · show (s.rule.map _).map _ = _
    rw [Option.map_map]
    exact Option.map_congr fun r hr => (hf _ _ (hfits.targets r hr)).textAt i hi

/-- **Rewriting the parts keeps the rows**, if it keeps the number of cases. -/
theorem rows_rewrite (h : s.rows = .ok rows)
    (hf : Restating rows.length f)
    (hcount : (s.rewrite f).output.IsCaseCount rows.length) :
    (s.rewrite f).rows = .ok rows := by
  have hfits : Fits s.output s.rule rows.length := fits_of_expand h
  have hfits' := fits_rewrite hfits hf hcount (suits_rule_rewrite hfits hf)
  obtain ⟨rows', hrows'⟩ := expand_of_fits s.name hfits'
  have hlength : rows'.length = rows.length :=
    (fits_of_expand hrows').toIsCaseCount.unique hcount
  have hrows : rows' = rows := by
    apply List.ext_getElem hlength
    intro i hi' hi
    exact (isCase_of_expand hrows' i hi').unique
      (isCase_rewrite hfits hf hi (isCase_of_expand h i hi))
  exact hrows ▸ hrows'

/-- With a single case, only the rule can keep a state from being lined up. -/
theorem exists_rows_rewrite_iff (hfits : Fits s.output s.rule n) (hf : Restating n f)
    (hcount : (s.rewrite f).output.IsCaseCount 1) :
    (∃ rows, (s.rewrite f).rows = .ok rows) ↔
      ∀ r, (s.rewrite f).rule = some r → r.conditions.length = 1 ∧ r.targets.length = 1 := by
  constructor
  · rintro ⟨rows, hrows⟩ r hr
    have hfits' : Fits (s.rewrite f).output (s.rewrite f).rule rows.length :=
      fits_of_expand hrows
    have hone : rows.length = 1 := hfits'.toIsCaseCount.unique hcount
    rw [hone] at hfits'
    exact ⟨or_self_iff.mp (hfits'.conditions r hr), or_self_iff.mp (hfits'.targets r hr)⟩
  · intro hrule
    have hsuits : ∀ r, (s.rewrite f).rule = some r →
        r.conditions.Suits 1 ∧ r.targets.Suits 1 :=
      fun r hr => ⟨Or.inl (hrule r hr).1, Or.inl (hrule r hr).2⟩
    exact expand_of_fits s.name (fits_rewrite hfits hf hcount hsuits)

/-- **If a single case is left, all rows were the same**, and one of them is left. -/
theorem rows_rewrite_one (h : s.rows = .ok rows) (hf : Restating rows.length f)
    (hcount : (s.rewrite f).output.IsCaseCount 1) {rows' : List Row}
    (h' : (s.rewrite f).rows = .ok rows') :
    ∃ row, rows' = [row] ∧ rows = List.replicate rows.length row := by
  have hfits : Fits s.output s.rule rows.length := fits_of_expand h
  have hfits' : Fits (s.rewrite f).output (s.rewrite f).rule rows'.length := fits_of_expand h'
  have hone : rows'.length = 1 := hfits'.toIsCaseCount.unique hcount
  obtain ⟨row, rfl⟩ := List.length_eq_one_iff.mp hone
  have hrow : IsCase (s.rewrite f).output (s.rewrite f).rule 0 row :=
    isCase_of_expand h' 0 Nat.one_pos
  refine ⟨row, rfl, List.eq_replicate_iff.mpr ⟨rfl, fun row' hmem => ?_⟩⟩
  obtain ⟨i, hi, rfl⟩ := List.mem_iff_getElem.mp hmem
  have hcase := isCase_rewrite hfits hf hi (isCase_of_expand h i hi)
  exact (hcase.of_fits_one hfits' 0).unique hrow

/-! ### The two directions -/

/-- A change that keeps the texts of each part may be made in any choice of parts. -/
theorem restating_chosen {g : Cases → Cases} (hg : ∀ c : Cases, c.Suits n → c.Restates n (g c))
    (chosen : ShapeError.Part → Bool) :
    Restating n fun part c => if chosen part then g c else c := by
  intro part c hc
  dsimp only
  split
  · exact hg c hc
  · exact Cases.Restates.refl hc

theorem restating_writeOut (n : Nat) (chosen : ShapeError.Part → Bool) :
    Restating n fun part c => if chosen part then c.writtenOut n else c :=
  restating_chosen (fun _ => Cases.restates_writtenOut) chosen

theorem restating_contract (n : Nat) (chosen : ShapeError.Part → Bool) :
    Restating n fun part c => if chosen part then c.contracted n else c :=
  restating_chosen (fun _ => Cases.restates_contracted) chosen

/-- Writing out never changes a signal that has several values, and so it keeps the
number of cases. -/
theorem isCaseCount_writeOut (hfits : Fits s.output s.rule n)
    (chosen : ShapeError.Part → Bool) : (s.writeOut n chosen).output.IsCaseCount n := by
  rw [writeOut, isCaseCount_rewrite_iff hfits (restating_writeOut n chosen)]
  by_cases hone : n = 1
  · exact Or.inl hone
  · obtain ⟨signal, c, hc, hlength⟩ :=
      hasSignalOfLength_of_isCaseCount hfits.toIsCaseCount hone
    have hsame : c.writtenOut n = c :=
      Cases.writtenOut_of_length_ne_one fun h => hone (hlength.symm.trans h)
    refine Or.inr ⟨signal, c, get?_rewrite_eq_some_iff.mpr ⟨c, hc, ?_⟩, hlength⟩
    rw [hsame, ite_self]

end State

/-- **Broadcasts may be written out by hand.**  Take a state that can be lined up, and any
choice of its parts.  Writing out those of them that have a single text, once for each
row, keeps the rows, and so the code with any settings.

Conversely, contract those of the chosen parts that hold one text in each row.  The rows
and the code are kept if a signal with a value for each row is left.  If there is none, a
single case is left: the state can be lined up exactly if it has no rule, or a rule with
one condition and one target, and then all rows were the same and one of them is left. -/
theorem broadcasts_may_be_written_out (s : State) (rows : List Row) (h : s.rows = .ok rows)
    (chosen : ShapeError.Part → Bool) :
    ((s.writeOut rows.length chosen).rows = .ok rows ∧
      ∀ e, (s.writeOut rows.length chosen).block e = s.block e) ∧
    ((s.contract rows.length chosen).HasSignalOfLength rows.length →
      (s.contract rows.length chosen).rows = .ok rows ∧
        ∀ e, (s.contract rows.length chosen).block e = s.block e) ∧
    (¬ (s.contract rows.length chosen).HasSignalOfLength rows.length →
      caseCount s.name (s.contract rows.length chosen).output = .ok 1 ∧
      ((∃ rows', (s.contract rows.length chosen).rows = .ok rows') ↔
        ∀ r, (s.contract rows.length chosen).rule = some r →
          r.conditions.length = 1 ∧ r.targets.length = 1) ∧
      ∀ rows', (s.contract rows.length chosen).rows = .ok rows' →
        ∃ row, rows' = [row] ∧ rows = List.replicate rows.length row) := by
  have hfits : Fits s.output s.rule rows.length := fits_of_expand h
  have hout := State.restating_writeOut rows.length chosen
  have hback := State.restating_contract rows.length chosen
  refine ⟨?_, fun hleft => ?_, fun hnone => ?_⟩
  · have hrows : (s.writeOut rows.length chosen).rows = .ok rows :=
      State.rows_rewrite h hout (State.isCaseCount_writeOut hfits chosen)
    exact ⟨hrows, fun e => State.block_rewrite e (hrows.trans h.symm)⟩
  · have hcount : (s.contract rows.length chosen).output.IsCaseCount rows.length :=
      (State.isCaseCount_rewrite_iff hfits hback).mpr (Or.inr hleft)
    have hrows : (s.contract rows.length chosen).rows = .ok rows :=
      State.rows_rewrite h hback hcount
    exact ⟨hrows, fun e => State.block_rewrite e (hrows.trans h.symm)⟩
  · have hcount : (s.contract rows.length chosen).output.IsCaseCount 1 :=
      State.isCaseCount_rewrite_one hfits hback hnone
    exact ⟨caseCount_eq_ok_iff.mpr hcount, State.exists_rows_rewrite_iff hfits hback hcount,
      fun rows' => State.rows_rewrite_one h hback hcount⟩

/-- A state that gives the same value and the same target in two cases, which only their
conditions tell apart. -/
def repeating : State where
  name := "WAIT"
  output := Output.empty.drive .finished ⟨["1", "1"]⟩
  rule := some { conditions := ⟨["go", "stop"]⟩, targets := ⟨["NEXT", "NEXT"]⟩ }

/-- All single texts of `placing` are written out; the target of `repeating` is contracted;
and if its value is contracted as well, its two conditions no longer fit. -/
theorem placing_written_out_and_repeating_contracted :
    (∃ rows, placing.rows = .ok rows ∧ rows.length = 2 ∧
      (placing.writeOut 2 fun _ => true).rows = .ok rows) ∧
    (∃ rows, repeating.rows = .ok rows ∧ rows.length = 2 ∧
      (repeating.contract 2 (· = .targets)).HasSignalOfLength 2 ∧
      (repeating.contract 2 (· = .targets)).rows = .ok rows ∧
      ¬ (repeating.contract 2 fun _ => true).HasSignalOfLength 2 ∧
      ¬ ∃ rows', (repeating.contract 2 fun _ => true).rows = .ok rows') := by
  refine ⟨⟨_, rfl, rfl, ?_⟩, ⟨_, rfl, rfl, ?_⟩⟩
  · exact (broadcasts_may_be_written_out placing _ rfl fun _ => true).1.1
  · have hleft : (repeating.contract 2 (· = .targets)).HasSignalOfLength 2 :=
      ⟨.finished, ⟨["1", "1"]⟩, rfl, rfl⟩
    have hnone : ¬ (repeating.contract 2 fun _ => true).HasSignalOfLength 2 := by
      rintro ⟨signal, c, hc, hlength⟩
      cases signal <;> cases hc
      cases hlength
    have hkept := (broadcasts_may_be_written_out repeating _ rfl (· = .targets)).2.1 hleft
    obtain ⟨-, hlined, -⟩ := (broadcasts_may_be_written_out repeating _ rfl fun _ => true).2.2 hnone
    refine ⟨hleft, hkept.1, hnone, fun hrows => ?_⟩
    exact absurd (hlined.mp hrows _ rfl).1 (by decide)

end Sequencer
