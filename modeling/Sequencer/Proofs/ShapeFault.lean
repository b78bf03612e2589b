import Sequencer.Proofs.Broadcast

/-!
# Shape faults

A state that cannot be lined up is reported with one error, although several of
its parts may be at fault at once.  `ShapeFault` ranks the faults: signals that
disagree with each other come first, then the conditions, then signals without
any value, and the targets last.  Each rank presupposes that the ranks before it
are in order, so that at most one error is left.

The same kind of error is raised at two places, for signals that disagree and for
signals that do not fit.  By the time the second place is reached all signals
with several values agree, so that only signals without a value are left there.

## Main Definitions

* `Output.Disagrees` — two signals have several values, but not equally many.
* `ShapeFault` — the fault that is reported.

## Main Results

* `Output.disagrees_iff` — signals disagree exactly when there is no number of cases.
* `expand_fails_iff_shapeFault` — `expand` reports exactly the ranked fault.
-/

namespace Sequencer

/-- Two driven signals have several values each, but not equally many. -/
def Output.Disagrees (o : Output) : Prop :=
  ∃ s c t d, o.values.get? s = some c ∧ 1 < c.length ∧
    o.values.get? t = some d ∧ 1 < d.length ∧ c.length ≠ d.length

/-- The fault for which a state is refused, with the error that reports it.

* `disagreement`: the first signal with several values is `s`, and `t` is the first
  one after it that has several values and another number of them.
* `conditions`: there are neither one nor `n` conditions.
* `empty`: the conditions fit, and `s` is the first signal without a value.
* `targets`: all else fits, and there are neither one nor `n` targets. -/
inductive ShapeFault (state : String) (o : Output) (rule : Option Rule) : ShapeError → Prop
  | disagreement {s t : Signal} {c d : Cases}
      (vector : o.values.IsFirst (fun x => 1 < x.length) s c) (after : s.rank < t.rank)
      (other : o.values.IsFirst (fun x => 1 < x.length ∧ x.length ≠ c.length) t d) :
      ShapeFault state o rule ⟨state, .attribute t, c.length, d.length⟩
  | conditions {n : Nat} {r : Rule} (count : o.IsCaseCount n) (given : rule = some r)
      (misfit : ¬ r.conditions.Suits n) :
      ShapeFault state o rule ⟨state, .conditions, n, r.conditions.length⟩
  | empty {n : Nat} {s : Signal} {c : Cases} (count : o.IsCaseCount n)
      (conditions : ∀ r, rule = some r → r.conditions.Suits n)
      (first : o.values.IsFirst (fun x => x.length = 0) s c) :
      ShapeFault state o rule ⟨state, .attribute s, n, 0⟩
  | targets {n : Nat} {r : Rule} (count : o.IsCaseCount n) (given : rule = some r)
      (conditions : r.conditions.Suits n)
      (nonempty : ∀ s c, o.values.get? s = some c → c.length ≠ 0)
      (misfit : ¬ r.targets.Suits n) :
      ShapeFault state o rule ⟨state, .targets, n, r.targets.length⟩

section

variable {state : String} {o : Output} {rule : Option Rule} {e : ShapeError} {n : Nat}

/-! ### The number of cases -/

/-- **Signals disagree exactly when there is no number of cases.** -/
theorem Output.disagrees_iff (o : Output) : o.Disagrees ↔ ¬ ∃ n, o.IsCaseCount n := by
  constructor
  · rintro ⟨s, c, t, d, hs, hc, ht, hd, hne⟩ ⟨n, hn⟩
    exact hne ((hn.agree s c hs hc).trans (hn.agree t d ht hd).symm)
  · intro hnone
    have hfail : ¬ ∃ n, caseCount "" o = .ok n := by
      rintro ⟨n, hn⟩
      exact hnone ⟨n, caseCount_eq_ok_iff.mp hn⟩
    obtain ⟨err, herr⟩ := exists_error_of_not_ok hfail
    obtain ⟨s, c, t, d, hs, ht, -⟩ := caseCount_eq_error_iff.mp herr
    exact ⟨s, c, t, d, hs.assigned, hs.holds, ht.assigned, ht.holds.1, ht.holds.2.symm⟩

/-- The signal that is reported for a disagreement stands after the one that
sets the number of cases. -/
theorem rank_lt_of_disagree {s t : Signal} {c d : Cases}
    (hs : o.values.IsFirst (fun x => 1 < x.length) s c)
    (ht : o.values.IsFirst (fun x => 1 < x.length ∧ x.length ≠ c.length) t d) :
    s.rank < t.rank := by
  have hle : s.rank ≤ t.rank := hs.least t d ht.assigned ht.holds.1
  refine Nat.lt_of_le_of_ne hle fun heq => ht.holds.2 ?_
  obtain rfl := Signal.rank_injective heq
  rw [Option.some.inj (ht.assigned.symm.trans hs.assigned)]

/-! ### The columns -/

/-- **After the signals agree, only a signal without a value can fail to fit.** -/
theorem fitColumns_eq_error_iff_empty (hn : o.IsCaseCount n) :
    fitColumns state n o = .error e ↔
      ∃ s c, o.values.IsFirst (fun x => x.length = 0) s c ∧
        e = ⟨state, .attribute s, n, 0⟩ := by
  have hempty : ∀ s c, o.values.get? s = some c → (¬ c.Suits n ↔ c.length = 0) := by
    intro s c hs
    rw [hn.suits_iff hs, not_not]
  rw [fitColumns_eq_error_iff]
  constructor
  · rintro ⟨s, c, hfirst, rfl⟩
    have hfirst' := hfirst.congr hempty
    exact ⟨s, c, hfirst', by rw [hfirst'.holds]⟩
  · rintro ⟨s, c, hfirst, rfl⟩
    refine ⟨s, c, hfirst.congr fun t d ht => (hempty t d ht).symm, ?_⟩
    rw [hfirst.holds]

/-! ### The report -/

/-- `expand` fails at the first of its four steps that fails. -/
theorem expand_eq_error_iff :
    expand state o rule = .error e ↔
      caseCount state o = .error e ∨
      ∃ n, caseCount state o = .ok n ∧
        (fitConditions state n rule = .error e ∨
        ∃ conditions, fitConditions state n rule = .ok conditions ∧
          (fitColumns state n o = .error e ∨
          ∃ columns, fitColumns state n o = .ok columns ∧
            fitTargets state n rule = .error e)) := by
  simp only [expand, bind_eq_error_iff, pure, Except.pure, reduceCtorEq, and_false,
    exists_false, or_false]

/-- What is reported is the ranked fault. -/
theorem shapeFault_of_expand (h : expand state o rule = .error e) :
    ShapeFault state o rule e := by
  rcases expand_eq_error_iff.mp h with hcount | ⟨n, hcount, h⟩
  · obtain ⟨s, c, t, d, hs, ht, rfl⟩ := caseCount_eq_error_iff.mp hcount
    exact .disagreement hs (rank_lt_of_disagree hs ht) ht
  have hn := caseCount_eq_ok_iff.mp hcount
  rcases h with hconditions | ⟨conditions, hconditions, h⟩
  · obtain ⟨r, hr, hmisfit, rfl⟩ := fitConditions_eq_error_iff.mp hconditions
    exact .conditions hn hr hmisfit
  have hsuits := exists_fitConditions_ok_iff.mp ⟨conditions, hconditions⟩
  rcases h with hcolumns | ⟨columns, hcolumns, htargets⟩
  · obtain ⟨s, c, hfirst, rfl⟩ := (fitColumns_eq_error_iff_empty hn).mp hcolumns
    exact .empty hn hsuits hfirst
  · obtain ⟨r, hr, hmisfit, rfl⟩ := fitTargets_eq_error_iff.mp htargets
    refine .targets hn hr (hsuits r hr) (fun s c hs => ?_) hmisfit
    exact (hn.suits_iff hs).mp (exists_fitColumns_ok_iff.mp ⟨columns, hcolumns⟩ s c hs)

/-- A ranked fault is reported. -/
theorem expand_of_shapeFault (h : ShapeFault state o rule e) :
    expand state o rule = .error e := by
  rw [expand_eq_error_iff]
  cases h with
  | disagreement vector _ other =>
      exact Or.inl (caseCount_eq_error_iff.mpr ⟨_, _, _, _, vector, other, rfl⟩)
  | conditions count given misfit =>
      refine Or.inr ⟨_, caseCount_eq_ok_iff.mpr count, Or.inl ?_⟩
      exact fitConditions_eq_error_iff.mpr ⟨_, given, misfit, rfl⟩
  | empty count conditions first =>
      obtain ⟨texts, htexts⟩ := exists_fitConditions_ok_iff.mpr conditions
      refine Or.inr ⟨_, caseCount_eq_ok_iff.mpr count, Or.inr ⟨texts, htexts, Or.inl ?_⟩⟩
      exact (fitColumns_eq_error_iff_empty count).mpr ⟨_, _, first, rfl⟩
  | @targets n r count given conditions nonempty misfit =>
      have hsuits : ∀ r', rule = some r' → r'.conditions.Suits n := by
        intro r' hr'
        rwa [← Option.some.inj (given.symm.trans hr')]
      obtain ⟨texts, htexts⟩ := exists_fitConditions_ok_iff.mpr hsuits
      obtain ⟨columns, hcolumns⟩ := exists_fitColumns_ok_iff.mpr
        fun s c hs => (count.suits_iff hs).mpr (nonempty s c hs)
      refine Or.inr ⟨_, caseCount_eq_ok_iff.mpr count,
        Or.inr ⟨texts, htexts, Or.inr ⟨columns, hcolumns, ?_⟩⟩⟩
      exact fitTargets_eq_error_iff.mpr ⟨r, given, misfit, rfl⟩

namespace ShapeFault

/-- A fault is reported for the state that has it. -/
theorem state_eq (h : ShapeFault state o rule e) : e.state = state := by
  cases h <;> rfl

/-- The number that is found is neither one nor the number that is expected. -/
theorem found_ne (h : ShapeFault state o rule e) : e.found ≠ 1 ∧ e.found ≠ e.expected := by
  cases h with
  | disagreement vector _ other =>
      have hd := other.holds.1
      exact ⟨by dsimp only; omega, other.holds.2⟩
  | conditions count given misfit => exact not_or.mp misfit
  | empty count conditions first =>
      have hpos := count.pos
      exact ⟨by dsimp only; omega, by dsimp only; omega⟩
  | targets count given conditions nonempty misfit => exact not_or.mp misfit

/-- Where the signals disagree, it is the number of cases that is missing. -/
theorem caseCount_eq_error (h : ShapeFault state o rule e) (ho : o.Disagrees) :
    caseCount state o = .error e := by
  rw [o.disagrees_iff] at ho
  cases h with
  | disagreement vector _ other =>
      exact caseCount_eq_error_iff.mpr ⟨_, _, _, _, vector, other, rfl⟩
  | conditions count => exact absurd ⟨_, count⟩ ho
  | empty count => exact absurd ⟨_, count⟩ ho
  | targets count => exact absurd ⟨_, count⟩ ho

/-- Where the signals agree, the fault is measured against the number of cases. -/
theorem caseCount_eq_ok (h : ShapeFault state o rule e) (ho : ¬ o.Disagrees) :
    caseCount state o = .ok e.expected := by
  rw [caseCount_eq_ok_iff]
  cases h with
  | disagreement vector _ other =>
      refine absurd ⟨_, _, _, _, vector.assigned, vector.holds, other.assigned,
        other.holds.1, other.holds.2.symm⟩ ho
  | conditions count => exact count
  | empty count => exact count
  | targets count => exact count

end ShapeFault

end

/-- **Which fault is reported.**  `expand` fails exactly with the error of the
ranked fault.  The error names the state, and the number that it found is neither
one nor the number that it expected.  Where signals disagree, already the number
of cases is refused with the same error; otherwise that number is the expected
one.  A column that does not fit then has no value at all. -/
theorem expand_fails_iff_shapeFault (state : String) (o : Output) (rule : Option Rule)
    (e : ShapeError) :
    (expand state o rule = .error e ↔ ShapeFault state o rule e) ∧
    (ShapeFault state o rule e →
      e.state = state ∧ e.found ≠ 1 ∧ e.found ≠ e.expected ∧
      (o.Disagrees → caseCount state o = .error e) ∧
      (¬ o.Disagrees → caseCount state o = .ok e.expected)) ∧
    ∀ n, caseCount state o = .ok n → fitColumns state n o = .error e → e.found = 0 := by
  refine ⟨⟨shapeFault_of_expand, expand_of_shapeFault⟩, fun h => ?_, fun n hn h => ?_⟩
  · exact ⟨h.state_eq, h.found_ne.1, h.found_ne.2, h.caseCount_eq_error, h.caseCount_eq_ok⟩
  · obtain ⟨s, c, -, rfl⟩ := (fitColumns_eq_error_iff_empty (caseCount_eq_ok_iff.mp hn)).mp h
    rfl

/-- Two signals, one with two values and one with three. -/
def mismatched : Output :=
  (Output.empty.drive .readA ⟨["a", "b"]⟩).drive .readB ⟨["x", "y", "z"]⟩

/-- A disagreement is reported for the later signal, and a signal without a value
is found when the columns are fitted. -/
theorem expand_fails_on_mismatched :
    expand "S" mismatched none = .error ⟨"S", .attribute .readB, 2, 3⟩ ∧
    ShapeFault "S" mismatched none ⟨"S", .attribute .readB, 2, 3⟩ ∧
    caseCount "S" mismatched = .error ⟨"S", .attribute .readB, 2, 3⟩ ∧
    ∃ err, caseCount "S" (Output.empty.drive .literal ⟨[]⟩) = .ok 1 ∧
      fitColumns "S" 1 (Output.empty.drive .literal ⟨[]⟩) = .error err ∧ err.found = 0 := by
  have hdisagrees : mismatched.Disagrees :=
    ⟨.readA, ⟨["a", "b"]⟩, .readB, ⟨["x", "y", "z"]⟩, rfl, by decide, rfl, by decide, by decide⟩
  have hexpand : expand "S" mismatched none = .error ⟨"S", .attribute .readB, 2, 3⟩ := rfl
  obtain ⟨hiff, hfault, -⟩ :=
    expand_fails_iff_shapeFault "S" mismatched none ⟨"S", .attribute .readB, 2, 3⟩
  obtain ⟨-, -, hcolumn⟩ := expand_fails_iff_shapeFault "S"
    (Output.empty.drive .literal ⟨[]⟩) none ⟨"S", .attribute .literal, 1, 0⟩
  obtain ⟨-, -, -, hcount, -⟩ := hfault (hiff.mp hexpand)
  exact ⟨hexpand, hiff.mp hexpand, hcount hdisagrees, _, rfl, rfl, hcolumn 1 rfl rfl⟩

end Sequencer
