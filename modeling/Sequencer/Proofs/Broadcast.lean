import Sequencer.Proofs.Canonical
import Sequencer.Proofs.Traversal
import Sequencer.Row

/-!
# Broadcasting

`expand` lines up the cases of a state.  It is specified here without following
its steps: the number of cases is the common length of all signals with several
values (`Output.IsCaseCount`), a state can be lined up exactly when all its
parts have one text or one for each case (`Fits`), and case `i` then takes the
`i`-th text of each part, or its only one (`IsCase`).

Two decisions carry the file.  `Cases.textAt` reads a case without knowing how
many there are, so that a row can be described by its number alone.  And
`Output.slice` collects these texts in a map from signals: the assignments of a
row are the listing of a slice, and all that is known about listings applies to
them.

## Main Definitions

* `Cases.Suits`, `Cases.textAt` — which lengths fit, and the text of one case.
* `Output.IsCaseCount`, `Fits` — the shape that a state must have.
* `Output.slice`, `IsCase` — the content of one row.

## Main Results

* `caseCount_eq_ok_iff` — when there is a number of cases.
* `fits_of_expand`, `expand_of_fits`, `isCase_of_expand` — `expand` against its
  specification.
* `expand_succeeds_iff_fits` — the exact condition for rows, and their content.
-/

namespace Sequencer

/-! ### Texts of one case -/

namespace Cases

/-- The length fits `n` cases: one text for all of them, or one for each. -/
def Suits (c : Cases) (n : Nat) : Prop := c.length = 1 ∨ c.length = n

instance (c : Cases) (n : Nat) : Decidable (c.Suits n) :=
  inferInstanceAs (Decidable (c.length = 1 ∨ c.length = n))

/-- The text of case `i`.  A single text serves every case. -/
def textAt (c : Cases) (i : Nat) : Option String :=
  match c.values with
  | [v] => some v
  | vs => vs[i]?

/-- The sole text if there is one, and otherwise the `i`-th. -/
theorem textAt_eq (c : Cases) (i : Nat) :
    c.textAt i = if c.length = 1 then c.values[0]? else c.values[i]? := by
  rcases c with ⟨_ | ⟨v, _ | ⟨w, vs⟩⟩⟩ <;> simp [textAt, length]

/-- A case has a text exactly when the index is in range or not needed. -/
theorem exists_textAt_iff {c : Cases} {i : Nat} :
    (∃ v, c.textAt i = some v) ↔ c.length = 1 ∨ i < c.length := by
  rw [textAt_eq]
  by_cases h : c.length = 1
  · have hpos : 0 < c.values.length := by
      rw [show c.values.length = 1 from h]
      exact Nat.one_pos
    simp [h, List.getElem?_eq_getElem hpos]
  · rw [if_neg h]
    constructor
    · rintro ⟨v, hv⟩
      exact Or.inr (List.getElem?_eq_some_iff.mp hv).1
    · rintro (h1 | hi)
      · exact absurd h1 h
      · exact ⟨_, List.getElem?_eq_getElem hi⟩

theorem Suits.exists_textAt {c : Cases} {n i : Nat} (h : c.Suits n) (hi : i < n) :
    ∃ v, c.textAt i = some v := by
  rw [exists_textAt_iff]
  rcases h with h | h
  · exact Or.inl h
  · exact Or.inr (h ▸ hi)

/-- Broadcasting succeeds exactly on lengths that fit, and gives each case its text. -/
theorem broadcast_eq_some_iff {c : Cases} {n : Nat} {texts : Fin n → String} :
    c.broadcast n = some texts ↔ c.Suits n ∧ ∀ i : Fin n, c.textAt i = some (texts i) := by
  rcases c with ⟨_ | ⟨v, _ | ⟨w, vs⟩⟩⟩
  · by_cases hn : 0 = n
    · subst hn
      simp [broadcast, Suits, length, funext_iff]
    · simp [broadcast, Suits, length, hn]
  · simp [broadcast, Suits, length, textAt, funext_iff]
  · by_cases hn : (v :: w :: vs).length = n
    · subst hn
      have hbroadcast : (⟨v :: w :: vs⟩ : Cases).broadcast (v :: w :: vs).length =
          some (v :: w :: vs).get := dif_pos rfl
      have htext : ∀ i : Fin (v :: w :: vs).length,
          (⟨v :: w :: vs⟩ : Cases).textAt i = some ((v :: w :: vs).get i) :=
        fun i => List.getElem?_eq_getElem i.isLt
      have hsuits : (⟨v :: w :: vs⟩ : Cases).Suits (v :: w :: vs).length := Or.inr rfl
      simp only [hbroadcast, htext, hsuits, Option.some.injEq, funext_iff, true_and]
    · have hns : ¬ (⟨v :: w :: vs⟩ : Cases).Suits n := by
        rintro (h | h)
        · simp [length] at h
        · exact hn h
      simp only [broadcast, dif_neg hn]
      simp [hns]

/-- Texts that fit are handed on. -/
theorem fit_eq_ok_iff {state : String} {part : ShapeError.Part} {n : Nat} {c : Cases}
    {texts : Fin n → String} :
    c.fit state part n = .ok texts ↔
      c.Suits n ∧ ∀ i : Fin n, c.textAt i = some (texts i) := by
  rw [← broadcast_eq_some_iff, fit]
  cases c.broadcast n <;> simp

/-- Only the length decides whether texts fit. -/
theorem exists_fit_ok_iff {state : String} {part : ShapeError.Part} {n : Nat} {c : Cases} :
    (∃ texts, c.fit state part n = .ok texts) ↔ c.Suits n := by
  constructor
  · rintro ⟨texts, htexts⟩
    exact (fit_eq_ok_iff.mp htexts).1
  · intro h
    choose texts htexts using fun i : Fin n => h.exists_textAt i.isLt
    exact ⟨texts, fit_eq_ok_iff.mpr ⟨h, htexts⟩⟩

/-- Texts that do not fit are reported with their number. -/
theorem fit_eq_error_iff {state : String} {part : ShapeError.Part} {n : Nat} {c : Cases}
    {e : ShapeError} :
    c.fit state part n = .error e ↔ ¬ c.Suits n ∧ e = ⟨state, part, n, c.length⟩ := by
  have hsome := c.broadcast_isSome_iff n
  rw [fit]
  cases hb : c.broadcast n with
  | none =>
      rw [hb] at hsome
      have hns : ¬ c.Suits n := fun h => by simpa using hsome.mpr h
      simp [hns, eq_comm]
  | some texts =>
      rw [hb] at hsome
      have hs : c.Suits n := hsome.mp rfl
      simp [hs]

end Cases

/-! ### The number of cases -/

namespace Output

/-- `n` is the length of every driven signal that has several values, and one
where there is no such signal. -/
structure IsCaseCount (o : Output) (n : Nat) : Prop where
  agree : ∀ s c, o.values.get? s = some c → 1 < c.length → c.length = n
  single : (∀ s c, o.values.get? s = some c → ¬ 1 < c.length) → n = 1

instance (o : Output) (n : Nat) : Decidable (o.IsCaseCount n) :=
  decidable_of_iff
    ((∀ q ∈ o.driven, 1 < q.2.length → q.2.length = n) ∧
      ((∀ q ∈ o.driven, ¬ 1 < q.2.length) → n = 1)) (by
    rw [driven, o.values.forall_mem_toList_iff fun _ c => 1 < c.length → c.length = n,
      o.values.forall_mem_toList_iff fun _ c => ¬ 1 < c.length]
    exact ⟨fun h => ⟨h.1, h.2⟩, fun h => ⟨h.agree, h.single⟩⟩)

namespace IsCaseCount

variable {o : Output} {n : Nat}

/-- There is at least one case. -/
theorem pos (h : o.IsCaseCount n) : 1 ≤ n := by
  by_cases hv : ∀ s c, o.values.get? s = some c → ¬ 1 < c.length
  · exact Nat.le_of_eq (h.single hv).symm
  · push Not at hv
    obtain ⟨s, c, hs, hc⟩ := hv
    rw [← h.agree s c hs hc]
    exact Nat.le_of_lt hc

/-- The number of cases is determined by the output. -/
theorem unique {n' : Nat} (h : o.IsCaseCount n) (h' : o.IsCaseCount n') : n = n' := by
  by_cases hv : ∀ s c, o.values.get? s = some c → ¬ 1 < c.length
  · rw [h.single hv, h'.single hv]
  · push Not at hv
    obtain ⟨s, c, hs, hc⟩ := hv
    rw [← h.agree s c hs hc, h'.agree s c hs hc]

/-- A driven signal fits the number of cases unless it has no value at all. -/
theorem suits_iff (h : o.IsCaseCount n) {s : Signal} {c : Cases}
    (hs : o.values.get? s = some c) : c.Suits n ↔ c.length ≠ 0 := by
  constructor
  · have hpos := h.pos
    rintro (h1 | hn) <;> omega
  · intro h0
    by_cases hv : 1 < c.length
    · exact Or.inr (h.agree s c hs hv)
    · exact Or.inl (by omega)

end IsCaseCount

end Output

/-- `caseCount` as two searches: for the first signal with several values, and
for the first one of these that disagrees with it. -/
theorem caseCount_eq (state : String) (o : Output) :
    caseCount state o =
      match o.driven.find? fun p => 1 < p.2.length with
      | none => .ok 1
      | some (_, first) =>
          match o.driven.find? fun p => 1 < p.2.length ∧ p.2.length ≠ first.length with
          | some (signal, cases) =>
              .error ⟨state, .attribute signal, first.length, cases.length⟩
          | none => .ok first.length := by
  have hhead : (o.driven.filter fun p => p.2.isVector).head? =
      o.driven.find? fun p => 1 < p.2.length := List.head?_filter
  rw [caseCount, ← hhead]
  cases hf : o.driven.filter fun p => p.2.isVector with
  | nil => rfl
  | cons p rest =>
      obtain ⟨s, first⟩ := p
      -- the first signal agrees with itself, so the second search passes over it
      have hskip : (((s, first) :: rest).find? fun p => p.2.length ≠ first.length) =
          rest.find? fun p => p.2.length ≠ first.length :=
        List.find?_cons_of_neg (by simp)
      have hrest : (rest.find? fun p => p.2.length ≠ first.length) =
          o.driven.find? fun p => 1 < p.2.length ∧ p.2.length ≠ first.length := by
        rw [← hskip, ← hf, List.find?_filter]
        simp [Cases.isVector]
      rw [List.head?_cons]
      dsimp only
      exact hrest ▸ rfl

/-- **There is a number of cases exactly when all signals with several values
agree**, and then it is their length. -/
theorem caseCount_eq_ok_iff {state : String} {o : Output} {n : Nat} :
    caseCount state o = .ok n ↔ o.IsCaseCount n := by
  rw [caseCount_eq]
  cases hv : o.driven.find? fun p => 1 < p.2.length with
  | none =>
      have hnone := (o.values.find?_toList_eq_none_iff fun c => 1 < c.length).mp hv
      constructor
      · rintro ⟨⟩
        exact ⟨fun s c hs hc => absurd hc (hnone s c hs), fun _ => rfl⟩
      · intro h
        rw [h.single hnone]
  | some p =>
      obtain ⟨s, first⟩ := p
      have hs := (o.values.find?_toList_eq_some_iff fun c => 1 < c.length).mp hv
      dsimp only
      cases hd : o.driven.find? fun p => 1 < p.2.length ∧ p.2.length ≠ first.length with
      | none =>
          have hnone := (o.values.find?_toList_eq_none_iff
            fun c => 1 < c.length ∧ c.length ≠ first.length).mp hd
          constructor
          · rintro ⟨⟩
            refine ⟨fun t c ht hc => ?_, fun h => absurd hs.holds (h s first hs.assigned)⟩
            by_contra hne
            exact hnone t c ht ⟨hc, hne⟩
          · intro h
            rw [h.agree s first hs.assigned hs.holds]
      | some q =>
          obtain ⟨t, d⟩ := q
          have ht := (o.values.find?_toList_eq_some_iff
            fun c => 1 < c.length ∧ c.length ≠ first.length).mp hd
          constructor
          · rintro ⟨⟩
          · intro h
            have hfirst := h.agree s first hs.assigned hs.holds
            have hother := h.agree t d ht.assigned ht.holds.1
            exact absurd (hother.trans hfirst.symm) ht.holds.2

/-- The number of cases is missing exactly where a signal with several values
disagrees with the first such signal, and the first signal to do so is reported. -/
theorem caseCount_eq_error_iff {state : String} {o : Output} {e : ShapeError} :
    caseCount state o = .error e ↔
      ∃ s c t d, o.values.IsFirst (fun x => 1 < x.length) s c ∧
        o.values.IsFirst (fun x => 1 < x.length ∧ x.length ≠ c.length) t d ∧
        e = ⟨state, .attribute t, c.length, d.length⟩ := by
  rw [caseCount_eq]
  constructor
  · intro h
    cases hv : o.driven.find? fun p => 1 < p.2.length with
    | none =>
        rw [hv] at h
        cases h
    | some p =>
        obtain ⟨s, c⟩ := p
        rw [hv] at h
        dsimp only at h
        cases hd : o.driven.find? fun p => 1 < p.2.length ∧ p.2.length ≠ c.length with
        | none =>
            rw [hd] at h
            cases h
        | some q =>
            obtain ⟨t, d⟩ := q
            rw [hd] at h
            cases h
            exact ⟨s, c, t, d,
              (o.values.find?_toList_eq_some_iff fun x => 1 < x.length).mp hv,
              (o.values.find?_toList_eq_some_iff
                fun x => 1 < x.length ∧ x.length ≠ c.length).mp hd, rfl⟩
  · rintro ⟨s, c, t, d, hs, ht, rfl⟩
    have hv := (o.values.find?_toList_eq_some_iff fun x => 1 < x.length).mpr hs
    have hd := (o.values.find?_toList_eq_some_iff
      fun x => 1 < x.length ∧ x.length ≠ c.length).mpr ht
    rw [Output.driven, hv]
    dsimp only
    rw [hd]

/-! ### The shape of a state -/

/-- Every part of a state fits `n` cases: `n` is its number of cases, no driven
signal is without a value, and the rule, if there is one, has one condition or
`n`, and one target or `n`. -/
structure Fits (o : Output) (rule : Option Rule) (n : Nat) : Prop extends o.IsCaseCount n where
  nonempty : ∀ s c, o.values.get? s = some c → c.length ≠ 0
  conditions : ∀ r, rule = some r → r.conditions.Suits n
  targets : ∀ r, rule = some r → r.targets.Suits n

instance (o : Output) (rule : Option Rule) (n : Nat) : Decidable (Fits o rule n) :=
  decidable_of_iff
    (o.IsCaseCount n ∧ (∀ q ∈ o.driven, q.2.length ≠ 0) ∧
      (∀ r ∈ rule, r.conditions.Suits n) ∧ ∀ r ∈ rule, r.targets.Suits n) (by
    rw [Output.driven, o.values.forall_mem_toList_iff fun _ c => c.length ≠ 0]
    exact ⟨fun h => ⟨h.1, h.2.1, h.2.2.1, h.2.2.2⟩,
      fun h => ⟨h.toIsCaseCount, h.nonempty, h.conditions, h.targets⟩⟩)

/-- No driven signal is left out of the cases. -/
theorem Fits.suits {o : Output} {rule : Option Rule} {n : Nat} (h : Fits o rule n) {s : Signal}
    {c : Cases} (hs : o.values.get? s = some c) : c.Suits n :=
  (h.suits_iff hs).mpr (h.nonempty s c hs)

/-- The values that an output gives to its signals in case `i`. -/
def Output.slice (o : Output) (i : Nat) : SignalMap String :=
  ⟨fun s => (o.values.get? s).bind fun c => c.textAt i⟩

theorem Output.get?_slice (o : Output) (i : Nat) (s : Signal) :
    (o.slice i).get? s = (o.values.get? s).bind fun c => c.textAt i := rfl

/-- The listing of a slice takes one text from each driven signal. -/
theorem Output.toList_slice (o : Output) (i : Nat) :
    (o.slice i).toList = o.driven.filterMap fun p => (p.2.textAt i).map (p.1, ·) := by
  rw [driven, SignalMap.toList, SignalMap.toList, List.filterMap_filterMap]
  refine List.filterMap_congr fun s _ => ?_
  rw [get?_slice]
  cases o.values.get? s <;> rfl

/-- In a row that is a listing, every signal has the value that is listed. -/
theorem Row.value?_of_listed {row : Row} {m : SignalMap String}
    (h : row.assignments = m.toList) (s : Signal) : row.value? s = m.get? s := by
  rw [Row.value?, h, SignalMap.find?_toList_fst]

/-- A row holds case `i` of a state: the condition, values and target of that
case.  Without a rule the row always applies and has no target. -/
structure IsCase (o : Output) (rule : Option Rule) (i : Nat) (row : Row) : Prop where
  condition : rule.elim (some always) (fun r => r.conditions.textAt i) = some row.condition
  assignments : row.assignments = (o.slice i).toList
  target : row.target = rule.bind fun r => r.targets.textAt i

namespace IsCase

variable {o : Output} {rule : Option Rule} {i : Nat} {row : Row}

/-- The value of a signal in a row is its text in that case. -/
theorem value?_eq (h : IsCase o rule i row) (s : Signal) :
    row.value? s = (o.values.get? s).bind fun c => c.textAt i := by
  rw [Row.value?_of_listed h.assignments, Output.get?_slice]

end IsCase

/-! ### Fitting the parts -/

section Parts

variable {state : String} {n : Nat} {o : Output} {rule : Option Rule} {e : ShapeError}

theorem fitConditions_eq_ok_iff {conditions : Fin n → String} :
    fitConditions state n rule = .ok conditions ↔
      (∀ r, rule = some r → r.conditions.Suits n) ∧
        ∀ i : Fin n, rule.elim (some always) (fun r => r.conditions.textAt i) =
          some (conditions i) := by
  cases rule with
  | none => simp [fitConditions, funext_iff]
  | some r => simp [fitConditions, Cases.fit_eq_ok_iff]

theorem exists_fitConditions_ok_iff :
    (∃ conditions, fitConditions state n rule = .ok conditions) ↔
      ∀ r, rule = some r → r.conditions.Suits n := by
  cases rule with
  | none => simp [fitConditions]
  | some r => simp [fitConditions, Cases.exists_fit_ok_iff]

theorem fitConditions_eq_error_iff :
    fitConditions state n rule = .error e ↔
      ∃ r, rule = some r ∧ ¬ r.conditions.Suits n ∧
        e = ⟨state, .conditions, n, r.conditions.length⟩ := by
  cases rule with
  | none => simp [fitConditions]
  | some r => simp [fitConditions, Cases.fit_eq_error_iff]

theorem fitTargets_eq_ok_iff {targets : Fin n → Option String} :
    fitTargets state n rule = .ok targets ↔
      (∀ r, rule = some r → r.targets.Suits n) ∧
        ∀ i : Fin n, targets i = rule.bind fun r => r.targets.textAt i := by
  cases rule with
  | none => simp [fitTargets, funext_iff, eq_comm]
  | some r =>
      rw [fitTargets, map_eq_ok_iff]
      constructor
      · rintro ⟨texts, htexts, rfl⟩
        obtain ⟨hsuits, htext⟩ := Cases.fit_eq_ok_iff.mp htexts
        refine ⟨fun r' hr' => Option.some.inj hr' ▸ hsuits, fun i => ?_⟩
        exact (htext i).symm
      · rintro ⟨hsuits, htargets⟩
        obtain ⟨texts, htexts⟩ := Cases.exists_fit_ok_iff.mpr (hsuits r rfl)
        refine ⟨texts, htexts, ?_⟩
        funext i
        rw [htargets i, Option.bind_some, (Cases.fit_eq_ok_iff.mp htexts).2 i]

theorem exists_fitTargets_ok_iff :
    (∃ targets, fitTargets state n rule = .ok targets) ↔
      ∀ r, rule = some r → r.targets.Suits n := by
  cases rule with
  | none => simp [fitTargets]
  | some r => simp [fitTargets, map_eq_ok_iff, Cases.exists_fit_ok_iff]

theorem fitTargets_eq_error_iff :
    fitTargets state n rule = .error e ↔
      ∃ r, rule = some r ∧ ¬ r.targets.Suits n ∧
        e = ⟨state, .targets, n, r.targets.length⟩ := by
  cases rule with
  | none => simp [fitTargets]
  | some r => simp [fitTargets, map_eq_error_iff, Cases.fit_eq_error_iff]

/-- A column exists exactly when its signal fits. -/
private theorem exists_column_iff {p : Signal × Cases} :
    (∃ column, (p.2.fit state (.attribute p.1) n).map (p.1, ·) = .ok column) ↔
      p.2.Suits n := by
  rw [← Cases.exists_fit_ok_iff]
  constructor
  · rintro ⟨column, hcolumn⟩
    obtain ⟨texts, htexts, -⟩ := map_eq_ok_iff.mp hcolumn
    exact ⟨texts, htexts⟩
  · rintro ⟨texts, htexts⟩
    exact ⟨(p.1, texts), map_eq_ok_iff.mpr ⟨texts, htexts, rfl⟩⟩

/-- The columns exist exactly when every driven signal fits. -/
theorem exists_fitColumns_ok_iff :
    (∃ columns, fitColumns state n o = .ok columns) ↔
      ∀ s c, o.values.get? s = some c → c.Suits n := by
  rw [fitColumns, exists_mapM_ok_iff]
  simp only [exists_column_iff]
  exact o.values.forall_mem_toList_iff fun _ c => c.Suits n

/-- Read in case `i`, the columns are the slice of that case. -/
theorem map_fitColumns {columns : List (Signal × (Fin n → String))}
    (h : fitColumns state n o = .ok columns) (i : Fin n) :
    columns.map (fun p => (p.1, p.2 i)) = (o.slice i).toList := by
  rw [o.toList_slice]
  have hall := mapM_eq_ok_iff.mp h
  clear h
  generalize o.driven = driven at hall ⊢
  induction hall with
  | nil => rfl
  | cons hcolumn _ ih =>
      obtain ⟨texts, htexts, rfl⟩ := map_eq_ok_iff.mp hcolumn
      have htext := (Cases.fit_eq_ok_iff.mp htexts).2 i
      rw [List.filterMap_cons_some (by rw [htext]; rfl), ← ih]
      rfl

/-- Where the columns do not exist, the canonically first signal that does not
fit is reported. -/
theorem fitColumns_eq_error_iff :
    fitColumns state n o = .error e ↔
      ∃ s c, o.values.IsFirst (fun d => ¬ d.Suits n) s c ∧
        e = ⟨state, .attribute s, n, c.length⟩ := by
  rw [fitColumns, mapM_eq_error_iff]
  simp only [exists_column_iff, map_eq_error_iff, Cases.fit_eq_error_iff]
  constructor
  · rintro ⟨before, ⟨s, c⟩, after, heq, hbefore, hns, rfl⟩
    refine ⟨s, c, SignalMap.isFirst_iff_append.mpr ⟨hns, before, after, heq, ?_⟩, rfl⟩
    exact fun q hq => not_not.mpr (hbefore q hq)
  · rintro ⟨s, c, hfirst, rfl⟩
    obtain ⟨hns, before, after, heq, hbefore⟩ := SignalMap.isFirst_iff_append.mp hfirst
    exact ⟨before, (s, c), after, heq, fun q hq => not_not.mp (hbefore q hq), hns, rfl⟩

end Parts

/-! ### Rows -/

section Rows

variable {state : String} {o : Output} {rule : Option Rule} {rows : List Row} {n : Nat}

/-- `expand` succeeds exactly when each of its four steps does. -/
theorem expand_eq_ok_iff :
    expand state o rule = .ok rows ↔
      ∃ n, caseCount state o = .ok n ∧
        ∃ conditions, fitConditions state n rule = .ok conditions ∧
          ∃ columns, fitColumns state n o = .ok columns ∧
            ∃ targets, fitTargets state n rule = .ok targets ∧
              (List.ofFn fun i : Fin n =>
                (⟨conditions i, columns.map fun p => (p.1, p.2 i), targets i⟩ : Row)) = rows := by
  simp only [expand, bind_eq_ok_iff, pure, Except.pure, Except.ok.injEq]

/-- A state that can be lined up fits the number of its rows. -/
theorem fits_of_expand (h : expand state o rule = .ok rows) : Fits o rule rows.length := by
  obtain ⟨n, hn, conditions, hconditions, columns, hcolumns, targets, htargets, rfl⟩ :=
    expand_eq_ok_iff.mp h
  have hcount := caseCount_eq_ok_iff.mp hn
  have hsuits := exists_fitColumns_ok_iff.mp ⟨columns, hcolumns⟩
  rw [List.length_ofFn]
  exact { hcount with
    nonempty := fun s c hs => (hcount.suits_iff hs).mp (hsuits s c hs)
    conditions := (fitConditions_eq_ok_iff.mp hconditions).1
    targets := (fitTargets_eq_ok_iff.mp htargets).1 }

/-- Row `i` holds case `i`. -/
theorem isCase_of_expand (h : expand state o rule = .ok rows) (i : Nat) (hi : i < rows.length) :
    IsCase o rule i rows[i] := by
  obtain ⟨n, hn, conditions, hconditions, columns, hcolumns, targets, htargets, rfl⟩ :=
    expand_eq_ok_iff.mp h
  rw [List.length_ofFn] at hi
  rw [List.getElem_ofFn]
  exact ⟨(fitConditions_eq_ok_iff.mp hconditions).2 ⟨i, hi⟩, map_fitColumns hcolumns ⟨i, hi⟩,
    (fitTargets_eq_ok_iff.mp htargets).2 ⟨i, hi⟩⟩

/-- A state that fits can be lined up. -/
theorem expand_of_fits (state : String) (h : Fits o rule n) :
    ∃ rows, expand state o rule = .ok rows := by
  have hn : caseCount state o = .ok n := caseCount_eq_ok_iff.mpr h.toIsCaseCount
  obtain ⟨conditions, hconditions⟩ :
      ∃ conditions, fitConditions state n rule = .ok conditions :=
    exists_fitConditions_ok_iff.mpr h.conditions
  obtain ⟨columns, hcolumns⟩ : ∃ columns, fitColumns state n o = .ok columns :=
    exists_fitColumns_ok_iff.mpr fun _ _ hs => h.suits hs
  obtain ⟨targets, htargets⟩ : ∃ targets, fitTargets state n rule = .ok targets :=
    exists_fitTargets_ok_iff.mpr h.targets
  exact ⟨_, expand_eq_ok_iff.mpr
    ⟨n, hn, conditions, hconditions, columns, hcolumns, targets, htargets, rfl⟩⟩

end Rows

/-- **When a state can be lined up, and into which rows.**  Success is equivalent
to the shape `Fits`.  In that case the number of rows is the number of cases, at
least one, and every row takes the sole text of each part or the one of its own
number; the values are listed for each driven signal once, in canonical order.
The last two clauses say that every driven signal has a column for the rows and
that no index runs past the end of its values. -/
theorem expand_succeeds_iff_fits (state : String) (o : Output) (rule : Option Rule) :
    ((∃ rows, expand state o rule = .ok rows) ↔ ∃ n, Fits o rule n) ∧
    ∀ n, Fits o rule n →
      caseCount state o = .ok n ∧ 1 ≤ n ∧
      ∃ rows, expand state o rule = .ok rows ∧ rows.length = n ∧
        ∀ (i : Nat) (hi : i < rows.length),
          (∀ r, rule = some r →
            r.conditions.textAt i = some rows[i].condition ∧
            ∃ t, r.targets.textAt i = some t ∧ rows[i].target = some t) ∧
          (rule = none → rows[i].condition = always ∧ rows[i].target = none) ∧
          (rows[i].assignments.map Prod.fst).Pairwise (fun s t => s.rank < t.rank) ∧
          (∀ s, s ∈ rows[i].assignments.map Prod.fst ↔ ∃ c, o.values.get? s = some c) ∧
          (∀ s v, (s, v) ∈ rows[i].assignments →
            ∃ c, o.values.get? s = some c ∧ c.textAt i = some v) ∧
          (∀ s c, o.values.get? s = some c → (c.broadcast n).isSome) ∧
          ∀ s c, o.values.get? s = some c → c.length = 1 ∨ i < c.length := by
  refine ⟨⟨fun ⟨rows, h⟩ => ⟨rows.length, fits_of_expand h⟩,
    fun ⟨n, h⟩ => expand_of_fits state h⟩, fun n hfits => ?_⟩
  obtain ⟨rows, hrows⟩ := expand_of_fits state hfits
  have hlength : rows.length = n :=
    (fits_of_expand hrows).toIsCaseCount.unique hfits.toIsCaseCount
  refine ⟨caseCount_eq_ok_iff.mpr hfits.toIsCaseCount, hfits.pos, rows, hrows, hlength, ?_⟩
  intro i hi
  have hcase := isCase_of_expand hrows i hi
  have htext : ∀ s c, o.values.get? s = some c → ∃ v, c.textAt i = some v :=
    fun s c hs => (hfits.suits hs).exists_textAt (hlength ▸ hi)
  refine ⟨?_, ?_, ?_, ?_, ?_, ?_, ?_⟩
  · rintro r rfl
    obtain ⟨t, ht⟩ := (hfits.targets r rfl).exists_textAt (hlength ▸ hi)
    exact ⟨hcase.condition, t, ht, hcase.target.trans ht⟩
  · rintro rfl
    exact ⟨(Option.some.inj hcase.condition).symm, hcase.target⟩
  · rw [hcase.assignments]
    exact SignalMap.pairwise_map_fst_toList _
  · intro s
    rw [hcase.assignments, SignalMap.mem_map_fst_toList]
    constructor
    · rintro ⟨v, hv⟩
      obtain ⟨c, hc, -⟩ := Option.bind_eq_some_iff.mp hv
      exact ⟨c, hc⟩
    · rintro ⟨c, hc⟩
      obtain ⟨v, hv⟩ := htext s c hc
      exact ⟨v, Option.bind_eq_some_iff.mpr ⟨c, hc, hv⟩⟩
  · intro s v hmem
    rw [hcase.assignments, SignalMap.mem_toList] at hmem
    exact Option.bind_eq_some_iff.mp hmem
  · exact fun s c hs => (c.broadcast_isSome_iff n).mpr (hfits.suits hs)
  · exact fun s c hs => Cases.exists_textAt_iff.mp (htext s c hs)

/-- A state with two guarded cases, the same end marker in both, and an else target. -/
def placing : State where
  name := "PLACE"
  output := (Output.empty.drive .readB ⟨["r0", "r1"]⟩).drive .finished (.single "1")
  rule := some (.branch ⟨["go", "rb_data == 0"]⟩ (.single "NEXT") "RETRY")

/-- Two cases, and a row for each. -/
theorem expand_succeeds_placing :
    Fits placing.output placing.rule 2 ∧ caseCount "PLACE" placing.output = .ok 2 ∧
      ∃ rows, expand "PLACE" placing.output placing.rule = .ok rows ∧ rows.length = 2 := by
  have hfits : Fits placing.output placing.rule 2 := by decide
  obtain ⟨-, hcontent⟩ := expand_succeeds_iff_fits "PLACE" placing.output placing.rule
  obtain ⟨hcount, -, rows, hrows, hlength, -⟩ := hcontent 2 hfits
  exact ⟨hfits, hcount, rows, hrows, hlength⟩

end Sequencer
