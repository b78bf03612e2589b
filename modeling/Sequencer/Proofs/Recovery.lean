import Sequencer.Proofs.CodeReading
import Sequencer.Proofs.NextStates

/-!
# Recovering rows from code

The code of a state determines its rows and, where it is used, its else target.  The
program can be read back from its lines; what is left is to find the rows in it.
That is not obvious, since what stands before the rows looks like assignments of a
row, and rows without a rule follow each other without any mark.

Three facts help.  All rows of a state assign the same signals, and these are just
the signals that the program assigns.  In a state with a rule, every row is closed by
a move or is a guard, so that the conditions of the rows can be read off the program.
And how much stands before the rows depends on the signals and the conditions only.
So all lengths are known, and equal programs fall into equal rows.

## Main Definitions

* `Program.assigned`, `Program.conditions` — what a program says about its rows at
  first sight.
* `Uniform` — what the rows of a state have in common.

## Main Results

* `uniform_of_expand` — the rows of a state have the same signals.
* `items_append_inj` — one row.
* `Uniform.rows_eq` — all rows.
* `code_determines_rows` — from the lines of a state to its rows.
-/

namespace Sequencer

/-! ### What the rows of a state have in common -/

/-- The signals that a row assigns, in order. -/
def Row.signals (row : Row) : List Signal := row.assignments.map Prod.fst

theorem Row.isSome_value?_iff {row : Row} {s : Signal} :
    (row.value? s).isSome = true ↔ s ∈ row.signals := by
  unfold Row.value? Row.signals
  rw [Option.isSome_map, List.find?_isSome, List.mem_map]
  simp only [decide_eq_true_eq]

/-- Rows that all assign the same signals in canonical order, and either all move on
or are all unconditional and stay.  Without any signal there is only one row. -/
structure Uniform (signals : List Signal) (moves : Bool) (rows : List Row) : Prop where
  nonempty : rows ≠ []
  sorted : signals.Pairwise fun s t => s.rank < t.rank
  signals_eq : ∀ row ∈ rows, row.signals = signals
  target : ∀ row ∈ rows, row.target.isSome = moves
  condition : moves = false → ∀ row ∈ rows, row.condition = always
  single : signals = [] → rows.length = 1

/-- **The rows of a state are uniform.** -/
theorem uniform_of_expand {state : String} {o : Output} {rule : Option Rule} {rows : List Row}
    (h : expand state o rule = .ok rows) :
    Uniform (o.values.toList.map Prod.fst) rule.isSome rows where
  nonempty := List.ne_nil_of_length_pos (fits_of_expand h).pos
  sorted := o.values.pairwise_map_fst_toList
  signals_eq := by
    intro row hrow
    obtain ⟨i, -, hcase⟩ := exists_isCase_of_mem h hrow
    refine Signal.eq_of_mem_iff id ?_ o.values.pairwise_map_fst_toList ?_
    · unfold Row.signals
      rw [hcase.assignments]
      exact SignalMap.pairwise_map_fst_toList _
    · intro s
      have hnone := value?_eq_none_iff h hrow s
      rw [← Row.isSome_value?_iff, SignalMap.mem_map_fst_toList, ← Option.ne_none_iff_exists',
        Option.isSome_iff_ne_none]
      exact not_congr hnone
  target := by
    intro row hrow
    cases hrule : rule with
    | none =>
        obtain ⟨i, -, hcase⟩ := exists_isCase_of_mem h hrow
        rw [hcase.target, hrule]
        rfl
    | some r =>
        have hne := target_ne_none h hrow (by rw [hrule]; exact Option.some_ne_none r)
        exact Option.isSome_iff_ne_none.mpr hne
  condition := by
    intro hmoves row hrow
    obtain ⟨i, -, hcase⟩ := exists_isCase_of_mem h hrow
    obtain rfl : rule = none := by simpa using hmoves
    exact (Option.some.inj hcase.condition).symm
  single := by
    intro hempty
    refine (fits_of_expand h).single ?_
    intro s c hs
    have hmem : s ∈ o.values.toList.map Prod.fst :=
      SignalMap.mem_map_fst_toList.mpr ⟨c, hs⟩
    rw [hempty] at hmem
    cases hmem

/-! ### What a program says about its rows -/

/-- The signal that a statement assigns. -/
def Statement.signal? : Statement → Option Signal
  | .assign s _ => some s
  | .goto _ => none

/-- The condition of the row that an item ends: a move outside of any guard ends an
unconditional row, and a guard is a row of its own. -/
def Item.condition? : Item → Option String
  | .plain (.assign _ _) => none
  | .plain (.goto _) => some always
  | .guarded condition _ _ => some condition

namespace Program

/-- All signals that a program assigns somewhere. -/
def assigned (p : Program) : List Signal :=
  (p.flatMap Item.statements).filterMap Statement.signal?

/-- The conditions of the rows that a program ends. -/
def conditions (p : Program) : List String := p.filterMap Item.condition?

theorem mem_assigned_append {p q : Program} {s : Signal} :
    s ∈ assigned (p ++ q) ↔ s ∈ assigned p ∨ s ∈ assigned q := by
  unfold assigned
  rw [List.flatMap_append, List.filterMap_append, List.mem_append]

theorem assigned_plain (xs : List Statement) :
    assigned (xs.map Item.plain) = xs.filterMap Statement.signal? := by
  unfold assigned
  rw [List.flatMap_map]
  exact congrArg _ (List.flatMap_singleton' xs)

/-- What stands before the rows assigns signals of the first row. -/
theorem mem_signals_of_preloads {marker : String} {rows : List Row} {st : Statement}
    (h : st ∈ preloads marker rows) :
    ∃ row ∈ rows, ∃ s v, st = .assign s v ∧ s ∈ row.signals := by
  cases rows with
  | nil => cases h
  | cons first rest =>
      have hvalue : ∀ s, st ∈ (first.value? s).toList.map (Statement.assign s) →
          ∃ row ∈ first :: rest, ∃ s v, st = .assign s v ∧ s ∈ row.signals := by
        intro s hst
        obtain ⟨v, hv, rfl⟩ := List.mem_map.mp hst
        have hsome : first.value? s = some v := Option.mem_toList.mp hv
        refine ⟨first, List.mem_cons_self, s, v, rfl, Row.isSome_value?_iff.mp ?_⟩
        rw [hsome]
        rfl
      unfold preloads at h
      rcases List.mem_append.mp h with h | h
      · split at h
        · exact hvalue .readB h
        · cases h
      · exact hvalue .finished h

end Program

namespace Row

variable {row : Row} {elseTarget : Option String}

/-- A body assigns the signals of its row. -/
theorem filterMap_signal?_body (row : Row) (target : Option String) :
    (row.body target).filterMap Statement.signal? = row.signals := by
  have hassign : (row.assignments.map fun p => Statement.assign p.1 p.2).filterMap
      Statement.signal? = row.signals := by
    rw [List.filterMap_map]
    show row.assignments.filterMap (some ∘ Prod.fst) = row.signals
    rw [List.filterMap_eq_map]
    rfl
  unfold body
  rw [List.filterMap_append, hassign]
  cases target <;> simp [Statement.signal?]

theorem mem_assigned_items {s : Signal} :
    s ∈ Program.assigned (row.items elseTarget) ↔ s ∈ row.signals := by
  by_cases halways : row.condition = always
  · rw [items_of_always elseTarget halways, Program.assigned_plain, filterMap_signal?_body]
  · rw [items_of_guarded elseTarget halways]
    unfold Program.assigned
    rw [List.flatMap_singleton, Item.statements, List.filterMap_append, filterMap_signal?_body]
    cases elseTarget with
    | none => simp
    | some t => simp [filterMap_signal?_body]

/-- A row that moves on or is guarded shows its condition. -/
theorem conditions_items (elseTarget : Option String) (row : Row) :
    Program.conditions (row.items elseTarget) =
      if row.condition = always ∧ row.target = none then [] else [row.condition] := by
  by_cases halways : row.condition = always
  · have hassign : ((row.assignments.map fun p => Statement.assign p.1 p.2).map
        Item.plain).filterMap Item.condition? = [] := by
      rw [List.map_map, List.filterMap_map]
      exact List.filterMap_eq_nil_iff.mpr fun p _ => rfl
    rw [items_of_always elseTarget halways]
    unfold Program.conditions body
    rw [List.map_append, List.filterMap_append, hassign, halways]
    cases row.target <;> simp [Item.condition?]
  · rw [items_of_guarded elseTarget halways, if_neg fun h => halways h.1]
    rfl

end Row

namespace Uniform

variable {signals : List Signal} {moves : Bool} {rows : List Row}

/-- The signals of the rows are those that the program assigns. -/
theorem mem_assigned_ofRows (h : Uniform signals moves rows) (marker : String)
    (elseTarget : Option String) {s : Signal} :
    s ∈ (Program.ofRows marker elseTarget rows).assigned ↔ s ∈ signals := by
  have hrows : s ∈ Program.assigned (rows.flatMap (Row.items elseTarget)) ↔ s ∈ signals := by
    have hsome : s ∈ Program.assigned (rows.flatMap (Row.items elseTarget)) ↔
        ∃ row ∈ rows, s ∈ Program.assigned (row.items elseTarget) := by
      unfold Program.assigned
      rw [List.flatMap_assoc, List.filterMap_flatMap, List.mem_flatMap]
    rw [hsome]
    simp only [Row.mem_assigned_items]
    constructor
    · rintro ⟨row, hrow, hs⟩
      rwa [h.signals_eq row hrow] at hs
    · intro hs
      obtain ⟨row, hrow⟩ := List.exists_mem_of_ne_nil rows h.nonempty
      exact ⟨row, hrow, by rwa [h.signals_eq row hrow]⟩
  unfold Program.ofRows
  rw [Program.mem_assigned_append, hrows, Program.assigned_plain]
  constructor
  · rintro (hs | hs)
    · obtain ⟨st, hst, hsignal⟩ := List.mem_filterMap.mp hs
      obtain ⟨row, hrow, t, v, rfl, ht⟩ := Program.mem_signals_of_preloads hst
      obtain rfl : t = s := Option.some.inj hsignal
      rwa [h.signals_eq row hrow] at ht
    · exact hs
  · exact Or.inr

/-- The conditions of the rows can be read off the program, if the rows move on. -/
theorem conditions_ofRows (h : Uniform signals moves rows) (marker : String)
    (elseTarget : Option String) :
    (Program.ofRows marker elseTarget rows).conditions =
      if moves then rows.map Row.condition else [] := by
  have hpreloads : ((Program.preloads marker rows).map Item.plain).filterMap Item.condition? =
      [] := by
    rw [List.filterMap_map, List.filterMap_eq_nil_iff]
    intro st hst
    obtain ⟨-, -, s, v, rfl, -⟩ := Program.mem_signals_of_preloads hst
    rfl
  have hitems : rows.flatMap (fun row => (row.items elseTarget).filterMap Item.condition?) =
      rows.flatMap fun row => if moves then [row.condition] else [] := by
    refine List.flatMap_congr fun row hrow => ?_
    refine (Row.conditions_items elseTarget row).trans ?_
    have htarget := h.target row hrow
    cases moves with
    | true =>
        have hne : row.target ≠ none := Option.isSome_iff_ne_none.mp htarget
        rw [if_neg fun hboth => hne hboth.2]
        rfl
    | false =>
        have hnone : row.target = none := by simpa using htarget
        rw [if_pos ⟨h.condition rfl row hrow, hnone⟩]
        rfl
  unfold Program.conditions Program.ofRows
  rw [List.filterMap_append, hpreloads, List.nil_append, List.filterMap_flatMap, hitems]
  cases moves with
  | true => exact List.map_eq_flatMap.symm
  | false => simp

end Uniform

/-- Whether some condition uses the second read address can be read off the conditions. -/
theorem any_marked (marker : String) (rows : List Row) :
    (rows.any fun r => Text.occursIn marker.toList r.condition.toList) =
      (rows.map Row.condition).any fun c => Text.occursIn marker.toList c.toList := by
  rw [List.any_map]
  rfl

/-- How much stands before the rows depends on their signals, and on whether some
condition uses the second read address. -/
theorem Uniform.length_preloads {signals : List Signal} {moves moves' : Bool}
    {rows rows' : List Row} (h : Uniform signals moves rows) (h' : Uniform signals moves' rows')
    {marker : String}
    (hmarked : ((rows.map Row.condition).any fun c => Text.occursIn marker.toList c.toList) =
      (rows'.map Row.condition).any fun c => Text.occursIn marker.toList c.toList) :
    (Program.preloads marker rows).length = (Program.preloads marker rows').length := by
  obtain ⟨first, rest, rfl⟩ := List.exists_cons_of_ne_nil h.nonempty
  obtain ⟨first', rest', rfl⟩ := List.exists_cons_of_ne_nil h'.nonempty
  have hvalue : ∀ s, (first.value? s).toList.length = (first'.value? s).toList.length := by
    intro s
    have hsignals : first.signals = first'.signals :=
      (h.signals_eq first List.mem_cons_self).trans (h'.signals_eq first' List.mem_cons_self).symm
    have hsome : (first.value? s).isSome = (first'.value? s).isSome := by
      rw [Bool.eq_iff_iff, Row.isSome_value?_iff, Row.isSome_value?_iff, hsignals]
    cases hfirst : first.value? s <;> cases hfirst' : first'.value? s <;>
      simp [hfirst, hfirst'] at hsome ⊢
  rw [← any_marked, ← any_marked] at hmarked
  unfold Program.preloads
  rw [List.length_append, List.length_append, hmarked]
  congr 1
  · split
    · simpa using hvalue .readB
    · rfl
  · simpa using hvalue .finished

/-! ### From programs to rows -/

section Rows

variable {row row' : Row} {elseTarget elseTarget' : Option String}

/-- Bodies of as many assignments fall into the same assignments and the same move. -/
theorem body_inj {target target' : Option String}
    (hsignals : row.signals = row'.signals) (h : row.body target = row'.body target') :
    row.assignments = row'.assignments ∧ target = target' := by
  have hlength : row.assignments.length = row'.assignments.length := by
    simpa [Row.signals] using congrArg List.length hsignals
  unfold Row.body at h
  obtain ⟨hassign, htarget⟩ := List.append_inj h (by simpa using hlength)
  constructor
  · refine List.map_injective_iff.mpr ?_ hassign
    rintro ⟨s, v⟩ ⟨s', v'⟩ heq
    cases heq
    rfl
  · cases target <;> cases target' <;> simp at htarget ⊢
    exact htarget

/-- **One row.**  If the rows have the same condition, assign the same signals and both
move on or both do not, then code that begins with them begins with the same row. -/
theorem items_append_inj {p p' : Program} (hcondition : row.condition = row'.condition)
    (hsignals : row.signals = row'.signals) (htarget : row.target.isSome = row'.target.isSome)
    (h : row.items elseTarget ++ p = row'.items elseTarget' ++ p') :
    row = row' ∧ p = p' ∧ (row.condition ≠ always → elseTarget = elseTarget') := by
  have hrow : row.body row.target = row'.body row'.target → row = row' := by
    intro hbody
    obtain ⟨hassignments, htarget⟩ := body_inj hsignals hbody
    cases row
    cases row'
    cases hcondition
    cases hassignments
    cases htarget
    rfl
  by_cases halways : row.condition = always
  · rw [items_of_always elseTarget halways,
      items_of_always elseTarget' (hcondition ▸ halways)] at h
    have hlength : (row.body row.target).length = (row'.body row'.target).length := by
      have hassignments : row.assignments.length = row'.assignments.length := by
        simpa [Row.signals] using congrArg List.length hsignals
      unfold Row.body
      cases ht : row.target <;> cases ht' : row'.target <;>
        simp [ht, ht', hassignments] at htarget ⊢
    obtain ⟨hplain, hrest⟩ := List.append_inj h (by simpa using hlength)
    have hbody : row.body row.target = row'.body row'.target :=
      List.map_injective_iff.mpr (fun _ _ heq => Item.plain.inj heq) hplain
    exact ⟨hrow hbody, hrest, fun hguarded => absurd halways hguarded⟩
  · rw [items_of_guarded elseTarget halways,
      items_of_guarded elseTarget' (hcondition ▸ halways)] at h
    obtain ⟨hitem, hrest⟩ := List.cons.inj h
    obtain ⟨-, hbody, helse⟩ := Item.guarded.inj hitem
    refine ⟨hrow hbody, hrest, fun _ => ?_⟩
    cases elseTarget with
    | none =>
        cases elseTarget' with
        | none => rfl
        | some t' => cases helse
    | some t =>
        cases elseTarget' with
        | none => cases helse
        | some t' => exact (body_inj hsignals (Option.some.inj helse)).2

/-- **All rows.**  The induction is on the rows of both programs at once, which have
the same conditions. -/
theorem rows_eq_of_items {signals : List Signal} {moves : Bool} {rows rows' : List Row}
    (hsignals : ∀ row ∈ rows, row.signals = signals)
    (hsignals' : ∀ row ∈ rows', row.signals = signals)
    (htarget : ∀ row ∈ rows, row.target.isSome = moves)
    (htarget' : ∀ row ∈ rows', row.target.isSome = moves)
    (hconditions : rows.map Row.condition = rows'.map Row.condition)
    (h : rows.flatMap (Row.items elseTarget) = rows'.flatMap (Row.items elseTarget')) :
    rows = rows' ∧ ((∃ row ∈ rows, row.condition ≠ always) → elseTarget = elseTarget') := by
  induction rows generalizing rows' with
  | nil =>
      obtain rfl : rows' = [] := List.map_eq_nil_iff.mp hconditions.symm
      exact ⟨rfl, fun ⟨row, hrow, _⟩ => absurd hrow List.not_mem_nil⟩
  | cons row rows ih =>
      cases rows' with
      | nil => simp at hconditions
      | cons row' rows' =>
          obtain ⟨hcondition, hothers⟩ := List.cons.inj hconditions
          obtain ⟨hrow, hrows⟩ := List.forall_mem_cons.mp hsignals
          obtain ⟨hrow', hrows'⟩ := List.forall_mem_cons.mp hsignals'
          obtain ⟨hmove, hmoves⟩ := List.forall_mem_cons.mp htarget
          obtain ⟨hmove', hmoves'⟩ := List.forall_mem_cons.mp htarget'
          rw [List.flatMap_cons, List.flatMap_cons] at h
          obtain ⟨rfl, hrest, helse⟩ := items_append_inj hcondition (hrow.trans hrow'.symm)
            (hmove.trans hmove'.symm) h
          obtain ⟨rfl, helses⟩ := ih hrows hrows' hmoves hmoves' hothers hrest
          refine ⟨rfl, ?_⟩
          rintro ⟨r, hr, hguarded⟩
          rcases List.mem_cons.mp hr with rfl | hr
          · exact helse hguarded
          · exact helses ⟨r, hr, hguarded⟩

end Rows

namespace Uniform

variable {signals signals' : List Signal} {moves moves' : Bool} {rows rows' : List Row}
  {marker : String} {elseTarget elseTarget' : Option String}

/-- Equal programs have rows of the same signals. -/
theorem signals_unique (h : Uniform signals moves rows) (h' : Uniform signals' moves' rows')
    (heq : Program.ofRows marker elseTarget rows = Program.ofRows marker elseTarget' rows') :
    signals = signals' := by
  refine Signal.eq_of_mem_iff id h.sorted h'.sorted ?_
  intro s
  rw [← h.mem_assigned_ofRows marker elseTarget, heq, h'.mem_assigned_ofRows]

/-- Equal programs both move on, or neither does. -/
theorem moves_unique (h : Uniform signals moves rows) (h' : Uniform signals' moves' rows')
    (heq : Program.ofRows marker elseTarget rows = Program.ofRows marker elseTarget' rows') :
    moves = moves' := by
  have hconditions := congrArg Program.conditions heq
  rw [h.conditions_ofRows, h'.conditions_ofRows] at hconditions
  have hne := h.nonempty
  have hne' := h'.nonempty
  cases moves <;> cases moves' <;> simp_all

/-- Without a rule the rows are counted by their assignments. -/
theorem length_items (h : Uniform signals false rows) (elseTarget : Option String) :
    (rows.flatMap (Row.items elseTarget)).length = rows.length * signals.length := by
  have hrow : ∀ row ∈ rows, (row.items elseTarget).length = signals.length := by
    intro row hrow
    have hnone : row.target = none := by simpa using h.target row hrow
    rw [items_of_always elseTarget (h.condition rfl row hrow), ← h.signals_eq row hrow]
    simp [Row.body, Row.signals, hnone]
  rw [List.length_flatMap, List.map_congr_left hrow, List.map_const', List.sum_replicate_nat]

/-- Without a rule all conditions are the same. -/
theorem map_condition (h : Uniform signals false rows) :
    rows.map Row.condition = List.replicate rows.length always :=
  List.map_eq_replicate_iff.mpr (h.condition rfl)

/-- **Programs determine uniform rows**, and the else target if some row is guarded. -/
theorem rows_eq (h : Uniform signals moves rows) (h' : Uniform signals' moves' rows')
    (heq : Program.ofRows marker elseTarget rows = Program.ofRows marker elseTarget' rows') :
    rows = rows' ∧ ((∃ row ∈ rows, row.condition ≠ always) → elseTarget = elseTarget') := by
  obtain rfl := h.signals_unique h' heq
  obtain rfl := h.moves_unique h' heq
  -- once it is known how much stands before the rows, the rows themselves are left
  have hitems : ((rows.map Row.condition).any fun c => Text.occursIn marker.toList c.toList) =
        ((rows'.map Row.condition).any fun c => Text.occursIn marker.toList c.toList) →
      rows.flatMap (Row.items elseTarget) = rows'.flatMap (Row.items elseTarget') := by
    intro hmarked
    exact (List.append_inj heq (by simpa using h.length_preloads h' hmarked)).2
  cases moves with
  | true =>
      have hconditions : rows.map Row.condition = rows'.map Row.condition := by
        have hboth := congrArg Program.conditions heq
        rwa [h.conditions_ofRows, h'.conditions_ofRows] at hboth
      exact rows_eq_of_items h.signals_eq h'.signals_eq h.target h'.target hconditions
        (hitems (by rw [hconditions]))
  | false =>
      have hpos : rows.length ≠ 0 := List.length_eq_zero_iff.not.mpr h.nonempty
      have hpos' : rows'.length ≠ 0 := List.length_eq_zero_iff.not.mpr h'.nonempty
      have hrest := hitems (by
        rw [h.map_condition, h'.map_condition, List.any_replicate, List.any_replicate,
          if_neg hpos, if_neg hpos'])
      have hlength : rows.length = rows'.length := by
        by_cases hempty : signals = []
        · rw [h.single hempty, h'.single hempty]
        · have hproduct := congrArg List.length hrest
          rw [h.length_items, h'.length_items] at hproduct
          exact Nat.eq_of_mul_eq_mul_right (List.length_pos_iff.mpr hempty) hproduct
      have hconditions : rows.map Row.condition = rows'.map Row.condition := by
        rw [h.map_condition, h'.map_condition, hlength]
      exact rows_eq_of_items h.signals_eq h'.signals_eq h.target h'.target hconditions hrest

end Uniform

/-- **The code of a state loses nothing of its rows.**  Under plain settings, if two
states that can be lined up add the same lines, whatever is there before, then they
have the same name, the same rows, and the same else target if some row is guarded. -/
theorem code_determines_rows (e : Emitter) (he : e.IsPlain) (s s' : State)
    (rows rows' : List Row) (h : expand s.name s.output s.rule = .ok rows)
    (h' : expand s'.name s'.output s'.rule = .ok rows') (before before' lines : List String)
    (hlines : e.emit s.name s.rule rows before = before ++ lines)
    (hlines' : e.emit s'.name s'.rule rows' before' = before' ++ lines) :
    s.name = s'.name ∧ rows = rows' ∧
      ((∃ row ∈ rows, row.condition ≠ always) → s.elseTarget = s'.elseTarget) := by
  have hblock : e.block s.name (Program.ofRows e.readMarker s.elseTarget rows) = lines :=
    List.append_cancel_left hlines
  have hblock' : e.block s'.name (Program.ofRows e.readMarker s'.elseTarget rows') = lines :=
    List.append_cancel_left hlines'
  obtain ⟨hname, hprogram⟩ := he.block_inj (hblock.trans hblock'.symm)
  exact ⟨hname, (uniform_of_expand h).rows_eq (uniform_of_expand h') hprogram⟩

/-- The state `placing` with its end marker written out for both cases. -/
def placingWritten : State where
  name := "PLACE"
  output := (Output.empty.drive .readB ⟨["r0", "r1"]⟩).drive .finished ⟨["1", "1"]⟩
  rule := some (.branch ⟨["go", "rb_data == 0"]⟩ ⟨["NEXT", "NEXT"]⟩ "RETRY")

/-- Two ways to write a state that add the same lines, and so have the same rows. -/
theorem code_of_placing_determines_rows :
    Emitter.standard.IsPlain ∧
      placing.block .standard = placingWritten.block .standard ∧
      placing.emit .standard ["game_state.IDLE:"] =
        (placingWritten.block .standard).map ("game_state.IDLE:" :: ·) ∧
      expand "PLACE" placingWritten.output placingWritten.rule = .ok placingRows ∧
      placing.elseTarget = placingWritten.elseTarget := by
  have hplain : Emitter.standard.IsPlain :=
    ⟨by decide, List.all_eq_true.mp rfl, List.all_eq_true.mp rfl⟩
  have hrows : expand placing.name placing.output placing.rule = .ok placingRows := rfl
  obtain ⟨rows', lines, hrows', hlines, hlines'⟩ : ∃ rows' lines,
      expand placingWritten.name placingWritten.output placingWritten.rule = .ok rows' ∧
      Emitter.standard.emit placing.name placing.rule placingRows ["game_state.IDLE:"] =
        ["game_state.IDLE:"] ++ lines ∧
      Emitter.standard.emit placingWritten.name placingWritten.rule rows' [] = [] ++ lines :=
    ⟨_, _, rfl, rfl, rfl⟩
  obtain ⟨-, rfl, helse⟩ := code_determines_rows .standard hplain placing placingWritten
    placingRows rows' hrows hrows' _ _ lines hlines hlines'
  exact ⟨hplain, rfl, rfl, hrows', helse ⟨_, List.mem_cons_self, by decide⟩⟩

end Sequencer
