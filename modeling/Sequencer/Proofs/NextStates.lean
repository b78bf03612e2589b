import Sequencer.Proofs.Execution

/-!
# The next states that code assigns

The code of a state can move on in several places: at the end of a row that is
unconditional, in the body of a guarded row, and in its else body.  This module
collects these places, whether or not they are ever executed, and traces them back
to the rule of the state.  A target of the rule is always assigned, in whichever
row.  The else target is assigned in the else bodies, so that it is missing where
no row is guarded.

## Main Definitions

* `Program.nextStates` — all next states that a program assigns.
* `Program.elseBodies` — the else bodies of a program, with their conditions.

## Main Results

* `mem_nextStates_ofRows` — the next states of rows.
* `elseBodies_ofRows_some` — there is one else body for each guarded row.
* `exists_target_iff` — the targets of the rows are the targets of the rule.
* `State.mem_nextStates_iff` — the next states of a state, in terms of its rule.
-/

namespace Sequencer

/-! ### Places that move on -/

/-- The next state that a statement assigns. -/
def Statement.target? : Statement → Option String
  | .assign _ _ => none
  | .goto t => some t

namespace Item

/-- All statements of an item, in its body and in its else body. -/
def statements : Item → List Statement
  | .plain s => [s]
  | .guarded _ body otherwise => body ++ otherwise.getD []

/-- The else body of an item, with the condition that it belongs to. -/
def elseBody? : Item → Option (String × List Statement)
  | .guarded condition _ (some other) => some (condition, other)
  | _ => none

end Item

namespace Program

/-- All next states that a program assigns somewhere. -/
def nextStates (p : Program) : List String :=
  (p.flatMap Item.statements).filterMap Statement.target?

/-- The else bodies of a program, each with the condition that it belongs to. -/
def elseBodies (p : Program) : List (String × List Statement) :=
  p.filterMap Item.elseBody?

theorem nextStates_append (p q : Program) :
    nextStates (p ++ q) = nextStates p ++ nextStates q := by
  unfold nextStates
  rw [List.flatMap_append, List.filterMap_append]

theorem elseBodies_append (p q : Program) :
    elseBodies (p ++ q) = elseBodies p ++ elseBodies q :=
  List.filterMap_append

/-- Statements outside of any guard move on where they say so. -/
theorem nextStates_plain (xs : List Statement) :
    nextStates (xs.map Item.plain) = xs.filterMap Statement.target? := by
  have hstatements : (xs.map Item.plain).flatMap Item.statements = xs := by
    rw [List.flatMap_map]
    exact List.flatMap_singleton' xs
  unfold nextStates
  rw [hstatements]

theorem elseBodies_plain (xs : List Statement) : elseBodies (xs.map Item.plain) = [] := by
  unfold elseBodies
  rw [List.filterMap_map]
  exact List.filterMap_eq_nil_iff.mpr fun s _ => rfl

/-- What stands before the rows only assigns signals. -/
theorem nextStates_preloads (marker : String) (rows : List Row) :
    (preloads marker rows).filterMap Statement.target? = [] := by
  have hassign : ∀ (s : Signal) (value : Option String),
      (value.toList.map (Statement.assign s)).filterMap Statement.target? = [] := by
    intro s value
    cases value <;> rfl
  unfold preloads
  split
  · rfl
  · rw [List.filterMap_append, hassign]
    split
    · rw [hassign]
      rfl
    · rfl

end Program

/-! ### Rows -/

namespace Row

/-- A body moves on at its end, to the given target. -/
theorem filterMap_target?_body (row : Row) (target : Option String) :
    (row.body target).filterMap Statement.target? = target.toList := by
  have hassign : (row.assignments.map fun p => Statement.assign p.1 p.2).filterMap
      Statement.target? = [] := by
    rw [List.filterMap_map]
    exact List.filterMap_eq_nil_iff.mpr fun p _ => rfl
  unfold body
  rw [List.filterMap_append, hassign]
  cases target <;> rfl

/-- One row moves on to its target, and if it is guarded also to the else target. -/
theorem mem_nextStates_items (elseTarget : Option String) (row : Row) (t : String) :
    t ∈ Program.nextStates (row.items elseTarget) ↔
      row.target = some t ∨ elseTarget = some t ∧ row.condition ≠ always := by
  by_cases halways : row.condition = always
  · rw [items_of_always elseTarget halways, Program.nextStates_plain, filterMap_target?_body,
      Option.mem_toList]
    simp [halways]
  · have hnext : Program.nextStates (row.items elseTarget) =
        row.target.toList ++ elseTarget.toList := by
      rw [items_of_guarded elseTarget halways]
      unfold Program.nextStates
      rw [List.flatMap_singleton, Item.statements, List.filterMap_append,
        filterMap_target?_body]
      cases elseTarget with
      | none => rfl
      | some u =>
          rw [Option.map_some, Option.getD_some, filterMap_target?_body]
    rw [hnext, List.mem_append, Option.mem_toList, Option.mem_toList]
    simp [halways]

/-- A row has an else body exactly if it is guarded and there is an else target. -/
theorem elseBodies_items (elseTarget : Option String) (row : Row) :
    Program.elseBodies (row.items elseTarget) =
      if row.condition = always then []
      else (elseTarget.map fun t => (row.condition, row.body (some t))).toList := by
  by_cases halways : row.condition = always
  · rw [if_pos halways, items_of_always elseTarget halways, Program.elseBodies_plain]
  · rw [if_neg halways, items_of_guarded elseTarget halways]
    cases elseTarget <;> rfl

end Row

section Rows

variable {marker : String} {elseTarget : Option String} {rows : List Row}

/-- **The next states of rows**: the target of any row, and the else target if some
row is guarded. -/
theorem mem_nextStates_ofRows {t : String} :
    t ∈ (Program.ofRows marker elseTarget rows).nextStates ↔
      (∃ row ∈ rows, row.target = some t) ∨
        elseTarget = some t ∧ ∃ row ∈ rows, row.condition ≠ always := by
  have hrows : t ∈ Program.nextStates (rows.flatMap (Row.items elseTarget)) ↔
      ∃ row ∈ rows, t ∈ Program.nextStates (row.items elseTarget) := by
    unfold Program.nextStates
    simp only [List.mem_filterMap, List.mem_flatMap]
    constructor
    · rintro ⟨st, ⟨item, ⟨row, hrow, hitem⟩, hst⟩, ht⟩
      exact ⟨row, hrow, st, ⟨item, hitem, hst⟩, ht⟩
    · rintro ⟨row, hrow, st, ⟨item, hitem, hst⟩, ht⟩
      exact ⟨st, ⟨item, ⟨row, hrow, hitem⟩, hst⟩, ht⟩
  unfold Program.ofRows
  rw [Program.nextStates_append, Program.nextStates_plain, Program.nextStates_preloads,
    List.nil_append, hrows]
  simp only [Row.mem_nextStates_items]
  constructor
  · rintro ⟨row, hrow, htarget | ⟨helse, hguarded⟩⟩
    · exact Or.inl ⟨row, hrow, htarget⟩
    · exact Or.inr ⟨helse, row, hrow, hguarded⟩
  · rintro (⟨row, hrow, htarget⟩ | ⟨helse, row, hrow, hguarded⟩)
    · exact ⟨row, hrow, Or.inl htarget⟩
    · exact ⟨row, hrow, Or.inr ⟨helse, hguarded⟩⟩

/-- The else bodies of rows are those of each row, in order. -/
theorem elseBodies_ofRows_eq (marker : String) (elseTarget : Option String) (rows : List Row) :
    (Program.ofRows marker elseTarget rows).elseBodies =
      rows.flatMap fun row =>
        if row.condition = always then []
        else (elseTarget.map fun t => (row.condition, row.body (some t))).toList := by
  have hrows : Program.elseBodies (rows.flatMap (Row.items elseTarget)) =
      rows.flatMap fun row => Program.elseBodies (row.items elseTarget) :=
    List.filterMap_flatMap
  unfold Program.ofRows
  rw [Program.elseBodies_append, Program.elseBodies_plain, List.nil_append, hrows]
  simp only [Row.elseBodies_items]

/-- Without an else target there is no else body. -/
theorem elseBodies_ofRows_none (marker : String) (rows : List Row) :
    (Program.ofRows marker none rows).elseBodies = [] := by
  rw [elseBodies_ofRows_eq, List.flatMap_eq_nil_iff]
  intro row _
  split <;> rfl

/-- **With an else target there is one else body for each guarded row**, and none for
any other row. -/
theorem elseBodies_ofRows_some (marker t : String) (rows : List Row) :
    (Program.ofRows marker (some t) rows).elseBodies =
      (rows.filter fun row => row.condition ≠ always).map fun row =>
        (row.condition, row.body (some t)) := by
  rw [elseBodies_ofRows_eq]
  induction rows with
  | nil => rfl
  | cons row rows ih =>
      rw [List.flatMap_cons, ih]
      by_cases halways : row.condition = always
      · rw [if_pos halways, List.filter_cons_of_neg (by simp [halways])]
        rfl
      · rw [if_neg halways, List.filter_cons_of_pos (by simp [halways])]
        rfl

end Rows

/-! ### Rules -/

namespace Cases

/-- The text of a case is one of the texts. -/
theorem mem_of_textAt {c : Cases} {i : Nat} {v : String} (h : c.textAt i = some v) :
    v ∈ c.values := by
  rw [textAt_eq] at h
  split at h
  · exact List.mem_of_getElem? h
  · exact List.mem_of_getElem? h

/-- If the texts fit the number of cases, each of them is the text of some case. -/
theorem Suits.exists_textAt_of_mem {c : Cases} {n : Nat} (h : c.Suits n) (hn : 1 ≤ n)
    {v : String} (hv : v ∈ c.values) : ∃ i, i < n ∧ c.textAt i = some v := by
  obtain ⟨i, hi, hget⟩ := List.mem_iff_getElem.mp hv
  by_cases hsingle : c.length = 1
  · -- the only text is that of every case, also of the first
    have hzero : i = 0 := by
      have hlt : i < c.length := hi
      omega
    subst hzero
    refine ⟨0, hn, ?_⟩
    rw [textAt_eq, if_pos hsingle, List.getElem?_eq_getElem hi, hget]
  · refine ⟨i, h.resolve_left hsingle ▸ hi, ?_⟩
    rw [textAt_eq, if_neg hsingle, List.getElem?_eq_getElem hi, hget]

end Cases

/-- **The targets of the rows are the targets of the rule.** -/
theorem exists_target_iff {state : String} {o : Output} {r : Rule} {rows : List Row}
    (h : expand state o (some r) = .ok rows) {t : String} :
    (∃ row ∈ rows, row.target = some t) ↔ t ∈ r.targets.values := by
  have hfits := fits_of_expand h
  constructor
  · rintro ⟨row, hrow, htarget⟩
    obtain ⟨i, -, hcase⟩ := exists_isCase_of_mem h hrow
    rw [hcase.target] at htarget
    exact Cases.mem_of_textAt htarget
  · intro ht
    obtain ⟨i, hi, htext⟩ := (hfits.targets r rfl).exists_textAt_of_mem hfits.pos ht
    refine ⟨rows[i], List.getElem_mem hi, ?_⟩
    rw [(isCase_of_expand h i hi).target]
    exact htext

/-- A state without a rule assigns no next state. -/
theorem nextStates_of_no_rule {state : String} {o : Output} {rows : List Row} {marker : String}
    (h : expand state o none = .ok rows) :
    (Program.ofRows marker none rows).nextStates = [] := by
  rw [List.eq_nil_iff_forall_not_mem]
  intro t ht
  rcases mem_nextStates_ofRows.mp ht with ⟨row, hrow, htarget⟩ | ⟨helse, -⟩
  · obtain ⟨i, -, hcase⟩ := exists_isCase_of_mem h hrow
    rw [hcase.target] at htarget
    cases htarget
  · cases helse

/-- The program of a state is the program of its rows. -/
theorem State.program_of_rows (e : Emitter) {s : State} {rows : List Row}
    (h : s.rows = .ok rows) :
    s.program e = .ok (Program.ofRows e.readMarker s.elseTarget rows) := by
  unfold State.program
  rw [h]
  rfl

theorem State.elseTarget_of_rule {s : State} {r : Rule} (hr : s.rule = some r) :
    s.elseTarget = r.elseTarget := by
  unfold State.elseTarget
  rw [hr]
  rfl

/-- **The next states of a state with a rule**: its targets, and its else target if
some row is guarded. -/
theorem State.mem_nextStates_iff {s : State} {r : Rule} (hr : s.rule = some r)
    {rows : List Row} (h : s.rows = .ok rows) {marker t : String} :
    t ∈ (Program.ofRows marker s.elseTarget rows).nextStates ↔
      t ∈ r.targets.values ∨ r.elseTarget = some t ∧ ∃ row ∈ rows, row.condition ≠ always := by
  unfold State.rows at h
  rw [hr] at h
  rw [mem_nextStates_ofRows, exists_target_iff h, elseTarget_of_rule hr]

end Sequencer
