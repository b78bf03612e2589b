import Sequencer.Diagram
import Sequencer.Proofs.Blocks
import Sequencer.Proofs.NextStates

/-!
# Diagrams against code

A diagram is drawn from the rules as they are, while code is made from rows in which
all cases are lined up.  This module compares the two.  A machine that compiles can
be drawn unless one of its states fans out: it has a single condition, which the
rows share, and several targets, which the drawing cannot pair with it.  Where both
succeed, the edges of a state are the transitions of its rows.

## Main Definitions

* `State.FansOut` — a single condition for several targets.
* `Diagram.Drawing.arrowsFrom` — the edges that leave a node, with their labels.

## Main Results

* `Diagram.failure_ofStates` — drawing stops at the first state without edges.
* `State.edges_eq_error_iff` — a state that can be lined up fails to be drawn
  exactly if it fans out.
* `drawing_fails_iff_fansOut` — which machines compile and cannot be drawn.
* `Machine.arrowsFrom_draw` — the edges that leave a state of a drawn machine.
* `diagram_shows_assigned_transitions` — edges against rows and else bodies.
-/

namespace Sequencer

open Diagram

/-! ### The edges of a rule -/

namespace Rule

variable {r : Rule} {arrows : List (String × String)}

theorem arrows_of_single {t : String} (h : r.targets.values = [t]) :
    r.arrows = some [(t, r.shownLabel)] := by
  unfold Rule.arrows
  rw [h]

/-- Several targets are paired with the conditions, if there are as many. -/
theorem arrows_of_length_ne_one (h : r.targets.length ≠ 1) :
    r.arrows =
      if r.targets.length = r.conditions.length then
        some (r.targets.values.zip r.conditions.values)
      else none := by
  unfold Rule.arrows
  split
  · next t ht =>
      refine absurd ?_ h
      unfold Cases.length
      rw [ht]
      rfl
  · rfl

/-- The targets that cannot be drawn are those of an unpaired rule. -/
theorem arrows_eq_none_iff : r.arrows = none ↔ r.Unpaired := by
  unfold Unpaired
  by_cases hone : r.targets.length = 1
  · obtain ⟨t, ht⟩ := List.length_eq_one_iff.mp hone
    rw [arrows_of_single ht]
    simp [hone]
  · rw [arrows_of_length_ne_one hone]
    simp [hone]

/-- The edges of a rule lead to its targets, in order. -/
theorem map_fst_arrows (h : r.arrows = some arrows) :
    arrows.map Prod.fst = r.targets.values := by
  by_cases hone : r.targets.length = 1
  · obtain ⟨t, ht⟩ := List.length_eq_one_iff.mp hone
    rw [arrows_of_single ht] at h
    rw [← Option.some.inj h, ht]
    rfl
  · rw [arrows_of_length_ne_one hone] at h
    split at h
    · next hlength =>
        rw [← Option.some.inj h]
        exact List.map_fst_zip (Nat.le_of_eq hlength)
    · cases h

theorem elseArrow_of_none (h : r.elseTarget = none) : r.elseArrow = none := by
  unfold elseArrow
  rw [h]
  rfl

/-- A branch has a label for its else edge, and draws that edge. -/
theorem elseArrow_of_some {t : String} (h : r.elseTarget = some t) :
    ∃ label, r.shownInverse = some label ∧ r.elseArrow = some (t, label) := by
  refine ⟨r.inverseLabel.getD r.derivedInverse, ?_, ?_⟩
  · unfold shownInverse
    rw [h]
    rfl
  · unfold elseArrow shownInverse
    rw [h]
    rfl

end Rule

/-! ### Where drawing stops -/

/-- Drawing fails with the error of the first state whose edges cannot be drawn. -/
theorem Diagram.failure_ofStates (states : List State) :
    (ofStates states).failure =
      match states.mapM State.edges with
      | .ok _ => none
      | .error err => some err := by
  induction states with
  | nil => rfl
  | cons s rest ih =>
      rw [ofStates, List.mapM_cons]
      cases s.edges with
      | error err => rfl
      | ok edges =>
          show (ofStates rest).failure = _
          rw [ih]
          cases rest.mapM State.edges <;> rfl

theorem Diagram.failure_ofStates_eq_some_iff {states : List State} {err : EdgeError} :
    (ofStates states).failure = some err ↔ states.mapM State.edges = .error err := by
  rw [failure_ofStates]
  cases states.mapM State.edges <;> simp

theorem Diagram.failure_ofStates_eq_none_iff {states : List State} :
    (ofStates states).failure = none ↔ ∀ s ∈ states, ∃ edges, s.edges = .ok edges := by
  rw [failure_ofStates, ← exists_mapM_ok_iff]
  cases states.mapM State.edges <;> simp

namespace State

/-- The rule of the state has a single condition for several targets. -/
def FansOut (s : State) : Prop :=
  ∃ r, s.rule = some r ∧ r.conditions.length = 1 ∧ 1 < r.targets.length

instance (s : State) : Decidable s.FansOut :=
  decidable_of_iff (∃ r ∈ s.rule, r.conditions.length = 1 ∧ 1 < r.targets.length) Iff.rfl

theorem edges_of_no_rule {s : State} (h : s.rule = none) : s.edges = .ok [] := by
  unfold edges
  rw [h]

theorem edges_of_arrows {s : State} {r : Rule} {arrows : List (String × String)}
    (hr : s.rule = some r) (harrows : r.arrows = some arrows) :
    s.edges = .ok ((arrows ++ r.elseArrow.toList).map fun a => .edge s.name a.1 a.2) := by
  unfold edges
  rw [hr]
  dsimp only
  rw [harrows]

theorem edges_of_no_arrows {s : State} {r : Rule} (hr : s.rule = some r)
    (harrows : r.arrows = none) :
    s.edges = .error ⟨s.name, r.conditions.length, r.targets.length⟩ := by
  unfold edges
  rw [hr]
  dsimp only
  rw [harrows]

/-- The targets of a state that is drawn have edges. -/
theorem exists_arrows_of_edges {s : State} {r : Rule} {edges : List Call}
    (hr : s.rule = some r) (h : s.edges = .ok edges) : ∃ thens, r.arrows = some thens := by
  cases harrows : r.arrows with
  | none => cases (edges_of_no_arrows hr harrows).symm.trans h
  | some thens => exact ⟨thens, rfl⟩

/-- **A state that can be lined up cannot be drawn exactly if it fans out.**  The
targets are then as many as there are rows. -/
theorem edges_eq_error_iff {s : State} {rows : List Row} (h : s.rows = .ok rows)
    {err : EdgeError} :
    s.edges = .error err ↔ s.FansOut ∧ err = ⟨s.name, 1, rows.length⟩ := by
  have hfits : Fits s.output s.rule rows.length := fits_of_expand h
  cases hr : s.rule with
  | none =>
      have hno : ¬ s.FansOut := by
        rintro ⟨r, hr', -⟩
        cases hr.symm.trans hr'
      rw [edges_of_no_rule hr]
      simp [hno]
  | some r =>
      have hconditions : r.conditions.length = 1 ∨ r.conditions.length = rows.length :=
        hfits.conditions r hr
      have htargets : r.targets.length = 1 ∨ r.targets.length = rows.length :=
        hfits.targets r hr
      have hpos := hfits.pos
      have hfans : s.FansOut ↔ r.conditions.length = 1 ∧ 1 < r.targets.length := by
        unfold FansOut
        simp [hr]
      -- unless both lengths are one or both are the number of rows, they differ
      have hnone : r.arrows = none ↔ s.FansOut := by
        rw [Rule.arrows_eq_none_iff, hfans, Rule.Unpaired]
        omega
      cases harrows : r.arrows with
      | none =>
          have hfan := hnone.mp harrows
          have hlengths : r.conditions.length = 1 ∧ r.targets.length = rows.length := by
            have hlength := hfans.mp hfan
            omega
          rw [edges_of_no_arrows hr harrows, hlengths.1, hlengths.2]
          simp [hfan, eq_comm]
      | some arrows =>
          have hno : ¬ s.FansOut := by
            rw [← hnone, harrows]
            simp
          rw [edges_of_arrows hr harrows]
          simp [hno]

theorem exists_edges_ok_iff {s : State} {rows : List Row} (h : s.rows = .ok rows) :
    (∃ edges, s.edges = .ok edges) ↔ ¬ s.FansOut := by
  constructor
  · rintro ⟨edges, hedges⟩ hfan
    cases hedges.symm.trans ((edges_eq_error_iff h).mpr ⟨hfan, rfl⟩)
  · intro hno
    by_contra hfails
    obtain ⟨err, herr⟩ := exists_error_of_not_ok hfails
    exact hno ((edges_eq_error_iff h).mp herr).1

end State

/-- **Which machines compile and cannot be drawn.**  Drawing a machine that compiles,
into a drawing of any kind, fails exactly if some state fans out.  The error names
the first state that does, with one condition and as many targets as that state has
cases. -/
theorem drawing_fails_iff_fansOut (m : Machine) (e : Emitter) (text : String)
    (h : m.compile e = .ok text) {σ : Type} (feed : σ → Call → σ) (sink : σ) :
    ((∃ err, (m.drawInto feed sink).2 = some err) ↔ ∃ s ∈ m.states, s.FansOut) ∧
    ((m.drawInto feed sink).2 = none ↔ ∀ s ∈ m.states, ¬ s.FansOut) ∧
    ∀ err, (m.drawInto feed sink).2 = some err →
      ∃ before s after n, m.states = before ++ s :: after ∧
        (∀ t ∈ before, ¬ t.FansOut) ∧ s.FansOut ∧
        caseCount s.name s.output = .ok n ∧ err = ⟨s.name, 1, n⟩ := by
  have hrows : ∀ s ∈ m.states, ∃ rows, s.rows = .ok rows :=
    Machine.exists_compile_ok_iff.mp ⟨text, h⟩
  have hfailure : (m.drawInto feed sink).2 = (ofStates m.states).failure := rfl
  rw [hfailure]
  have hnone : (ofStates m.states).failure = none ↔ ∀ s ∈ m.states, ¬ s.FansOut := by
    rw [failure_ofStates_eq_none_iff]
    refine forall₂_congr fun s hs => ?_
    obtain ⟨rows, hs⟩ := hrows s hs
    exact State.exists_edges_ok_iff hs
  refine ⟨?_, hnone, ?_⟩
  · rw [← Option.ne_none_iff_exists', ne_eq, hnone]
    push Not
    exact Iff.rfl
  · intro err herr
    rw [failure_ofStates_eq_some_iff, mapM_eq_error_iff] at herr
    obtain ⟨before, s, after, hsplit, hbefore, hs⟩ := herr
    have hmem : s ∈ m.states := by simp [hsplit]
    obtain ⟨rows, hsrows⟩ := hrows s hmem
    obtain ⟨hfan, rfl⟩ := (State.edges_eq_error_iff hsrows).mp hs
    refine ⟨before, s, after, rows.length, hsplit, fun t ht => ?_, hfan, ?_, rfl⟩
    · obtain ⟨trows, htrows⟩ := hrows t (by simp [hsplit, ht])
      exact (State.exists_edges_ok_iff htrows).mp (hbefore t ht)
    · exact caseCount_eq_ok_iff.mpr (fits_of_expand hsrows).toIsCaseCount

/-- One guard for two cases, each with a target of its own. -/
def fanning : State where
  name := "SIZE"
  output := Output.empty.drive .readA ⟨["r0", "r1"]⟩
  rule := some { conditions := .single "go", targets := ⟨["SMALL", "LARGE"]⟩ }

/-- A state that can be drawn, and behind it one that fans out. -/
theorem drawing_of_fanning_fails :
    (∃ text, (Machine.ofStates [placing, fanning]).compile .standard = .ok text) ∧
      ((Machine.ofStates [placing, fanning]).drawInto (fun calls c => c :: calls) []).2 =
        some ⟨"SIZE", 1, 2⟩ := by
  have hcompile : ∃ text, (Machine.ofStates [placing, fanning]).compile .standard = .ok text :=
    ⟨_, rfl⟩
  refine ⟨hcompile, ?_⟩
  obtain ⟨text, htext⟩ := hcompile
  obtain ⟨hfails, -, herror⟩ :=
    drawing_fails_iff_fansOut _ _ text htext (fun calls c => c :: calls) []
  have hstates : (Machine.ofStates [placing, fanning]).states = [placing, fanning] := rfl
  obtain ⟨err, herr⟩ := hfails.mpr ⟨fanning, by simp [hstates], by decide⟩
  obtain ⟨before, s, after, n, hsplit, -, hfan, hcount, rfl⟩ := herror err herr
  have hmem : s ∈ [placing, fanning] := by
    rw [← hstates, hsplit]
    simp
  rcases List.mem_cons.mp hmem with rfl | hmem
  · exact absurd hfan (by decide)
  · obtain rfl := List.mem_singleton.mp hmem
    have htwo : caseCount fanning.name fanning.output = .ok 2 := rfl
    cases htwo.symm.trans hcount
    exact herr

/-! ### The edges that leave a state -/

/-- The target and the label of an edge that leaves the given node. -/
def Diagram.Call.arrowFrom? (name : String) : Call → Option (String × String)
  | .node _ _ => none
  | .edge source target label => if source = name then some (target, label) else none

/-- The edges that leave the given node, in the order in which they are drawn. -/
def Diagram.Drawing.arrowsFrom (d : Drawing) (name : String) : List (String × String) :=
  d.calls.filterMap (Call.arrowFrom? name)

/-- The edges of a state, without the state itself. -/
def State.arrows (s : State) : List (String × String) :=
  s.rule.elim [] fun r => r.arrows.getD [] ++ r.elseArrow.toList

theorem State.arrows_of_rule {s : State} {r : Rule} {thens : List (String × String)}
    (hr : s.rule = some r) (h : r.arrows = some thens) :
    s.arrows = thens ++ r.elseArrow.toList := by
  unfold State.arrows
  rw [hr, Option.elim_some, h, Option.getD_some]

/-- The edges of a state lead to the targets of its rule and to its else target. -/
theorem State.mem_map_fst_arrows {s : State} {r : Rule} {thens : List (String × String)}
    (hr : s.rule = some r) (h : r.arrows = some thens) {t : String} :
    t ∈ s.arrows.map Prod.fst ↔ t ∈ r.targets.values ∨ r.elseTarget = some t := by
  rw [arrows_of_rule hr h, List.map_append, List.mem_append, Rule.map_fst_arrows h]
  cases helse : r.elseTarget with
  | none => simp [Rule.elseArrow_of_none helse]
  | some u =>
      obtain ⟨label, -, harrow⟩ := Rule.elseArrow_of_some helse
      simp [harrow, eq_comm]

/-- The edges of a state leave that state and no other. -/
theorem State.filterMap_arrowFrom?_edges {s : State} {edges : List Call}
    (h : s.edges = .ok edges) (name : String) :
    edges.filterMap (Call.arrowFrom? name) = if s.name = name then s.arrows else [] := by
  have hleave : ∀ arrows : List (String × String),
      (arrows.map fun a => Call.edge s.name a.1 a.2).filterMap (Call.arrowFrom? name) =
        if s.name = name then arrows else [] := by
    intro arrows
    rw [List.filterMap_map]
    split
    · next hname =>
        have hall : ∀ a ∈ arrows,
            (Call.arrowFrom? name ∘ fun a => Call.edge s.name a.1 a.2) a = some a :=
          fun a _ => if_pos hname
        rw [List.filterMap_congr hall, List.filterMap_some]
    · next hname => exact List.filterMap_eq_nil_iff.mpr fun a _ => if_neg hname
  cases hr : s.rule with
  | none =>
      obtain rfl := Except.ok.inj ((edges_of_no_rule hr).symm.trans h)
      have hnone : s.arrows = [] := by
        unfold State.arrows
        rw [hr]
        rfl
      rw [hnone, ite_self]
      rfl
  | some r =>
      obtain ⟨thens, harrows⟩ := exists_arrows_of_edges hr h
      obtain rfl := Except.ok.inj ((edges_of_arrows hr harrows).symm.trans h)
      rw [arrows_of_rule hr harrows]
      exact hleave _

/-- In a complete drawing, the edges that leave a node are drawn with the states of
that name. -/
theorem Diagram.arrowsFrom_ofStates {states : List State}
    (h : (ofStates states).failure = none) (name : String) :
    (ofStates states).arrowsFrom name =
      states.flatMap fun s => if s.name = name then s.arrows else [] := by
  induction states with
  | nil => rfl
  | cons s rest ih =>
      have hall := failure_ofStates_eq_none_iff.mp h
      obtain ⟨⟨edges, hedges⟩, hrest⟩ := List.forall_mem_cons.mp hall
      have hcalls : (ofStates (s :: rest)).calls =
          s.node :: edges ++ (ofStates rest).calls := by
        rw [ofStates, hedges]
      have htail : (ofStates rest).calls.filterMap (Call.arrowFrom? name) =
          rest.flatMap fun s => if s.name = name then s.arrows else [] :=
        ih (failure_ofStates_eq_none_iff.mpr hrest)
      have hnode : Call.arrowFrom? name s.node = none := rfl
      unfold Drawing.arrowsFrom
      rw [hcalls, List.filterMap_append, List.filterMap_cons_none hnode, htail,
        State.filterMap_arrowFrom?_edges hedges, List.flatMap_cons]

/-- **The edges that leave a state of a drawn machine are its own.** -/
theorem Machine.arrowsFrom_draw {m : Machine} (h : m.draw.failure = none) {s : State}
    (hs : s ∈ m.states) : m.draw.arrowsFrom s.name = s.arrows := by
  have hothers : ∀ t : State, t.name ≠ s.name →
      (if t.name = s.name then t.arrows else []) = [] := fun t ht => if_neg ht
  unfold Machine.draw at h ⊢
  -- names are distinct, so that no other state draws edges from this node
  rw [arrowsFrom_ofStates h, flatMap_states_of_mem hs hothers, if_pos rfl]

/-! ### Edges against rows -/

section Rows

variable {state : String} {o : Output} {r : Rule} {rows : List Row}

/-- A single target is the target of every row. -/
theorem target_of_single (h : expand state o (some r) = .ok rows) {t : String}
    (ht : r.targets.values = [t]) : ∀ row ∈ rows, row.target = some t := by
  intro row hrow
  obtain ⟨i, -, hcase⟩ := exists_isCase_of_mem h hrow
  have hlength : r.targets.length = 1 := List.length_eq_one_iff.mpr ⟨t, ht⟩
  rw [hcase.target, Option.bind_some, Cases.textAt_eq, if_pos hlength, ht]
  rfl

/-- **Several targets are drawn row by row**: the edges are the targets of the rows,
each labelled with the condition of its row. -/
theorem arrows_eq_rows (h : expand state o (some r) = .ok rows)
    {thens : List (String × String)} (harrows : r.arrows = some thens)
    (hlength : r.targets.length ≠ 1) :
    thens.map (fun a => (some a.1, a.2)) =
      rows.map fun row => (row.target, row.condition) := by
  have hfits := fits_of_expand h
  have htargets : r.targets.values.length = rows.length :=
    (hfits.targets r rfl).resolve_left hlength
  rw [Rule.arrows_of_length_ne_one hlength] at harrows
  split at harrows
  case isFalse => cases harrows
  case isTrue hpaired =>
    obtain rfl := Option.some.inj harrows
    have hconditions : r.conditions.values.length = rows.length :=
      hpaired.symm.trans htargets
    -- as neither part is repeated, case `i` has the `i`-th text of both
    refine List.ext_getElem (by simp [htargets, hconditions]) fun i hleft hright => ?_
    rw [List.length_map] at hright
    have hcase := isCase_of_expand h i hright
    have htarget : rows[i].target = r.targets.values[i]? := by
      rw [hcase.target, Option.bind_some, Cases.textAt_eq, if_neg hlength]
    have hcondition : r.conditions.values[i]? = some rows[i].condition := by
      have hne : r.conditions.length ≠ 1 := fun hone => hlength (hpaired.trans hone)
      have htext : r.conditions.textAt i = some rows[i].condition := hcase.condition
      rw [Cases.textAt_eq, if_neg hne] at htext
      exact htext
    obtain ⟨hi, hcondition⟩ := List.getElem?_eq_some_iff.mp hcondition
    rw [List.getElem_map, List.getElem_map, List.getElem_zip, htarget, ← hcondition,
      List.getElem?_eq_getElem]

end Rows

/-- **A diagram shows the transitions that the code assigns.**  Let a machine compile
and be drawn, and take a state with a rule.  The text of the machine are the blocks of
its states, joined; the block of the state is the layout of a program, and the edges
are the then-edges, followed by one edge to the else target if there is one.
A single target has one then-edge, with the label of the rule, and is the target of
every row; otherwise the then-edges are the targets and conditions of the rows, in
order.  The else target is set in an else body of each row that is guarded, and of no
other row.  Hence the edges lead to the next states that the code assigns, and to the
else target also where no row is guarded and no row has that target. -/
theorem diagram_shows_assigned_transitions (m : Machine) (e : Emitter) (text : String)
    (hcompile : m.compile e = .ok text) (hdraw : m.draw.failure = none) (s : State)
    (hs : s ∈ m.states) (r : Rule) (hr : s.rule = some r) :
    ∃ blocks : List (List String),
      List.Forall₂ (fun s lines => s.block e = .ok lines) m.states blocks ∧
      text = "\n".intercalate blocks.flatten ∧
      ∃ (rows : List Row) (p : Program) (thens : List (String × String)),
        expand s.name s.output s.rule = .ok rows ∧ s.program e = .ok p ∧
        s.block e = .ok ((e.stateRegister ++ "." ++ s.name ++ ":") ::
          (p.outline e.stateRegister).map e.indented) ∧
        (∀ t, r.targets.values = [t] →
          thens = [(t, r.shownLabel)] ∧ ∀ row ∈ rows, row.target = some t) ∧
        (r.targets.length ≠ 1 →
          thens.map (fun a => (some a.1, a.2)) =
            rows.map fun row => (row.target, row.condition)) ∧
        (r.elseTarget = none →
          m.draw.arrowsFrom s.name = thens ∧ p.elseBodies = []) ∧
        (∀ t, r.elseTarget = some t →
          (∃ label, r.shownInverse = some label ∧
            m.draw.arrowsFrom s.name = thens ++ [(t, label)]) ∧
          p.elseBodies = (rows.filter fun row => row.condition ≠ always).map fun row =>
            (row.condition, row.body (some t))) ∧
        (∀ t ∈ p.nextStates, t ∈ (m.draw.arrowsFrom s.name).map Prod.fst) ∧
        ∀ t ∈ (m.draw.arrowsFrom s.name).map Prod.fst,
          (t ∉ p.nextStates ↔
            r.elseTarget = some t ∧ (∀ row ∈ rows, row.condition = always) ∧
              t ∉ thens.map Prod.fst) := by
  obtain ⟨blocks, hall, hjoin⟩ := Machine.compile_eq_ok_iff_blocks.mp hcompile
  obtain ⟨rows, hrows⟩ := Machine.exists_compile_ok_iff.mp ⟨text, hcompile⟩ s hs
  obtain ⟨edges, hedges⟩ := failure_ofStates_eq_none_iff.mp hdraw s hs
  obtain ⟨thens, harrows⟩ := State.exists_arrows_of_edges hr hedges
  have hexpand : expand s.name s.output (some r) = .ok rows := hr ▸ hrows
  have hdrawn : m.draw.arrowsFrom s.name = s.arrows := Machine.arrowsFrom_draw hdraw hs
  have harrow : s.arrows = thens ++ r.elseArrow.toList := State.arrows_of_rule hr harrows
  have hnext : ∀ t, t ∈ (Program.ofRows e.readMarker s.elseTarget rows).nextStates ↔
      t ∈ r.targets.values ∨ r.elseTarget = some t ∧ ∃ row ∈ rows, row.condition ≠ always :=
    fun t => State.mem_nextStates_iff hr hrows
  rw [hdrawn]
  refine ⟨blocks, hall, hjoin, rows, Program.ofRows e.readMarker s.elseTarget rows, thens,
    hrows, State.program_of_rows e hrows, State.block_of_rows e hrows, ?_,
    arrows_eq_rows hexpand harrows, ?_, ?_, ?_, ?_⟩
  · intro t ht
    rw [Rule.arrows_of_single ht] at harrows
    exact ⟨(Option.some.inj harrows).symm, target_of_single hexpand ht⟩
  · intro helse
    rw [harrow, Rule.elseArrow_of_none helse, State.elseTarget_of_rule hr, helse]
    exact ⟨List.append_nil _, elseBodies_ofRows_none _ _⟩
  · intro t helse
    obtain ⟨label, hlabel, hother⟩ := Rule.elseArrow_of_some helse
    rw [harrow, hother, State.elseTarget_of_rule hr, helse]
    exact ⟨⟨label, hlabel, rfl⟩, elseBodies_ofRows_some _ _ _⟩
  · intro t ht
    rw [State.mem_map_fst_arrows hr harrows]
    rcases (hnext t).mp ht with htarget | ⟨helse, -⟩
    · exact Or.inl htarget
    · exact Or.inr helse
  · intro t ht
    rw [State.mem_map_fst_arrows hr harrows] at ht
    rw [hnext, Rule.map_fst_arrows harrows]
    constructor
    · -- an edge to anything but a target is the else edge
      intro hmissing
      push Not at hmissing
      obtain ⟨htarget, hguarded⟩ := hmissing
      have helse := ht.resolve_left htarget
      exact ⟨helse, hguarded helse, htarget⟩
    · rintro ⟨-, halways, htarget⟩ (hin | ⟨-, row, hrow, hguarded⟩)
      · exact htarget hin
      · exact hguarded (halways row hrow)

/-- A state that always goes on, and has an else target all the same. -/
def detouring : State where
  name := "SKIP"
  output := Output.empty.drive .finished (.single "1")
  rule := some ((Rule.always "NEXT").orElse "RETRY")

/-- A state with two guarded rows, and one whose else target is not reached. -/
def placingDetour : Machine := Machine.ofStates [placing, detouring]

/-- The else edge of `detouring` is drawn, and its code never goes there. -/
theorem diagram_of_placingDetour :
    (∃ text, placingDetour.compile .standard = .ok text) ∧
      placingDetour.draw.failure = none ∧
      ∃ p : Program,
        detouring.program .standard = .ok p ∧
        "RETRY" ∈ (placingDetour.draw.arrowsFrom "SKIP").map Prod.fst ∧
        "RETRY" ∉ p.nextStates ∧ "NEXT" ∈ p.nextStates := by
  have hcompile : ∃ text, placingDetour.compile .standard = .ok text := ⟨_, rfl⟩
  have hdraw : placingDetour.draw.failure = none := rfl
  have hmem : detouring ∈ placingDetour.states := by decide
  refine ⟨hcompile, hdraw, ?_⟩
  obtain ⟨text, htext⟩ := hcompile
  obtain ⟨-, -, -, rows, p, thens, hrows, hprogram, -, hsingle, -, -, hbranch, -, hmissing⟩ :=
    diagram_shows_assigned_transitions placingDetour .standard text htext hdraw detouring hmem _
      rfl
  obtain ⟨rfl, -⟩ := hsingle "NEXT" rfl
  obtain ⟨⟨label, -, harrows⟩, -⟩ := hbranch "RETRY" rfl
  have hedges : (placingDetour.draw.arrowsFrom "SKIP").map Prod.fst = ["NEXT", "RETRY"] :=
    congrArg (List.map Prod.fst) harrows
  have hretry : "RETRY" ∈ (placingDetour.draw.arrowsFrom "SKIP").map Prod.fst := by
    rw [hedges]
    decide
  have hnext : "NEXT" ∈ (placingDetour.draw.arrowsFrom "SKIP").map Prod.fst := by
    rw [hedges]
    decide
  have halways : rows = [⟨always, [(.finished, "1")], some "NEXT"⟩] :=
    Except.ok.inj (hrows.symm.trans rfl)
  refine ⟨p, hprogram, hretry, (hmissing "RETRY" hretry).mpr ⟨rfl, ?_, by decide⟩, ?_⟩
  · simp [halways]
  · by_contra hno
    exact ((hmissing "NEXT" hnext).mp hno).2.2 (by decide)

end Sequencer
