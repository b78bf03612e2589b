import Sequencer.Proofs.Blocks
import Sequencer.Proofs.Drawing
import Sequencer.Targets

/-!
# Machines that behave alike

Code is made from the name, the rows and the else target of each state, and the target
check looks at the names that the rules refer to.  States that agree in these *behave
alike*, whatever else they hold, and machines of such states have the same code and the
same reports.  Drawings show more of a machine; they are compared through a view of
their calls.

Two changes to a machine are shown to be of this kind.  Labels appear in drawings, as
texts, and nowhere else: two machines that differ in labels only are drawn with the
same nodes and edges.  An else target with the empty name counts as none: a rule that
has one, as it may be read from a file, cannot be told from the rule that is built from
its parts, and that rule has none.

## Main Definitions

* `State.Alike`, `Machine.Alike` — agreement in what code and reports are made from.
* `Diagram.Call.bare` — a call without its label.
* `State.unlabelled` — a state without labels.
* `Rule.IsBuilt`, `Rule.rebuilt` — rules made step by step, and a rule made again.

## Main Results

* `Machine.Alike.compile_eq`, `Machine.Alike.dangling_eq` — code and reports.
* `Diagram.view_ofStates` — drawings through a view of their calls.
* `State.edges_bare` — the edges of a state without their labels.
* `Rule.isBuilt_iff` — which rules are made step by step.
* `labels_are_cosmetic`, `rebuilt_rules_behave_alike` — the two changes.
-/

namespace Sequencer

open Diagram

/-! ### Code and reports -/

namespace State

/-- Two states that agree in what code is made from and in what the target check looks
at. -/
structure Alike (s t : State) : Prop where
  name : s.name = t.name
  rows : s.rows = t.rows
  elseTarget : s.elseTarget = t.elseTarget
  targets : s.rule.map Rule.targetsByKind = t.rule.map Rule.targetsByKind

variable {s t u : State}

theorem Alike.symm (h : s.Alike t) : t.Alike s :=
  ⟨h.name.symm, h.rows.symm, h.elseTarget.symm, h.targets.symm⟩

theorem Alike.trans (h : s.Alike t) (h' : t.Alike u) : s.Alike u :=
  ⟨h.name.trans h'.name, h.rows.trans h'.rows, h.elseTarget.trans h'.elseTarget,
    h.targets.trans h'.targets⟩

theorem Alike.block_eq (h : s.Alike t) (e : Emitter) : s.block e = t.block e := by
  rw [block_eq_map, block_eq_map, h.name, h.rows, h.elseTarget]

theorem Alike.dangling_eq (h : s.Alike t) (known : String → Bool) :
    s.dangling known = t.dangling known := by
  have hreports : ∀ v : State, v.dangling known =
      (v.rule.map Rule.targetsByKind).elim [] fun targets =>
        (targets.filter fun p => !known p.1).map fun p => ⟨v.name, p.1, p.2⟩ := by
    intro v
    unfold dangling
    cases v.rule <;> rfl
  rw [hreports, hreports, h.name, h.targets]

theorem flatMap_dangling_eq {ss ts : List State} (h : List.Forall₂ Alike ss ts)
    (known : String → Bool) : ss.flatMap (dangling known) = ts.flatMap (dangling known) := by
  induction h with
  | nil => rfl
  | cons hst _ ih => rw [List.flatMap_cons, List.flatMap_cons, hst.dangling_eq, ih]

end State

/-- A traversal does not tell apart what its steps do not tell apart. -/
theorem mapM_eq_of_forall₂ {ε α β : Type} {f : α → Except ε β} {xs ys : List α}
    (h : List.Forall₂ (fun x y => f x = f y) xs ys) : xs.mapM f = ys.mapM f := by
  induction h with
  | nil => rfl
  | cons hxy _ ih => rw [List.mapM_cons, List.mapM_cons, hxy, ih]

namespace Machine

/-- Two machines whose states behave alike, one by one. -/
def Alike (m m' : Machine) : Prop := List.Forall₂ State.Alike m.states m'.states

variable {m m' : Machine}

/-- **Machines that behave alike have the same code**, or fail with the same error. -/
theorem Alike.compile_eq (h : m.Alike m') (e : Emitter) : m.compile e = m'.compile e := by
  have hblocks : m.states.mapM (State.block e) = m'.states.mapM (State.block e) :=
    mapM_eq_of_forall₂ (h.imp fun s t hst => hst.block_eq e)
  rw [compile_eq_map, compile_eq_map, hblocks]

theorem Alike.names_eq (h : m.Alike m') : m.names = m'.names := by
  unfold names
  rw [← List.forall₂_eq_eq_eq, List.forall₂_map_left_iff, List.forall₂_map_right_iff]
  exact h.imp fun s t hst => hst.name

theorem Alike.contains_eq (h : m.Alike m') : m.contains = m'.contains := by
  funext name
  rw [Bool.eq_iff_iff, contains_iff, contains_iff, h.names_eq]

/-- **Machines that behave alike have the same reports.** -/
theorem Alike.dangling_eq (h : m.Alike m') : m.dangling = m'.dangling := by
  unfold dangling
  rw [h.contains_eq]
  exact State.flatMap_dangling_eq h m'.contains

theorem Alike.isClosed_eq (h : m.Alike m') : m.isClosed = m'.isClosed := by
  unfold isClosed
  rw [h.dangling_eq]

end Machine

/-! ### Drawings through a view -/

/-- **Drawings look the same through a view** of their calls if the nodes and the edges
of the states do, one by one; and they fail alike. -/
theorem Diagram.view_ofStates {β : Type} (view : Call → β) {ss ts : List State}
    (h : List.Forall₂ (fun s t => view s.node = view t.node ∧
      s.edges.map (List.map view) = t.edges.map (List.map view)) ss ts) :
    (ofStates ss).calls.map view = (ofStates ts).calls.map view ∧
      (ofStates ss).failure = (ofStates ts).failure := by
  induction h with
  | nil => exact ⟨rfl, rfl⟩
  | @cons s t ss ts hst _ ih =>
      obtain ⟨hnode, hedges⟩ := hst
      obtain ⟨hcalls, hfailure⟩ := ih
      rw [ofStates, ofStates]
      cases hs : s.edges with
      | error err =>
          cases ht : t.edges with
          | error err' =>
              rw [hs, ht] at hedges
              obtain rfl : err = err' := Except.error.inj hedges
              exact ⟨congrArg (fun b => [b]) hnode, rfl⟩
          | ok edges' =>
              rw [hs, ht] at hedges
              cases hedges
      | ok edges =>
          cases ht : t.edges with
          | error err' =>
              rw [hs, ht] at hedges
              cases hedges
          | ok edges' =>
              rw [hs, ht] at hedges
              have hview : edges.map view = edges'.map view := Except.ok.inj hedges
              simp [hnode, hview, hcalls, hfailure]

/-! ### Labels -/

/-- A call without its label: the name of a node, or the two ends of an edge. -/
def Diagram.Call.bare : Call → String × Option String
  | .node name _ => (name, none)
  | .edge source target _ => (source, some target)

/-- The else arrow leads to the else target. -/
theorem Rule.elseArrow_fst (r : Rule) : r.elseArrow.map Prod.fst = r.elseTarget := by
  cases helse : r.elseTarget with
  | none => rw [Rule.elseArrow_of_none helse, Option.map_none]
  | some t =>
      obtain ⟨label, -, harrow⟩ := Rule.elseArrow_of_some helse
      rw [harrow, Option.map_some]

/-- **Without their labels, the edges of a state lead to the names that its rule refers
to.**  Whether there are any is a matter of the numbers of targets and conditions. -/
theorem State.edges_bare (s : State) :
    s.edges.map (List.map Call.bare) =
      s.rule.elim (.ok []) fun r =>
        if r.Unpaired then
          .error ⟨s.name, r.conditions.length, r.targets.length⟩
        else .ok (r.references.map fun t => (s.name, some t)) := by
  cases hr : s.rule with
  | none =>
      rw [State.edges_of_no_rule hr]
      rfl
  | some r =>
      rw [Option.elim_some]
      cases harrows : r.arrows with
      | none =>
          rw [State.edges_of_no_arrows hr harrows, if_pos (Rule.arrows_eq_none_iff.mp harrows)]
          rfl
      | some thens =>
          have hdrawn : ¬ r.Unpaired := by
            rw [← Rule.arrows_eq_none_iff, harrows]
            simp
          have hthens : r.references = (thens ++ r.elseArrow.toList).map Prod.fst := by
            rw [Rule.references, List.map_append, Rule.map_fst_arrows harrows,
              ← r.elseArrow_fst]
            cases r.elseArrow <;> rfl
          rw [State.edges_of_arrows hr harrows, if_neg hdrawn, hthens]
          show Except.ok _ = Except.ok _
          rw [List.map_map, List.map_map]
          rfl

/-- A rule without labels. -/
def Rule.unlabelled (r : Rule) : Rule := { r with label := none, inverseLabel := none }

/-- An output without labels. -/
def Output.unlabelled (o : Output) : Output := { o with labels := .empty }

namespace State

/-- A state without labels, both those of its output and those of its rule. -/
def unlabelled (s : State) : State :=
  { s with output := s.output.unlabelled, rule := s.rule.map Rule.unlabelled }

/-- Labels reach neither the code of a state nor the reports about it. -/
theorem alike_unlabelled (s : State) : s.Alike s.unlabelled := by
  obtain ⟨name, output, rule⟩ := s
  cases rule <;> exact ⟨rfl, rfl, rfl, rfl⟩

/-- Labels decide neither where the edges of a state lead nor whether it has any. -/
theorem edges_unlabelled (s : State) :
    s.unlabelled.edges.map (List.map Call.bare) = s.edges.map (List.map Call.bare) := by
  rw [edges_bare, edges_bare]
  obtain ⟨name, output, rule⟩ := s
  cases rule <;> rfl

variable {s t : State}

theorem alike_of_unlabelled (h : s.unlabelled = t.unlabelled) : s.Alike t := by
  have ht := t.alike_unlabelled.symm
  rw [← h] at ht
  exact s.alike_unlabelled.trans ht

theorem view_of_unlabelled (h : s.unlabelled = t.unlabelled) :
    s.node.bare = t.node.bare ∧
      s.edges.map (List.map Call.bare) = t.edges.map (List.map Call.bare) := by
  refine ⟨congrArg (·, none) (alike_of_unlabelled h).name, ?_⟩
  rw [← edges_unlabelled, h, edges_unlabelled]

end State

/-- A drawing that does not look at labels cannot tell apart calls that differ in
labels only. -/
theorem Diagram.foldl_feed_eq_of_bare {σ : Type} {feed : σ → Call → σ}
    (hblind : ∀ sink c c', c.bare = c'.bare → feed sink c = feed sink c')
    {calls calls' : List Call} (h : calls.map Call.bare = calls'.map Call.bare) (sink : σ) :
    calls.foldl feed sink = calls'.foldl feed sink := by
  rw [← List.forall₂_eq_eq_eq, List.forall₂_map_left_iff, List.forall₂_map_right_iff] at h
  induction h generalizing sink with
  | nil => rfl
  | cons hc _ ih => rw [List.foldl_cons, List.foldl_cons, hblind sink _ _ hc, ih]

/-- **Labels are cosmetic.**  Take two machines that are the same once all labels are
left out.  They compile to the same code, or fail with the same error, under all
settings; the target check has the same reports about them; and drawing them makes the
same calls but for labels and ends in the same way.  A drawing of any kind that does
not look at labels comes out the same. -/
theorem labels_are_cosmetic (m m' : Machine)
    (h : m.states.map State.unlabelled = m'.states.map State.unlabelled) :
    (∀ e : Emitter, m.compile e = m'.compile e) ∧
    m.dangling = m'.dangling ∧ m.isClosed = m'.isClosed ∧
    m.draw.failure = m'.draw.failure ∧
    m.draw.calls.map Call.bare = m'.draw.calls.map Call.bare ∧
    ∀ (σ : Type) (feed : σ → Call → σ) (sink : σ),
      (m.drawInto feed sink).2 = (m'.drawInto feed sink).2 ∧
      ((∀ sink c c', c.bare = c'.bare → feed sink c = feed sink c') →
        m.drawInto feed sink = m'.drawInto feed sink) := by
  rw [← List.forall₂_eq_eq_eq, List.forall₂_map_left_iff, List.forall₂_map_right_iff] at h
  have halike : m.Alike m' := h.imp fun s t hst => State.alike_of_unlabelled hst
  obtain ⟨hcalls, hfailure⟩ :=
    view_ofStates Call.bare (h.imp fun s t hst => State.view_of_unlabelled hst)
  refine ⟨halike.compile_eq, halike.dangling_eq, halike.isClosed_eq, hfailure, hcalls,
    fun σ feed sink => ⟨hfailure, fun hblind => ?_⟩⟩
  exact Prod.ext (foldl_feed_eq_of_bare hblind hcalls sink) hfailure

/-- The state `placing` with a label for its output and for both kinds of its edges. -/
def placingLabelled : State where
  name := "PLACE"
  output := placing.output.label .readB "either register"
  rule := placing.rule.map fun r => (r.withLabel "placed").withInverseLabel "occupied"

/-- Labels change what is drawn, here up to a state that cannot be drawn, and nothing
else. -/
theorem placingLabelled_is_cosmetic :
    Machine.draw (.ofStates [placingLabelled, fanning]) ≠
        Machine.draw (.ofStates [placing, fanning]) ∧
      (∀ e : Emitter, Machine.compile (.ofStates [placingLabelled, fanning]) e =
        Machine.compile (.ofStates [placing, fanning]) e) ∧
      Machine.dangling (.ofStates [placingLabelled, fanning]) =
        Machine.dangling (.ofStates [placing, fanning]) ∧
      (Machine.draw (.ofStates [placingLabelled, fanning])).failure = some ⟨"SIZE", 1, 2⟩ := by
  have hunlabelled : (Machine.ofStates [placingLabelled, fanning]).states.map State.unlabelled =
      (Machine.ofStates [placing, fanning]).states.map State.unlabelled := rfl
  obtain ⟨hcompile, hdangling, -, hfailure, -⟩ := labels_are_cosmetic _ _ hunlabelled
  exact ⟨by decide, hcompile, hdangling, hfailure⟩

/-! ### Else targets without a name -/

namespace Rule

/-- The rules that are made step by step: from conditions and targets, as a rule that
always applies or as a branch, and then by setting the else target and the labels any
number of times. -/
inductive IsBuilt : Rule → Prop
  | plain (conditions targets : Cases) : IsBuilt { conditions, targets }
  | always (target : String) : IsBuilt (Rule.always target)
  | branch (conditions targets : Cases) (otherwise : String) :
      IsBuilt (Rule.branch conditions targets otherwise)
  | orElse {r : Rule} (h : IsBuilt r) (target : String) : IsBuilt (r.orElse target)
  | withLabel {r : Rule} (h : IsBuilt r) (label : String) : IsBuilt (r.withLabel label)
  | withInverseLabel {r : Rule} (h : IsBuilt r) (label : String) :
      IsBuilt (r.withInverseLabel label)

/-- A rule made again from its parts, step by step; labels and else target are set if the
rule has them. -/
def rebuilt (r : Rule) : Rule :=
  let start : Rule := { conditions := r.conditions, targets := r.targets }
  let branching := r.otherwise.elim start start.orElse
  let labelled := r.label.elim branching branching.withLabel
  r.inverseLabel.elim labelled labelled.withInverseLabel

/-- Setting the else target never stores the empty name. -/
theorem otherwise_orElse_ne (r : Rule) (target : String) :
    (r.orElse target).otherwise ≠ some "" := by
  unfold orElse
  split
  · exact nofun
  · next hname => exact fun h => hname (Option.some.inj h)

/-- Rules that are made step by step have no else target with the empty name. -/
theorem IsBuilt.otherwise_ne {r : Rule} (h : r.IsBuilt) : r.otherwise ≠ some "" := by
  induction h with
  | plain conditions targets => exact nofun
  | always target => exact nofun
  | branch conditions targets otherwise => exact otherwise_orElse_ne _ otherwise
  | orElse _ target => exact otherwise_orElse_ne _ target
  | withLabel _ _ ih => exact ih
  | withInverseLabel _ _ ih => exact ih

theorem isBuilt_rebuilt (r : Rule) : r.rebuilt.IsBuilt := by
  obtain ⟨conditions, targets, otherwise, label, inverse⟩ := r
  have hstart : IsBuilt { conditions, targets } := .plain conditions targets
  have hbranching : ∀ start : Rule, start.IsBuilt →
      (otherwise.elim start start.orElse).IsBuilt := by
    intro start h
    cases otherwise with
    | none => exact h
    | some target => exact h.orElse target
  have hlabelled : ∀ start : Rule, start.IsBuilt →
      (label.elim start start.withLabel).IsBuilt := by
    intro start h
    cases label with
    | none => exact h
    | some text => exact h.withLabel text
  have hinverse : ∀ start : Rule, start.IsBuilt →
      (inverse.elim start start.withInverseLabel).IsBuilt := by
    intro start h
    cases inverse with
    | none => exact h
    | some text => exact h.withInverseLabel text
  exact hinverse _ (hlabelled _ (hbranching _ hstart))

/-- **Rebuilding keeps all of a rule but an else target that does not count.** -/
theorem rebuilt_eq (r : Rule) : r.rebuilt = { r with otherwise := r.elseTarget } := by
  obtain ⟨conditions, targets, otherwise, label, inverse⟩ := r
  have hbranching : ∀ start : Rule, start.otherwise = none →
      otherwise.elim start start.orElse =
        { start with otherwise := otherwise.filter (· ≠ "") } := by
    intro start h
    cases otherwise with
    | none => rw [Option.elim_none, Option.filter_none, ← h]
    | some target => by_cases hname : target = "" <;> simp [orElse, Option.filter, hname]
  unfold rebuilt
  dsimp only
  rw [hbranching _ rfl]
  cases label <;> cases inverse <;> rfl

theorem elseTarget_eq_otherwise_iff (r : Rule) :
    r.elseTarget = r.otherwise ↔ r.otherwise ≠ some "" := by
  unfold elseTarget
  cases r.otherwise with
  | none => simp
  | some target => by_cases hname : target = "" <;> simp [hname]

theorem rebuilt_eq_self_iff (r : Rule) : r.rebuilt = r ↔ r.otherwise ≠ some "" := by
  rw [← elseTarget_eq_otherwise_iff, rebuilt_eq]
  constructor
  · exact fun h => congrArg Rule.otherwise h
  · intro h
    rw [h]

/-- **The rules that are made step by step** are those without an else target that has
the empty name. -/
theorem isBuilt_iff (r : Rule) : r.IsBuilt ↔ r.otherwise ≠ some "" := by
  refine ⟨IsBuilt.otherwise_ne, fun h => ?_⟩
  rw [← r.rebuilt_eq_self_iff.mpr h]
  exact r.isBuilt_rebuilt

@[simp] theorem elseTarget_rebuilt (r : Rule) : r.rebuilt.elseTarget = r.elseTarget := by
  rw [(elseTarget_eq_otherwise_iff _).mpr r.isBuilt_rebuilt.otherwise_ne, rebuilt_eq]

theorem arrows_rebuilt (r : Rule) : r.rebuilt.arrows = r.arrows := by
  rw [rebuilt_eq]
  rfl

theorem shownInverse_rebuilt (r : Rule) : r.rebuilt.shownInverse = r.shownInverse := by
  unfold shownInverse
  rw [elseTarget_rebuilt, rebuilt_eq]
  rfl

theorem elseArrow_rebuilt (r : Rule) : r.rebuilt.elseArrow = r.elseArrow := by
  unfold elseArrow
  rw [elseTarget_rebuilt, shownInverse_rebuilt]

theorem targetsByKind_rebuilt (r : Rule) : r.rebuilt.targetsByKind = r.targetsByKind := by
  unfold targetsByKind
  rw [elseTarget_rebuilt, rebuilt_eq]

end Rule

namespace State

/-- A state with its rule rebuilt. -/
def rebuilt (s : State) : State := { s with rule := s.rule.map Rule.rebuilt }

theorem alike_rebuilt (s : State) : s.rebuilt.Alike s := by
  obtain ⟨name, output, rule⟩ := s
  cases rule with
  | none => exact ⟨rfl, rfl, rfl, rfl⟩
  | some r =>
      have hrows : expand name output (some r.rebuilt) = expand name output (some r) := by
        rw [Rule.rebuilt_eq]
        rfl
      exact ⟨rfl, hrows, r.elseTarget_rebuilt, congrArg some r.targetsByKind_rebuilt⟩

theorem edges_rebuilt (s : State) : s.rebuilt.edges = s.edges := by
  obtain ⟨name, output, rule⟩ := s
  cases rule with
  | none => rfl
  | some r =>
      have hlengths : r.rebuilt.conditions = r.conditions ∧ r.rebuilt.targets = r.targets := by
        rw [Rule.rebuilt_eq]
        exact ⟨rfl, rfl⟩
      simp only [edges, rebuilt, Option.map_some, r.arrows_rebuilt, r.elseArrow_rebuilt, hlengths]

end State

/-- A machine with all its rules rebuilt. -/
def Machine.rebuilt (m : Machine) : Machine where
  states := m.states.map State.rebuilt
  nodup := by
    rw [List.map_map]
    exact m.nodup

theorem Machine.alike_rebuilt (m : Machine) : m.rebuilt.Alike m := by
  unfold Machine.Alike Machine.rebuilt
  rw [List.forall₂_map_left_iff, List.forall₂_same]
  exact fun s _ => s.alike_rebuilt

/-- Rebuilding the rules of a machine does not change its drawing. -/
theorem Machine.draw_rebuilt (m : Machine) : m.rebuilt.draw = m.draw := by
  have hview : List.Forall₂ (fun s t => id s.node = id t.node ∧
      s.edges.map (List.map id) = t.edges.map (List.map id)) m.rebuilt.states m.states := by
    unfold Machine.rebuilt
    rw [List.forall₂_map_left_iff, List.forall₂_same]
    exact fun s _ => ⟨rfl, by rw [s.edges_rebuilt]⟩
  obtain ⟨hcalls, hfailure⟩ := view_ofStates id hview
  rw [List.map_id, List.map_id] at hcalls
  exact congrArg₂ Drawing.mk hcalls hfailure

/-- **Rules from a file behave like rules that are built.**  A rule that is made step by
step never has an else target with the empty name.  A rule that has one, as it may be
read from a file, becomes one without else target when it is made again from its
parts, and every other rule stays as it is.  Rebuilding all rules of a machine changes
neither its code, nor what is drawn of it in a drawing of any kind, nor the reports of
the target check. -/
theorem rebuilt_rules_behave_alike :
    (∀ r : Rule, r.IsBuilt → r.otherwise ≠ some "") ∧
    (∀ r : Rule, r.rebuilt.IsBuilt ∧ (r.rebuilt = r ↔ r.otherwise ≠ some "")) ∧
    ∀ m : Machine,
      (∀ e : Emitter, m.rebuilt.compile e = m.compile e) ∧
      m.rebuilt.draw = m.draw ∧
      (∀ (σ : Type) (feed : σ → Call → σ) (sink : σ),
        m.rebuilt.drawInto feed sink = m.drawInto feed sink) ∧
      m.rebuilt.dangling = m.dangling ∧ m.rebuilt.isClosed = m.isClosed := by
  refine ⟨fun r h => h.otherwise_ne, fun r => ⟨r.isBuilt_rebuilt, r.rebuilt_eq_self_iff⟩,
    fun m => ⟨m.alike_rebuilt.compile_eq, m.draw_rebuilt, fun σ feed sink => ?_,
      m.alike_rebuilt.dangling_eq, m.alike_rebuilt.isClosed_eq⟩⟩
  unfold Machine.drawInto
  rw [m.draw_rebuilt]

/-- An else target that is set and then taken back. -/
theorem otherwise_of_branch_taken_back :
    (((Rule.branch (.single "go") (.single "NEXT") "RETRY").withLabel "on").orElse "").IsBuilt ∧
      (((Rule.branch (.single "go") (.single "NEXT") "RETRY").withLabel "on").orElse "").otherwise ≠
        some "" := by
  have hbuilt : (((Rule.branch (.single "go") (.single "NEXT") "RETRY").withLabel "on").orElse
      "").IsBuilt := .orElse (.withLabel (.branch _ _ _) _) _
  exact ⟨hbuilt, rebuilt_rules_behave_alike.1 _ hbuilt⟩

end Sequencer
