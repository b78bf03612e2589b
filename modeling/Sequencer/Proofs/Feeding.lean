import Sequencer.Proofs.Drawing

/-!
# What a drawing is fed

A machine is drawn state by state, and a state whose targets cannot be paired with its
conditions ends the drawing when its node has already been drawn.  This module says which
calls have then been made, whatever kind of drawing they are fed to.

What belongs to one state is described apart from how it is drawn (`State.sketch`), and it
is described for all states, also those that cannot be drawn as a whole.  A drawing is the
sketches of its states up to the first one that fails, and the node of that one.  Since a
sketch begins with its node, an edge never leaves any node but the last one.

## Main Definitions

* `State.Unpaired` — the state has a rule that cannot be drawn.
* `State.sketch` — the node of a state and its edges.
* `Diagram.lastNode?` — the last node among some calls.

## Main Results

* `Diagram.ofStates_of_paired`, `Diagram.ofStates_of_unpaired` — success and failure.
* `Diagram.ofStates_append` — one drawing after the other.
* `Diagram.lastNode?_of_edge` — edges leave the last node.
* `drawing_feeds_states_in_order` — all of it, for drawings of any kind.
-/

namespace Sequencer

open Diagram

/-! ### One state -/

/-- The names that a rule leads to, with labels: a single target has the label of the
rule, several targets have one condition each, and the else target has the inverse
label. -/
def Rule.leads (r : Rule) : List (String × String) :=
  (if r.targets.length = 1 then r.targets.values.map (·, r.shownLabel)
    else r.targets.values.zip r.conditions.values) ++
  r.elseTarget.toList.map (·, r.inverseLabel.getD r.derivedInverse)

/-- A rule that is not unpaired is drawn with all that it leads to. -/
theorem Rule.exists_arrows_of_paired {r : Rule} (h : ¬ r.Unpaired) :
    ∃ thens, r.arrows = some thens ∧ thens ++ r.elseArrow.toList = r.leads := by
  have helse : r.elseArrow.toList =
      r.elseTarget.toList.map (·, r.inverseLabel.getD r.derivedInverse) := by
    unfold elseArrow shownInverse
    cases r.elseTarget <;> rfl
  unfold leads
  rw [helse]
  by_cases hone : r.targets.length = 1
  · obtain ⟨t, ht⟩ := List.length_eq_one_iff.mp hone
    refine ⟨_, arrows_of_single ht, ?_⟩
    rw [if_pos hone, ht]
    rfl
  · have hlength : r.targets.length = r.conditions.length := by
      by_contra hne
      exact h ⟨hone, hne⟩
    refine ⟨r.targets.values.zip r.conditions.values, ?_, ?_⟩
    · rw [arrows_of_length_ne_one hone, if_pos hlength]
    · rw [if_neg hone]

namespace State

/-- The state has a rule that is unpaired. -/
def Unpaired (s : State) : Prop := ∃ r, s.rule = some r ∧ r.Unpaired

instance (s : State) : Decidable s.Unpaired :=
  decidable_of_iff (∃ r ∈ s.rule, r.Unpaired) Iff.rfl

/-- The edges that belong to a state. -/
def leaving (s : State) : List Call :=
  (s.rule.elim [] Rule.leads).map fun lead => .edge s.name lead.1 lead.2

/-- What belongs to a state: a node with its name above its output, and its edges. -/
def sketch (s : State) : List Call :=
  .node s.name (s.name ++ "\n" ++ s.output.text) :: s.leaving

theorem edges_of_paired {s : State} (h : ¬ s.Unpaired) : s.edges = .ok s.leaving := by
  unfold leaving
  cases hr : s.rule with
  | none => rw [edges_of_no_rule hr, Option.elim_none, List.map_nil]
  | some r =>
      obtain ⟨thens, harrows, hleads⟩ :=
        Rule.exists_arrows_of_paired fun hunpaired => h ⟨r, hr, hunpaired⟩
      rw [edges_of_arrows hr harrows, hleads, Option.elim_some]

theorem edges_of_unpaired {s : State} {r : Rule} (hr : s.rule = some r) (h : r.Unpaired) :
    s.edges = .error ⟨s.name, r.conditions.length, r.targets.length⟩ :=
  edges_of_no_arrows hr (Rule.arrows_eq_none_iff.mpr h)

/-- All edges of a state leave its own node. -/
theorem exists_edge_of_mem_leaving {s : State} {c : Call} (h : c ∈ s.leaving) :
    ∃ target label, c = .edge s.name target label := by
  obtain ⟨lead, -, rfl⟩ := List.mem_map.mp h
  exact ⟨lead.1, lead.2, rfl⟩

end State

/-! ### All states -/

namespace Diagram

/-- A state that is not unpaired is drawn as its sketch, and what follows it after that. -/
theorem ofStates_cons_of_paired {s : State} (h : ¬ s.Unpaired) (rest : List State) :
    ofStates (s :: rest) = ⟨s.sketch ++ (ofStates rest).calls, (ofStates rest).failure⟩ := by
  rw [ofStates, State.edges_of_paired h]
  rfl

/-- An unpaired state is drawn as its node, and nothing follows. -/
theorem ofStates_cons_of_unpaired {s : State} {r : Rule} (hr : s.rule = some r)
    (h : r.Unpaired) (rest : List State) :
    ofStates (s :: rest) = ⟨[.node s.name (s.name ++ "\n" ++ s.output.text)],
      some ⟨s.name, r.conditions.length, r.targets.length⟩⟩ := by
  rw [ofStates, State.edges_of_unpaired hr h]
  rfl

theorem failure_ofStates_cons_of_unpaired {s : State} (h : s.Unpaired) (rest : List State) :
    (ofStates (s :: rest)).failure ≠ none := by
  obtain ⟨r, hr, hr'⟩ := h
  rw [ofStates_cons_of_unpaired hr hr']
  exact Option.some_ne_none _

/-- **One drawing after the other**: the second one is drawn if the first one succeeds, and
makes no difference if not. -/
theorem ofStates_append (ss ts : List State) :
    ofStates (ss ++ ts) =
      if (ofStates ss).failure = none then
        ⟨(ofStates ss).calls ++ (ofStates ts).calls, (ofStates ts).failure⟩
      else ofStates ss := by
  induction ss with
  | nil => rfl
  | cons s ss ih =>
      by_cases h : s.Unpaired
      · rw [if_neg (failure_ofStates_cons_of_unpaired h ss)]
        obtain ⟨r, hr, hr'⟩ := h
        rw [List.cons_append, ofStates_cons_of_unpaired hr hr', ofStates_cons_of_unpaired hr hr']
      · rw [List.cons_append, ofStates_cons_of_paired h, ofStates_cons_of_paired h, ih]
        split
        · rw [List.append_assoc]
        · rfl

/-- **Without unpaired states, all sketches are drawn.** -/
theorem ofStates_of_paired {states : List State} (h : ∀ s ∈ states, ¬ s.Unpaired) :
    ofStates states = ⟨states.flatMap State.sketch, none⟩ := by
  induction states with
  | nil => rfl
  | cons s states ih =>
      obtain ⟨hs, hstates⟩ := List.forall_mem_cons.mp h
      rw [ofStates_cons_of_paired hs, ih hstates, List.flatMap_cons]

/-- **The first unpaired state ends the drawing** after its node. -/
theorem ofStates_of_unpaired {before after : List State} {s : State} {r : Rule}
    (hbefore : ∀ t ∈ before, ¬ t.Unpaired) (hr : s.rule = some r) (h : r.Unpaired) :
    ofStates (before ++ s :: after) =
      ⟨before.flatMap State.sketch ++ [.node s.name (s.name ++ "\n" ++ s.output.text)],
        some ⟨s.name, r.conditions.length, r.targets.length⟩⟩ := by
  rw [ofStates_append, ofStates_of_paired hbefore, if_pos rfl, ofStates_cons_of_unpaired hr h]

/-! ### Edges and nodes -/

/-- The name of a node. -/
def Call.nodeName? : Call → Option String
  | .node name _ => some name
  | .edge _ _ _ => none

/-- The name of the last node among some calls. -/
def lastNode? (calls : List Call) : Option String :=
  (calls.filterMap Call.nodeName?).getLast?

theorem lastNode?_append {calls calls' : List Call} {name : String}
    (h : lastNode? calls' = some name) : lastNode? (calls ++ calls') = some name := by
  unfold lastNode? at h ⊢
  rw [List.filterMap_append, List.getLast?_append, h]
  rfl

/-- The edges of a sketch leave its node, which is the only one. -/
theorem lastNode?_of_edge_sketch {s : State} {before after : List Call}
    {source target label : String}
    (h : s.sketch = before ++ .edge source target label :: after) :
    lastNode? before = some source := by
  cases before with
  | nil => cases h
  | cons c before =>
      obtain ⟨rfl, hleaving⟩ := List.cons.inj h
      have hmem : Call.edge source target label ∈ s.leaving := by
        rw [hleaving]
        exact List.mem_append_right before List.mem_cons_self
      have hsource : source = s.name := by
        obtain ⟨target', label', hedge⟩ := State.exists_edge_of_mem_leaving hmem
        exact (Call.edge.inj hedge).1
      have hnone : before.filterMap Call.nodeName? = [] := by
        rw [List.filterMap_eq_nil_iff]
        intro c hc
        have hmem : c ∈ s.leaving := hleaving ▸ List.mem_append_left _ hc
        obtain ⟨target', label', rfl⟩ := State.exists_edge_of_mem_leaving hmem
        rfl
      have hnode : Call.nodeName? (.node s.name (s.name ++ "\n" ++ s.output.text)) =
          some s.name := rfl
      unfold lastNode?
      rw [List.filterMap_cons_some hnode, hnone, hsource]
      rfl

/-- **An edge leaves the node that was drawn last.** -/
theorem lastNode?_of_edge {states : List State} {before after : List Call}
    {source target label : String}
    (h : (ofStates states).calls = before ++ .edge source target label :: after) :
    lastNode? before = some source := by
  induction states generalizing before with
  | nil => exact absurd h (by simp [ofStates])
  | cons s states ih =>
      by_cases hs : s.Unpaired
      · -- only a node is drawn
        obtain ⟨r, hr, hr'⟩ := hs
        rw [ofStates_cons_of_unpaired hr hr'] at h
        cases before <;> simp at h
      · rw [ofStates_cons_of_paired hs] at h
        rcases List.append_eq_append_iff.mp h with ⟨later, rfl, hlater⟩ | ⟨rest, hsketch, hrest⟩
        · exact lastNode?_append (ih hlater)
        · -- the edge is in the sketch, since no drawing begins with an edge
          cases rest with
          | nil => cases @ih [] hrest.symm
          | cons c rest =>
              obtain ⟨rfl, -⟩ := List.cons.inj hrest
              exact lastNode?_of_edge_sketch hsketch

/-! ### Drawings of any kind -/

/-- A drawing that keeps what it is fed has the calls at its end. -/
theorem seen_foldl_feed {σ : Type} {feed : σ → Call → σ} {seen : σ → List Call}
    (h : ∀ sink c, seen (feed sink c) = seen sink ++ [c]) (calls : List Call) (sink : σ) :
    seen (calls.foldl feed sink) = seen sink ++ calls := by
  induction calls generalizing sink with
  | nil => simp
  | cons c calls ih =>
      rw [List.foldl_cons, ih, h, List.append_assoc]
      rfl

end Diagram

/-- **A drawing is fed the states in order, up to the first one that fails.**  Where every
rule has a single target or one for each condition, the drawing is fed the sketches of
all states and succeeds.  Otherwise it is fed the sketches of the states before the first
one whose rule is unpaired, and the node of that one, and the error has its name and its
two numbers.

What a drawing was fed before stays in front.  Each edge leaves the node that was drawn
last.  If the states of another machine with new names are registered after those of the
first, they are drawn after them if the first machine can be drawn, and have no influence
if it cannot. -/
theorem drawing_feeds_states_in_order (m : Machine) {σ : Type} (feed : σ → Call → σ)
    (sink : σ) :
    ((∀ s ∈ m.states, ¬ s.Unpaired) →
      m.drawInto feed sink = ((m.states.flatMap State.sketch).foldl feed sink, none)) ∧
    (∀ before s after r, m.states = before ++ s :: after → (∀ t ∈ before, ¬ t.Unpaired) →
      s.rule = some r → r.Unpaired →
        m.drawInto feed sink =
          ((before.flatMap State.sketch ++
              [.node s.name (s.name ++ "\n" ++ s.output.text)]).foldl feed sink,
            some ⟨s.name, r.conditions.length, r.targets.length⟩)) ∧
    (∀ seen : σ → List Call, (∀ sink c, seen (feed sink c) = seen sink ++ [c]) →
      seen (m.drawInto feed sink).1 = seen sink ++ m.draw.calls) ∧
    (∀ earlier before source target label after,
      m.draw.calls = before ++ .edge source target label :: after →
        lastNode? (earlier ++ before) = some source) ∧
    ∀ m' : Machine, (∀ s ∈ m'.states, s.name ∉ m.names) →
      (m'.states.foldl Machine.add m).drawInto feed sink =
        if (m.drawInto feed sink).2 = none then m'.drawInto feed (m.drawInto feed sink).1
        else m.drawInto feed sink := by
  refine ⟨?_, ?_, ?_, ?_, ?_⟩
  · intro hpaired
    unfold Machine.drawInto Machine.draw
    rw [ofStates_of_paired hpaired]
  · intro before s after r hsplit hbefore hr hunpaired
    unfold Machine.drawInto Machine.draw
    rw [hsplit, ofStates_of_unpaired hbefore hr hunpaired]
  · intro seen hseen
    exact seen_foldl_feed hseen m.draw.calls sink
  · intro earlier before source target label after hcalls
    exact lastNode?_append (lastNode?_of_edge hcalls)
  · intro m' hnew
    have hstates : (m'.states.foldl Machine.add m).states = m.states ++ m'.states :=
      Machine.states_foldl_add m'.nodup hnew
    unfold Machine.drawInto Machine.draw
    rw [hstates, ofStates_append]
    split
    · rw [List.foldl_append]
    · rfl

/-- A machine whose second state is unpaired. -/
def placingFanning : Machine := Machine.ofStates [placing, fanning, detouring]

/-- The drawing of `placingFanning` ends with the node of its second state, behind what was
there before.  The drawing of `placingDetour` succeeds, and goes on with that node if the
state is registered there. -/
theorem drawing_of_placingFanning_stops :
    placingFanning.drawInto (fun calls c => calls ++ [c]) [.node "OLD" ""] =
      ([.node "OLD" ""] ++ placing.sketch ++ [fanning.node], some ⟨"SIZE", 1, 2⟩) ∧
    placingFanning.draw.calls = placing.sketch ++ [fanning.node] ∧
    lastNode? [.node "OLD" "", placing.node] = some "PLACE" ∧
    (placingDetour.add fanning).drawInto (fun calls c => calls ++ [c]) [] =
      (placing.sketch ++ detouring.sketch ++ [fanning.node], some ⟨"SIZE", 1, 2⟩) := by
  have hplacing : ¬ placing.Unpaired := by decide
  have hdetouring : ¬ detouring.Unpaired := by decide
  have hbefore : ∀ t ∈ [placing], ¬ t.Unpaired := List.forall_mem_singleton.mpr hplacing
  obtain ⟨-, hfails, hseen, hlast, -⟩ := drawing_feeds_states_in_order placingFanning
    (fun calls c => calls ++ [c]) [.node "OLD" ""]
  have hfed := hfails [placing] fanning [detouring] _ rfl hbefore rfl (by decide)
  have hkept : [Call.node "OLD" ""] ++ (placing.sketch ++ [fanning.node]) =
      [Call.node "OLD" ""] ++ placingFanning.draw.calls :=
    (congrArg Prod.fst hfed).symm.trans (hseen id fun _ _ => rfl)
  have hcalls : placingFanning.draw.calls = placing.sketch ++ [fanning.node] :=
    (List.append_cancel_left hkept).symm
  refine ⟨hfed, hcalls, ?_, ?_⟩
  · exact hlast [.node "OLD" ""] [placing.node] _ _ _ _ hcalls
  · obtain ⟨hdrawn, -, -, -, hnext⟩ := drawing_feeds_states_in_order placingDetour
      (fun calls c => calls ++ [c]) []
    have hboth : ∀ s ∈ placingDetour.states, ¬ s.Unpaired :=
      List.forall_mem_cons.mpr ⟨hplacing, List.forall_mem_singleton.mpr hdetouring⟩
    have hnew : ∀ s ∈ (Machine.ofStates [fanning]).states, s.name ∉ placingDetour.names :=
      List.forall_mem_singleton.mpr (by decide)
    refine (hnext (Machine.ofStates [fanning]) hnew).trans ?_
    rw [hdrawn hboth, if_pos rfl]
    rfl

end Sequencer
