import Sequencer.Proofs.Blocks
import Sequencer.Proofs.NextStates
import Sequencer.Targets

/-!
# The target check against code

The check goes through the rules as they are and reports every name that is not
registered; code is made from rows, and jumps to the headers of its blocks.  It is
shown here that a machine without reports has code in which every next state is the
name of a block, and that in any other machine the reports of a state are the next
states without a block.  Only an else target may be reported that the code never
takes, namely where no row is guarded.

The list of reports is described apart from how it is collected: what is reported of
each state, that the states are gone through in order of registration, and that there
is nothing else.

## Main Results

* `State.dangling_of_rule` — the reports of one state.
* `Machine.filter_dangling` — the reports of a machine, state by state.
* `Machine.pairwise_idxOf_dangling` — the order of the reports.
* `Machine.isClosed_iff` — when nothing is reported.
* `State.mem_unregistered_iff` — reports against next states.
* `check_covers_assigned_targets` — all of it.
-/

namespace Sequencer

/-! ### Reports of one state -/

namespace State

variable {known : String → Bool} {s : State}

theorem dangling_of_no_rule (h : s.rule = none) : s.dangling known = [] := by
  unfold dangling
  rw [h]

/-- The reports of a state: its unknown targets in order, each as often as it is
given, and then its else target if that is unknown. -/
theorem dangling_of_rule {r : Rule} (h : s.rule = some r) :
    s.dangling known =
      (r.targets.values.filter fun t => !known t).map (⟨s.name, ·, .direct⟩) ++
        (r.elseTarget.toList.filter fun t => !known t).map (⟨s.name, ·, .otherwise⟩) := by
  have hkind : ∀ (names : List String) (kind : Dangling.Kind),
      ((names.map (·, kind)).filter fun p => !known p.1).map
          (fun p => (⟨s.name, p.1, p.2⟩ : Dangling)) =
        (names.filter fun t => !known t).map (⟨s.name, ·, kind⟩) := by
    intro names kind
    rw [List.filter_map, List.map_map]
    rfl
  unfold dangling
  rw [h]
  dsimp only
  rw [Rule.targetsByKind, List.filter_append, List.map_append, hkind, hkind]

/-- A report names the state that it is about. -/
theorem state_of_mem_dangling {d : Dangling} (h : d ∈ s.dangling known) : d.state = s.name := by
  unfold dangling at h
  split at h
  · cases h
  · obtain ⟨p, -, rfl⟩ := List.mem_map.mp h
    rfl

theorem mem_dangling_iff {r : Rule} (hr : s.rule = some r) {t : String} {kind : Dangling.Kind} :
    (⟨s.name, t, kind⟩ : Dangling) ∈ s.dangling known ↔
      known t = false ∧
        (kind = .direct ∧ t ∈ r.targets.values ∨ kind = .otherwise ∧ r.elseTarget = some t) := by
  rw [dangling_of_rule hr]
  cases kind <;> simp [and_comm]

/-- Nothing is reported exactly if every name that the rule refers to is known. -/
theorem dangling_eq_nil_iff :
    s.dangling known = [] ↔ ∀ r, s.rule = some r → ∀ t ∈ r.references, known t = true := by
  cases hr : s.rule with
  | none => simp [dangling_of_no_rule hr]
  | some r =>
      rw [dangling_of_rule hr]
      simp [Rule.references, or_imp, forall_and]

end State

/-! ### Reports of a machine -/

namespace Machine

variable {m : Machine}

theorem contains_eq_false_iff {name : String} : m.contains name = false ↔ name ∉ m.names := by
  rw [← contains_iff, Bool.not_eq_true]

/-- The reports of a state in a machine are those that bear its name. -/
theorem filter_dangling {s : State} (hs : s ∈ m.states) :
    m.dangling.filter (fun d => d.state = s.name) = s.dangling m.contains := by
  have hothers : ∀ t : State, t.name ≠ s.name →
      (t.dangling m.contains).filter (fun d => d.state = s.name) = [] := by
    intro t ht
    refine List.filter_eq_nil_iff.mpr fun d hd => ?_
    rw [State.state_of_mem_dangling hd]
    simpa using ht
  have hown : ∀ d ∈ s.dangling m.contains, decide (d.state = s.name) = true :=
    fun d hd => decide_eq_true (State.state_of_mem_dangling hd)
  unfold dangling
  rw [List.filter_flatMap, flatMap_states_of_mem hs hothers, List.filter_eq_self.mpr hown]

theorem mem_dangling_iff {s : State} (hs : s ∈ m.states) {d : Dangling} :
    d ∈ m.dangling ∧ d.state = s.name ↔ d ∈ s.dangling m.contains := by
  rw [← filter_dangling hs, List.mem_filter, decide_eq_true_eq]

/-- Only registered states have reports. -/
theorem state_mem_names {d : Dangling} (h : d ∈ m.dangling) : d.state ∈ m.names := by
  obtain ⟨s, hs, hd⟩ := List.mem_flatMap.mp h
  rw [State.state_of_mem_dangling hd]
  exact List.mem_map_of_mem hs

/-- The states stand in the order of their names. -/
theorem pairwise_idxOf_states (m : Machine) :
    m.states.Pairwise fun s t => m.names.idxOf s.name ≤ m.names.idxOf t.name := by
  have hplace : ∀ (i : Nat) (hi : i < m.states.length),
      m.names.idxOf m.states[i].name = i := by
    intro i hi
    have hnames : i < m.names.length := by
      unfold names
      rwa [List.length_map]
    have hname : m.names[i] = m.states[i].name := List.getElem_map _
    rw [← hname]
    exact m.nodup.idxOf_getElem i hnames
  rw [List.pairwise_iff_getElem]
  intro i j hi hj hlt
  rw [hplace i hi, hplace j hj]
  exact Nat.le_of_lt hlt

/-- **The reports are in order of registration.** -/
theorem pairwise_idxOf_dangling (m : Machine) :
    m.dangling.Pairwise fun d d' => m.names.idxOf d.state ≤ m.names.idxOf d'.state := by
  unfold dangling
  rw [List.pairwise_flatMap]
  -- all reports of a state have its place, and later states have later places
  constructor
  · intro s _
    refine List.pairwise_of_forall_mem_list fun d hd d' hd' => ?_
    have hsame : d.state = d'.state :=
      (State.state_of_mem_dangling hd).trans (State.state_of_mem_dangling hd').symm
    exact Nat.le_of_eq (congrArg (List.idxOf · m.names) hsame)
  · refine m.pairwise_idxOf_states.imp fun hle d hd d' hd' => ?_
    rw [State.state_of_mem_dangling hd, State.state_of_mem_dangling hd']
    exact hle

/-- **Nothing is reported exactly if every name that is referred to is registered.** -/
theorem isClosed_iff :
    m.isClosed = true ↔
      ∀ s ∈ m.states, ∀ r, s.rule = some r → ∀ t ∈ r.references, t ∈ m.names := by
  unfold isClosed dangling
  rw [List.isEmpty_iff, List.flatMap_eq_nil_iff]
  simp only [State.dangling_eq_nil_iff, contains_iff]

end Machine

/-! ### Reports against code -/

/-- Next states of a state are names that its rule refers to. -/
theorem State.mem_references_of_nextStates {s : State} {rows : List Row}
    (h : s.rows = .ok rows) {marker t : String}
    (ht : t ∈ (Program.ofRows marker s.elseTarget rows).nextStates) :
    ∃ r, s.rule = some r ∧ t ∈ r.references := by
  cases hr : s.rule with
  | none =>
      have helse : s.elseTarget = none := by
        unfold State.elseTarget
        rw [hr]
        rfl
      have hexpand : expand s.name s.output none = .ok rows := hr ▸ h
      rw [helse, nextStates_of_no_rule hexpand] at ht
      cases ht
  | some r =>
      refine ⟨r, rfl, ?_⟩
      rw [State.mem_nextStates_iff hr h] at ht
      unfold Rule.references
      rw [List.mem_append, Option.mem_toList]
      exact ht.imp_right And.left

/-- **The next states of a state that are not registered are the ones reported**,
apart from an else target where no row is guarded. -/
theorem State.mem_unregistered_iff {m : Machine} {s : State} (hs : s ∈ m.states)
    {rows : List Row} (h : s.rows = .ok rows) {marker t : String} :
    t ∈ (Program.ofRows marker s.elseTarget rows).nextStates ∧ t ∉ m.names ↔
      ∃ d ∈ m.dangling, d.state = s.name ∧ d.target = t ∧
        ¬ (d.kind = .otherwise ∧ ∀ row ∈ rows, row.condition = always) := by
  constructor
  · rintro ⟨ht, hunknown⟩
    obtain ⟨r, hr, -⟩ := mem_references_of_nextStates h ht
    have hreported : ∀ kind, (kind = Dangling.Kind.direct ∧ t ∈ r.targets.values ∨
        kind = .otherwise ∧ r.elseTarget = some t) →
        (⟨s.name, t, kind⟩ : Dangling) ∈ m.dangling := by
      intro kind hkind
      exact ((Machine.mem_dangling_iff hs).mpr ((mem_dangling_iff hr).mpr
        ⟨Machine.contains_eq_false_iff.mpr hunknown, hkind⟩)).1
    -- a target of the rule is reported as such, even if it is the else target as well
    rcases (mem_nextStates_iff hr h).mp ht with htarget | ⟨helse, row, hrow, hguarded⟩
    · exact ⟨_, hreported .direct (Or.inl ⟨rfl, htarget⟩), rfl, rfl, by simp⟩
    · refine ⟨_, hreported .otherwise (Or.inr ⟨rfl, helse⟩), rfl, rfl, ?_⟩
      rintro ⟨-, halways⟩
      exact hguarded (halways row hrow)
  · rintro ⟨⟨state, target, kind⟩, hd, rfl, rfl, htaken⟩
    have hown := (Machine.mem_dangling_iff hs).mp ⟨hd, rfl⟩
    cases hr : s.rule with
    | none =>
        rw [dangling_of_no_rule hr] at hown
        cases hown
    | some r =>
        obtain ⟨hunknown, hkind⟩ := (mem_dangling_iff hr).mp hown
        refine ⟨(mem_nextStates_iff hr h).mpr ?_, Machine.contains_eq_false_iff.mp hunknown⟩
        rcases hkind with ⟨-, htarget⟩ | ⟨hkind, helse⟩
        · exact Or.inl htarget
        · have hguarded : ∃ row ∈ rows, row.condition ≠ always := by
            by_contra hno
            push Not at hno
            exact htaken ⟨hkind, hno⟩
          exact Or.inr ⟨helse, hguarded⟩

/-- A registered name heads one of the blocks. -/
theorem exists_block_of_mem_names {m : Machine} {e : Emitter} {blocks : List (List String)}
    (h : List.Forall₂ (fun s lines => s.block e = .ok lines) m.states blocks) {t : String}
    (ht : t ∈ m.names) :
    ∃ lines ∈ blocks, lines.head? = some (e.stateRegister ++ "." ++ t ++ ":") := by
  obtain ⟨s, hs, rfl⟩ := List.mem_map.mp ht
  obtain ⟨i, hi, rfl⟩ := List.mem_iff_getElem.mp hs
  have hi' : i < blocks.length := h.length_eq ▸ hi
  have hblock : m.states[i].block e = .ok blocks[i] := h.get hi hi'
  refine ⟨blocks[i], List.getElem_mem hi', ?_⟩
  rw [State.block_eq_map, map_eq_ok_iff] at hblock
  obtain ⟨rows, -, hlines⟩ := hblock
  rw [← hlines]
  rfl

/-- **The target check is sound and complete for code.**  Let a machine compile, to
blocks that are joined.  Each state has a program whose layout is its block.  If the
check succeeds, every next state that a program assigns is the name in the header of
a block.  In any case, the unregistered next states of a state are the targets that
are reported of it, leaving out an else target where no row is guarded.

Whether or not the machine compiles, the reports of a state are its unregistered
targets, in order and with repetitions, and then its else target; reports are in
order of registration, and are about registered states only.  The check succeeds
exactly if there are none, which is to say that all references are registered. -/
theorem check_covers_assigned_targets (m : Machine) (e : Emitter) :
    (∀ text, m.compile e = .ok text →
      ∃ blocks : List (List String),
        List.Forall₂ (fun s lines => s.block e = .ok lines) m.states blocks ∧
        text = "\n".intercalate blocks.flatten ∧
        ∀ s ∈ m.states, ∃ (rows : List Row) (p : Program),
          expand s.name s.output s.rule = .ok rows ∧ s.program e = .ok p ∧
          s.block e = .ok ((e.stateRegister ++ "." ++ s.name ++ ":") ::
            (p.outline e.stateRegister).map e.indented) ∧
          (m.isClosed = true → ∀ t ∈ p.nextStates, ∃ lines ∈ blocks,
            lines.head? = some (e.stateRegister ++ "." ++ t ++ ":")) ∧
          ∀ t, t ∈ p.nextStates ∧ t ∉ m.names ↔
            ∃ d ∈ m.dangling, d.state = s.name ∧ d.target = t ∧
              ¬ (d.kind = .otherwise ∧ ∀ row ∈ rows, row.condition = always)) ∧
    (∀ s ∈ m.states, s.rule = none → m.dangling.filter (fun d => d.state = s.name) = []) ∧
    (∀ s ∈ m.states, ∀ r, s.rule = some r →
      m.dangling.filter (fun d => d.state = s.name) =
        (r.targets.values.filter fun t => t ∉ m.names).map (⟨s.name, ·, .direct⟩) ++
          (r.elseTarget.toList.filter fun t => t ∉ m.names).map (⟨s.name, ·, .otherwise⟩)) ∧
    (∀ d ∈ m.dangling, d.state ∈ m.names) ∧
    (m.dangling.Pairwise fun d d' => m.names.idxOf d.state ≤ m.names.idxOf d'.state) ∧
    (m.isClosed = true ↔ m.dangling = []) ∧
    (m.isClosed = true ↔
      ∀ s ∈ m.states, ∀ r, s.rule = some r → ∀ t ∈ r.references, t ∈ m.names) := by
  refine ⟨fun text htext => ?_, fun s hs hr => ?_, fun s hs r hr => ?_,
    fun d hd => Machine.state_mem_names hd, m.pairwise_idxOf_dangling, List.isEmpty_iff,
    Machine.isClosed_iff⟩
  · have hrows := Machine.exists_compile_ok_iff.mp ⟨text, htext⟩
    obtain ⟨blocks, hall, hjoin⟩ := Machine.compile_eq_ok_iff_blocks.mp htext
    refine ⟨blocks, hall, hjoin, fun s hs => ?_⟩
    obtain ⟨rows, hsrows⟩ := hrows s hs
    refine ⟨rows, Program.ofRows e.readMarker s.elseTarget rows, hsrows,
      State.program_of_rows e hsrows, State.block_of_rows e hsrows, ?_,
      fun t => State.mem_unregistered_iff hs hsrows⟩
    intro hclosed t ht
    obtain ⟨r, hr, href⟩ := State.mem_references_of_nextStates hsrows ht
    exact exists_block_of_mem_names hall (Machine.isClosed_iff.mp hclosed s hs r hr t href)
  · rw [Machine.filter_dangling hs, State.dangling_of_no_rule hr]
  · have hunknown : (fun t => !m.contains t) = fun t => decide (t ∉ m.names) := by
      funext t
      rw [Bool.eq_iff_iff, Bool.not_eq_true', decide_eq_true_eq]
      exact Machine.contains_eq_false_iff
    rw [Machine.filter_dangling hs, State.dangling_of_rule hr, hunknown]

/-- A state that always goes on to a name that is not registered, and has another such
name as its else target. -/
def straying : State where
  name := "B"
  output := Output.empty.drive .finished (.single "1")
  rule := some ((Rule.always "GONE").orElse "LOST")

/-- A state that goes on to `straying`. -/
def strayingPair : Machine := Machine.ofStates [passing "A" "B", straying]

/-- Two states that pass on to each other are closed, and the next state of the first
heads a block.  Of `straying` both names are reported, and its code goes to the first. -/
theorem check_of_passingPair_and_strayingPair :
    (passingPair.isClosed = true ∧ ∃ blocks : List (List String),
      passingPair.compile .standard = .ok ("\n".intercalate blocks.flatten) ∧
      ∃ p : Program, (passing "A" "B").program .standard = .ok p ∧
        ∀ t ∈ p.nextStates, ∃ lines ∈ blocks, lines.head? = some ("game_state." ++ t ++ ":")) ∧
    strayingPair.dangling.filter (fun d => d.state = "B") =
      [⟨"B", "GONE", .direct⟩, ⟨"B", "LOST", .otherwise⟩] ∧
    (∃ text, strayingPair.compile .standard = .ok text) ∧
    ∃ p : Program, straying.program .standard = .ok p ∧
      "GONE" ∈ p.nextStates ∧ "LOST" ∉ p.nextStates := by
  obtain ⟨hcode, -⟩ := check_covers_assigned_targets passingPair .standard
  obtain ⟨hstray, -, hreports, -⟩ := check_covers_assigned_targets strayingPair .standard
  have hmem : straying ∈ strayingPair.states := by decide
  have hreported : strayingPair.dangling.filter (fun d => d.state = "B") =
      [⟨"B", "GONE", .direct⟩, ⟨"B", "LOST", .otherwise⟩] := hreports straying hmem _ rfl
  refine ⟨?_, hreported, ?_⟩
  · have hclosed : passingPair.isClosed = true := by decide
    obtain ⟨blocks, -, htext, hstates⟩ := hcode _ rfl
    obtain ⟨rows, p, -, hprogram, -, hsound, -⟩ := hstates (passing "A" "B") (by decide)
    exact ⟨hclosed, blocks, congrArg Except.ok htext, p, hprogram, hsound hclosed⟩
  · obtain ⟨blocks, -, -, hstates⟩ := hstray _ rfl
    obtain ⟨rows, p, hrows, hprogram, -, -, hunregistered⟩ := hstates straying hmem
    have halways : rows = [⟨always, [(.finished, "1")], some "GONE"⟩] :=
      Except.ok.inj (hrows.symm.trans rfl)
    refine ⟨⟨_, rfl⟩, p, hprogram, ((hunregistered "GONE").mpr ?_).1, fun hlost => ?_⟩
    · exact ⟨⟨"B", "GONE", .direct⟩, by decide, rfl, rfl, by simp⟩
    · obtain ⟨d, hd, hstate, htarget, htaken⟩ := (hunregistered "LOST").mp ⟨hlost, by decide⟩
      have hin : d ∈ strayingPair.dangling.filter (fun d => d.state = "B") :=
        List.mem_filter.mpr ⟨hd, decide_eq_true hstate⟩
      -- the only report for this target is that of the else target
      rw [hreported] at hin
      rcases List.mem_cons.mp hin with rfl | hin
      · exact absurd htarget (by decide)
      · obtain rfl := List.mem_singleton.mp hin
        exact htaken ⟨rfl, by simp [halways]⟩

end Sequencer
