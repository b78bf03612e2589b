import Sequencer.Proofs.Reload
import Sequencer.Proofs.TargetCheck

/-!
# Reports while a machine grows

The target check looks up every reference of a machine, so registering one state may
change what is reported of all others.  It is shown here that the change is the least one:
references to the new name are no longer reported, all other reports of the other states
stay, in their order, and the reports of the state itself stand where the state stands.

The reports of a machine depend on what is found under each name, and the order of the
states decides only about their order.  Registrations under different names can be
exchanged without changing what is found, so neither their number nor their order makes
a difference to whether anything is reported.

## Main Results

* `State.dangling_of_known` — one more name is known.
* `Machine.dangling_add_of_notMem`, `Machine.dangling_add_of_split` — one registration.
* `Machine.find?_foldl_add_eq_of_perm` — registrations in another order.
* `reports_follow_registrations` — all of it.
-/

namespace Sequencer

/-! ### One more name -/

/-- **If one more name is known, the reports about it are gone**, and all others stay. -/
theorem State.dangling_of_known (known : String → Bool) (name : String) (t : State) :
    t.dangling (fun n => decide (n = name) || known n) =
      (t.dangling known).filter fun d => d.target ≠ name := by
  unfold dangling
  cases t.rule with
  | none => rfl
  | some r =>
      dsimp only
      rw [List.filter_map, List.filter_filter]
      congr 1
      refine List.filter_congr fun p _ => ?_
      show (!(decide (p.1 = name) || known p.1)) = (decide (p.1 ≠ name) && !known p.1)
      rw [Bool.not_or, decide_not]

namespace Machine

variable {m m' : Machine} {s : State}

theorem mem_names_add {name : String} :
    name ∈ (m.add s).names ↔ name = s.name ∨ name ∈ m.names := by
  rw [names_add]
  split
  · next hmem =>
      constructor
      · exact Or.inr
      · rintro (rfl | hname)
        · exact hmem
        · exact hname
  · rw [List.mem_append, List.mem_singleton, or_comm]

theorem contains_add (m : Machine) (s : State) :
    (m.add s).contains = fun name => decide (name = s.name) || m.contains name := by
  funext name
  rw [Bool.eq_iff_iff, Bool.or_eq_true, contains_iff, contains_iff, decide_eq_true_eq]
  exact mem_names_add

/-- After a registration, the reports of states that were there before lose those about
the new name. -/
theorem flatMap_dangling_add (m : Machine) (s : State) (states : List State) :
    states.flatMap (State.dangling (m.add s).contains) =
      (states.flatMap (State.dangling m.contains)).filter fun d => d.target ≠ s.name := by
  rw [contains_add, List.filter_flatMap]
  exact congrArg (states.flatMap ·) (funext (State.dangling_of_known m.contains s.name))

/-! ### One registration -/

theorem mem_states_add (m : Machine) (s : State) : s ∈ (m.add s).states := by
  by_cases hmem : s.name ∈ m.names
  · obtain ⟨before, t, after, hsplit, hname⟩ := exists_split_of_mem hmem
    rw [states_add_of_split hsplit hname.symm]
    simp
  · rw [states_add_of_notMem hmem]
    simp

/-- **A new name has its reports at the end.** -/
theorem dangling_add_of_notMem (h : s.name ∉ m.names) :
    (m.add s).dangling =
      (m.dangling.filter fun d => d.target ≠ s.name) ++ s.dangling (m.add s).contains := by
  unfold dangling
  rw [← flatMap_dangling_add, states_add_of_notMem h, List.flatMap_append,
    List.flatMap_singleton]

/-- **A known name has its reports where it stands.** -/
theorem dangling_add_of_split {before after : List State} {t : State}
    (hsplit : m.states = before ++ t :: after) (hname : t.name = s.name) :
    (m.add s).dangling =
      ((before.flatMap (State.dangling m.contains)).filter fun d => d.target ≠ s.name) ++
      s.dangling (m.add s).contains ++
      ((after.flatMap (State.dangling m.contains)).filter fun d => d.target ≠ s.name) := by
  unfold dangling
  rw [← flatMap_dangling_add, ← flatMap_dangling_add, states_add_of_split hsplit hname.symm,
    List.flatMap_append, List.flatMap_cons, List.append_assoc]

/-- Reports of some states bear their names. -/
theorem state_mem_of_mem_flatMap {known : String → Bool} {states : List State} {d : Dangling}
    (h : d ∈ states.flatMap (State.dangling known)) : d.state ∈ states.map State.name := by
  obtain ⟨t, ht, hd⟩ := List.mem_flatMap.mp h
  rw [State.state_of_mem_dangling hd]
  exact List.mem_map_of_mem ht

/-- A name that is not registered has no reports. -/
theorem filter_dangling_of_notMem {name : String} (h : name ∉ m.names) :
    m.dangling.filter (fun d => d.state = name) = [] := by
  rw [List.filter_eq_nil_iff]
  intro d hd hname
  exact h (of_decide_eq_true hname ▸ state_mem_names hd)

/-- The states are what is found under their names. -/
theorem mem_states_iff {t : State} : t ∈ m.states ↔ m.find? t.name = some t :=
  ⟨find?_of_mem, List.mem_of_find?_eq_some⟩

/-- **Other states lose the reports about the new name**, and keep all others. -/
theorem filter_dangling_add_of_ne {name : String} (h : name ≠ s.name) :
    (m.add s).dangling.filter (fun d => d.state = name) =
      (m.dangling.filter fun d => d.state = name).filter fun d => d.target ≠ s.name := by
  by_cases hmem : name ∈ m.names
  · obtain ⟨t, ht, rfl⟩ := List.mem_map.mp hmem
    have ht' : t ∈ (m.add s).states := by
      rw [mem_states_iff, find?_add, if_neg (Ne.symm h)]
      exact find?_of_mem ht
    rw [filter_dangling ht', filter_dangling ht, contains_add]
    exact State.dangling_of_known m.contains s.name t
  · have hmem' : name ∉ (m.add s).names := by
      rw [mem_names_add]
      exact not_or.mpr ⟨h, hmem⟩
    rw [filter_dangling_of_notMem hmem', filter_dangling_of_notMem hmem, List.filter_nil]

/-- The state that was registered has reports about the names that were not known and are
not its own. -/
theorem filter_dangling_add_self (m : Machine) (s : State) :
    (m.add s).dangling.filter (fun d => d.state = s.name) =
      s.rule.elim [] fun r =>
        (r.targets.values.filter fun t => t ∉ m.names ∧ t ≠ s.name).map
            (⟨s.name, ·, .direct⟩) ++
          (r.elseTarget.toList.filter fun t => t ∉ m.names ∧ t ≠ s.name).map
            (⟨s.name, ·, .otherwise⟩) := by
  have hunknown : (fun t => !(m.add s).contains t) =
      fun t => decide (t ∉ m.names ∧ t ≠ s.name) := by
    funext t
    rw [Bool.eq_iff_iff, Bool.not_eq_true', contains_eq_false_iff, mem_names_add, not_or,
      decide_eq_true_eq, and_comm]
  rw [filter_dangling (mem_states_add m s)]
  cases hr : s.rule with
  | none => rw [State.dangling_of_no_rule hr, Option.elim_none]
  | some r => rw [State.dangling_of_rule hr, hunknown, Option.elim_some]

/-! ### Other orders -/

/-- What is found under each name after a state was registered. -/
def registerIn (find : String → Option State) (s : State) : String → Option State :=
  fun name => if s.name = name then some s else find name

theorem find?_foldl_add (states : List State) (m : Machine) :
    (states.foldl add m).find? = states.foldl registerIn m.find? := by
  induction states generalizing m with
  | nil => rfl
  | cons s states ih =>
      have hfirst : (m.add s).find? = registerIn m.find? s := funext (find?_add m s)
      rw [List.foldl_cons, List.foldl_cons, ih, hfirst]

/-- Registrations under different names can be exchanged. -/
theorem registerIn_comm {s t : State} (h : s.name = t.name → s = t)
    (find : String → Option State) :
    registerIn (registerIn find s) t = registerIn (registerIn find t) s := by
  funext name
  unfold registerIn
  by_cases hs : s.name = name
  · by_cases ht : t.name = name
    · rw [h (hs.trans ht.symm)]
    · rw [if_neg ht, if_pos hs, if_pos hs]
  · rw [if_neg hs, if_neg hs]

/-- **States with distinct names may be registered in any order**: the same is found under
each name. -/
theorem find?_foldl_add_eq_of_perm {states states' : List State} (hperm : states.Perm states')
    (hnodup : (states.map State.name).Nodup) (m : Machine) :
    (states.foldl add m).find? = (states'.foldl add m).find? := by
  rw [find?_foldl_add, find?_foldl_add]
  apply hperm.foldl_eq'
  intro s hs t ht find
  exact registerIn_comm (fun h => List.inj_on_of_nodup_map hnodup hs ht h) find

/-- Machines in which the same is found have the same states, in some order. -/
theorem states_perm_of_find?_eq (h : m.find? = m'.find?) : m.states.Perm m'.states := by
  have hnodup : ∀ m : Machine, m.states.Nodup := fun m => m.nodup.of_map State.name
  rw [List.perm_ext_iff_of_nodup (hnodup m) (hnodup m')]
  intro s
  rw [mem_states_iff, mem_states_iff, h]

/-- Machines in which the same is found have the same reports, in some order. -/
theorem dangling_perm_of_find?_eq (h : m.find? = m'.find?) : m.dangling.Perm m'.dangling := by
  have hstates := states_perm_of_find?_eq h
  have hcontains : m.contains = m'.contains := by
    funext name
    rw [Bool.eq_iff_iff, contains_iff, contains_iff]
    exact (hstates.map State.name).mem_iff
  unfold dangling
  rw [hcontains]
  exact hstates.flatMap_right _

theorem isClosed_eq_of_perm (h : m.dangling.Perm m'.dangling) : m.isClosed = m'.isClosed := by
  unfold isClosed
  exact h.isEmpty_eq

end Machine

/-- **Reports follow the registrations.**  Let a state be registered, under a new name or
again.  Every other state keeps its reports in their order, apart from those about the
name that was registered.  The state itself is reported for the references of its rule,
targets first and the else target last, that are neither names of the machine nor its
own.  Its reports come last if its name is new, and stand in its old place if not.

Hence no reference of another state begins to dangle, and states with distinct names may
be registered in any order, on any machine: the reports are the same up to their order,
and so is the outcome of the check. -/
theorem reports_follow_registrations (m : Machine) (s : State) :
    (∀ name, name ≠ s.name →
      (m.add s).dangling.filter (fun d => d.state = name) =
        (m.dangling.filter fun d => d.state = name).filter fun d => d.target ≠ s.name) ∧
    ((m.add s).dangling.filter (fun d => d.state = s.name) =
      s.rule.elim [] fun r =>
        (r.targets.values.filter fun t => t ∉ m.names ∧ t ≠ s.name).map
            (⟨s.name, ·, .direct⟩) ++
          (r.elseTarget.toList.filter fun t => t ∉ m.names ∧ t ≠ s.name).map
            (⟨s.name, ·, .otherwise⟩)) ∧
    (s.name ∉ m.names →
      (m.add s).dangling =
        (m.dangling.filter fun d => d.target ≠ s.name) ++
          (m.add s).dangling.filter fun d => d.state = s.name) ∧
    (∀ before t after, m.states = before ++ t :: after → t.name = s.name →
      ∃ front back,
        m.dangling = front ++ (m.dangling.filter fun d => d.state = s.name) ++ back ∧
        (∀ d ∈ front, d.state ∈ before.map State.name) ∧
        (∀ d ∈ back, d.state ∈ after.map State.name) ∧
        (m.add s).dangling =
          (front.filter fun d => d.target ≠ s.name) ++
            ((m.add s).dangling.filter fun d => d.state = s.name) ++
            back.filter fun d => d.target ≠ s.name) ∧
    (∀ d ∈ (m.add s).dangling, d.state ≠ s.name → d ∈ m.dangling) ∧
    ∀ states states' : List State, states.Perm states' → (states.map State.name).Nodup →
      (states.foldl Machine.add m).dangling.Perm (states'.foldl Machine.add m).dangling ∧
        (states.foldl Machine.add m).isClosed = (states'.foldl Machine.add m).isClosed := by
  have hown := Machine.filter_dangling (m.mem_states_add s)
  refine ⟨fun name => Machine.filter_dangling_add_of_ne, m.filter_dangling_add_self s, ?_, ?_,
    ?_, ?_⟩
  · intro hnew
    rw [hown]
    exact Machine.dangling_add_of_notMem hnew
  · intro before t after hsplit hname
    have hold : (m.dangling.filter fun d => d.state = s.name) = t.dangling m.contains := by
      rw [← hname]
      exact Machine.filter_dangling (by simp [hsplit])
    refine ⟨before.flatMap (State.dangling m.contains), after.flatMap (State.dangling m.contains),
      ?_, fun d => Machine.state_mem_of_mem_flatMap, fun d => Machine.state_mem_of_mem_flatMap,
      ?_⟩
    · rw [hold]
      unfold Machine.dangling
      rw [hsplit, List.flatMap_append, List.flatMap_cons, List.append_assoc]
    · rw [hown]
      exact Machine.dangling_add_of_split hsplit hname
  · intro d hd hne
    have hother : d ∈ (m.add s).dangling.filter fun e => e.state = d.state :=
      List.mem_filter.mpr ⟨hd, decide_eq_true rfl⟩
    rw [Machine.filter_dangling_add_of_ne hne] at hother
    exact (List.mem_filter.mp (List.mem_filter.mp hother).1).1
  · intro states states' hperm hnodup
    have hreports := Machine.dangling_perm_of_find?_eq
      (Machine.find?_foldl_add_eq_of_perm hperm hnodup m)
    exact ⟨hreports, Machine.isClosed_eq_of_perm hreports⟩

/-- A state that waits in its own place, or goes to a name that is not registered. -/
def waiting : State where
  name := "B"
  output := Output.empty
  rule := some (.branch (.single "busy") ⟨["B", "GONE"]⟩ "LOST")

/-- Registering a target of `straying` removes one of its reports.  Registering `waiting`
in its place reports two of three references.  Both can be done in either order. -/
theorem reports_of_strayingPair_grown :
    ("B" ≠ "GONE" ∧ (strayingPair.add (passing "GONE" "A")).dangling.filter
      (fun d => d.state = "B") = [⟨"B", "LOST", .otherwise⟩]) ∧
    ("GONE" ∉ strayingPair.names ∧ (strayingPair.add (passing "GONE" "MISSING")).dangling =
      [⟨"B", "LOST", .otherwise⟩, ⟨"GONE", "MISSING", .direct⟩]) ∧
    (∃ front back, strayingPair.dangling =
        front ++ [⟨"B", "GONE", .direct⟩, ⟨"B", "LOST", .otherwise⟩] ++ back ∧
      (strayingPair.add waiting).dangling.filter (fun d => d.state = "B") =
        [⟨"B", "GONE", .direct⟩, ⟨"B", "LOST", .otherwise⟩]) ∧
    ([waiting, passing "GONE" "A"].foldl Machine.add strayingPair).isClosed =
      ([passing "GONE" "A", waiting].foldl Machine.add strayingPair).isClosed := by
  obtain ⟨hothers, -, -, -, -, hperm⟩ :=
    reports_follow_registrations strayingPair (passing "GONE" "A")
  obtain ⟨-, hown, hnew, -⟩ := reports_follow_registrations strayingPair (passing "GONE" "MISSING")
  obtain ⟨-, hwaiting, -, hplace, -⟩ := reports_follow_registrations strayingPair waiting
  have hmem : "GONE" ∉ strayingPair.names := by decide
  refine ⟨⟨by decide, (hothers "B" (by decide)).trans rfl⟩, ⟨hmem, ?_⟩, ?_, ?_⟩
  · rw [hnew hmem, hown]
    rfl
  · obtain ⟨front, back, hsplit, -⟩ := hplace [passing "A" "B"] straying [] rfl rfl
    exact ⟨front, back, hsplit, hwaiting⟩
  · exact (hperm _ _ (List.Perm.swap _ _ _) (by decide)).2

end Sequencer
