import Mathlib.Data.Finset.Card
import Mathlib.Data.List.Induction
import Sequencer.Description
import Sequencer.Proofs.Registration

/-!
# Sequences of registrations, kept and reloaded

A machine is made by registering states one after the other.  A name that comes
again keeps its place and has its state replaced, so that after any number of
registrations the places are those of the first registrations and the contents
those of the last ones.  Both are run invariants: one registration is described by
what it does to the names and to what is found under them, and a machine is known
when both are.

A description keeps the states of a machine as a list, and registering that list
makes the machine again.  A description that was written by hand may repeat names;
after a round through a machine its list is collapsed.

## Main Definitions

* `lastNamed?` — the last of some states that bears a name.
* `collapse` — one state for each name, at its first place and with its last content.

## Main Results

* `Machine.names_ofStates`, `Machine.find?_ofStates` — names and contents after any
  sequence of registrations.
* `Machine.states_ofStates` — the states themselves.
* `Machine.ofStates_states` — a machine is made again from its own states.
* `registrations_survive_reloading` — all of it, with descriptions.
-/

namespace Sequencer

/-! ### Collapsing -/

/-- The last of the given states that bears the name. -/
def lastNamed? (states : List State) (name : String) : Option State :=
  states.findRev? fun s => s.name = name

/-- One state for each name: it stands where the name comes first, and it is the
state that bears the name last. -/
def collapse (states : List State) : List State :=
  (states.map State.name).eraseDups.filterMap (lastNamed? states)

theorem lastNamed?_concat (states : List State) (s : State) (name : String) :
    lastNamed? (states ++ [s]) name =
      if s.name = name then some s else lastNamed? states name := by
  unfold lastNamed?
  rw [List.findRev?_eq_find?_reverse, List.findRev?_eq_find?_reverse, List.reverse_append,
    List.reverse_singleton, List.singleton_append]
  by_cases h : s.name = name
  · rw [List.find?_cons_of_pos (by simpa using h), if_pos h]
  · rw [List.find?_cons_of_neg (by simpa using h), if_neg h]

/-- After the last state of a name, no state bears it. -/
theorem lastNamed?_eq_some_iff {states : List State} {name : String} {s : State} :
    lastNamed? states name = some s ↔
      ∃ before after, states = before ++ s :: after ∧ s.name = name ∧
        ∀ t ∈ after, t.name ≠ name := by
  unfold lastNamed?
  rw [List.findRev?_eq_find?_reverse, List.find?_eq_some_iff_append]
  constructor
  · rintro ⟨hname, after, before, hsplit, hafter⟩
    refine ⟨before.reverse, after.reverse, ?_, by simpa using hname, ?_⟩
    · simpa using congrArg List.reverse hsplit
    · intro t ht
      simpa using hafter t (List.mem_reverse.mp ht)
  · rintro ⟨before, after, rfl, hname, hafter⟩
    refine ⟨by simpa using hname, after.reverse, before.reverse, by simp, ?_⟩
    intro t ht
    simpa using hafter t (List.mem_reverse.mp ht)

/-- Without repetitions, a name more is kept exactly if it is new. -/
theorem eraseDups_concat (names : List String) (name : String) :
    (names ++ [name]).eraseDups =
      if name ∈ names then names.eraseDups else names.eraseDups ++ [name] := by
  rw [List.eraseDups_append]
  by_cases h : name ∈ names
  · have hnone : [name].removeAll names = [] := by simp [List.removeAll, h]
    rw [if_pos h, hnone, List.eraseDups_nil, List.append_nil]
  · have hone : [name].removeAll names = [name] := by simp [List.removeAll, h]
    rw [if_neg h, hone]
    rfl

/-! ### Sequences of registrations -/

namespace Machine

theorem ofStates_concat (states : List State) (s : State) :
    ofStates (states ++ [s]) = (ofStates states).add s :=
  List.foldl_append

/-- **The names stand in order of first registration.** -/
theorem names_ofStates (states : List State) :
    (ofStates states).names = (states.map State.name).eraseDups := by
  induction states using List.reverseRecOn with
  | nil => rfl
  | append_singleton states s ih =>
      rw [ofStates_concat, names_add, List.map_append, List.map_singleton, eraseDups_concat, ih]
      simp only [List.mem_eraseDups]

theorem mem_names_ofStates {states : List State} {name : String} :
    name ∈ (ofStates states).names ↔ name ∈ states.map State.name := by
  rw [names_ofStates, List.mem_eraseDups]

/-- Of two names, the one that stands first was registered first. -/
theorem pairwise_names_ofStates (states : List State) :
    (ofStates states).names.Pairwise fun a b =>
      (states.map State.name).idxOf a < (states.map State.name).idxOf b := by
  induction states using List.reverseRecOn with
  | nil => exact List.Pairwise.nil
  | append_singleton states s ih =>
      have hmem : ∀ a ∈ (ofStates states).names, a ∈ states.map State.name :=
        fun a ha => mem_names_ofStates.mp ha
      -- another registration does not move the first one of a name
      have hkept : (ofStates states).names.Pairwise fun a b =>
          ((states ++ [s]).map State.name).idxOf a <
            ((states ++ [s]).map State.name).idxOf b := by
        refine ih.imp_of_mem ?_
        intro a b ha hb hlt
        rw [List.map_append, List.idxOf_append_of_mem (hmem a ha),
          List.idxOf_append_of_mem (hmem b hb)]
        exact hlt
      rw [ofStates_concat, names_add]
      split
      · exact hkept
      · next hnew =>
          rw [List.pairwise_append]
          refine ⟨hkept, List.pairwise_singleton _ _, ?_⟩
          intro a ha b hb
          obtain rfl := List.mem_singleton.mp hb
          have hlast : s.name ∉ states.map State.name := fun h => hnew (mem_names_ofStates.mpr h)
          rw [List.map_append, List.idxOf_append_of_mem (hmem a ha),
            List.idxOf_append_of_notMem hlast]
          exact Nat.lt_add_right _ (List.idxOf_lt_length_iff.mpr (hmem a ha))

/-- **Under a name, the state of its last registration is found.** -/
theorem find?_ofStates (states : List State) (name : String) :
    (ofStates states).find? name = lastNamed? states name := by
  induction states using List.reverseRecOn with
  | nil => rfl
  | append_singleton states s ih =>
      rw [ofStates_concat, find?_add, lastNamed?_concat, ih]

/-- The names and what is found under them make up the machine. -/
theorem states_eq_filterMap (m : Machine) : m.states = m.names.filterMap m.find? := by
  unfold names
  rw [List.filterMap_map]
  conv_lhs => rw [← List.filterMap_some (l := m.states)]
  refine List.filterMap_congr ?_
  intro s hs
  exact (find?_of_mem hs).symm

/-- **The states after any sequence of registrations** are the registered ones,
collapsed. -/
theorem states_ofStates (states : List State) : (ofStates states).states = collapse states := by
  have hfind : (ofStates states).find? = lastNamed? states := funext (find?_ofStates states)
  rw [states_eq_filterMap, names_ofStates, hfind]
  rfl

/-- States with distinct names are registered as they stand. -/
theorem states_ofStates_of_nodup {states : List State} (h : (states.map State.name).Nodup) :
    (ofStates states).states = states :=
  states_foldl_add (m := empty) h fun _ _ hmem => List.not_mem_nil hmem

/-- **A machine is made again from its own states.** -/
theorem ofStates_states (m : Machine) : ofStates m.states = m :=
  ext (states_ofStates_of_nodup m.nodup)

/-- There are as many states as names that were registered. -/
theorem length_ofStates (states : List State) :
    (ofStates states).length = (states.map State.name).toFinset.card := by
  have hsame : (states.map State.name).toFinset = (ofStates states).names.toFinset := by
    ext name
    rw [List.mem_toFinset, List.mem_toFinset, mem_names_ofStates]
  have hcard : (ofStates states).names.toFinset.card = (ofStates states).names.length :=
    List.toFinset_card_of_nodup (ofStates states).nodup
  rw [hsame, hcard]
  exact (List.length_map _).symm

end Machine

/-! ### Descriptions -/

/-- Collapsing changes nothing exactly where no name is repeated. -/
theorem collapse_eq_self_iff {states : List State} :
    collapse states = states ↔ (states.map State.name).Nodup := by
  rw [← Machine.states_ofStates]
  constructor
  · intro h
    have hnodup := (Machine.ofStates states).nodup
    rwa [h] at hnodup
  · exact Machine.states_ofStates_of_nodup

/-- **Registration, keeping and reloading agree.**  The machine of a description
registers its states in order.  The names are then distinct and stand in order of
first registration; a name is contained exactly if it was registered; under it the
state of its last registration is found; and there are as many states as distinct
names.  A machine that is kept with any settings and reloaded is the same machine.
A description that is made a machine and kept again is collapsed, which changes it
exactly if it repeats a name. -/
theorem registrations_survive_reloading (d : Description) :
    d.toMachine = d.states.foldl Machine.add Machine.empty ∧
    d.toMachine.names.Nodup ∧
    d.toMachine.names.Pairwise (fun a b =>
      (d.states.map State.name).idxOf a < (d.states.map State.name).idxOf b) ∧
    (∀ name, d.toMachine.contains name = true ↔ ∃ s ∈ d.states, s.name = name) ∧
    (∀ name s, d.toMachine.find? name = some s ↔
      ∃ before after, d.states = before ++ s :: after ∧ s.name = name ∧
        ∀ t ∈ after, t.name ≠ name) ∧
    d.toMachine.length = (d.states.map State.name).toFinset.card ∧
    (∀ (m : Machine) (e : Emitter), (Description.ofMachine m e).toMachine = m) ∧
    Description.ofMachine d.toMachine d.emitter = { d with states := collapse d.states } ∧
    (Description.ofMachine d.toMachine d.emitter = d ↔ (d.states.map State.name).Nodup) := by
  have hkept : Description.ofMachine d.toMachine d.emitter =
      { d with states := collapse d.states } := by
    show (⟨d.emitter, (Machine.ofStates d.states).states⟩ : Description) = _
    rw [Machine.states_ofStates]
  refine ⟨rfl, d.toMachine.nodup, Machine.pairwise_names_ofStates d.states, ?_, ?_,
    Machine.length_ofStates d.states, ?_, hkept, ?_⟩
  · intro name
    rw [Machine.contains_iff]
    exact Machine.mem_names_ofStates.trans List.mem_map
  · intro name s
    rw [← lastNamed?_eq_some_iff, ← Machine.find?_ofStates]
    rfl
  · intro m e
    exact m.ofStates_states
  · rw [hkept, ← collapse_eq_self_iff]
    constructor
    · intro h
      exact congrArg Description.states h
    · intro h
      rw [h]

end Sequencer
