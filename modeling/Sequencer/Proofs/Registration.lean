import Mathlib.Data.List.Nodup
import Sequencer.Machine

/-!
# Registering states

What registration does to the list of states: a new name goes to the end, and a
known name keeps its place and has its state replaced.  Since names are distinct,
a name has only one place.

## Main Results

* `Machine.states_add_of_notMem`, `Machine.states_add_of_split` — one registration.
* `Machine.names_add`, `Machine.find?_add` — one registration, seen from outside.
* `Machine.states_foldl_add` — registering states with new names one after the other.
* `Machine.flatMap_states_of_mem` — what bears the name of a state comes from that state.
-/

namespace Sequencer.Machine

/-- A new name is registered at the end. -/
theorem states_add_of_notMem {m : Machine} {s : State} (h : s.name ∉ m.names) :
    (m.add s).states = m.states ++ [s] := by
  unfold names at h
  rw [add, dif_neg h]

theorem names_add_of_notMem {m : Machine} {s : State} (h : s.name ∉ m.names) :
    (m.add s).names = m.names ++ [s.name] := by
  rw [names, states_add_of_notMem h, List.map_append]
  rfl

theorem states_add_of_mem {m : Machine} {s : State} (h : s.name ∈ m.names) :
    (m.add s).states = replace s m.states := by
  unfold names at h
  rw [add, dif_pos h]

/-- A known name has its state in one place. -/
theorem exists_split_of_mem {m : Machine} {name : String} (h : name ∈ m.names) :
    ∃ before t after, m.states = before ++ t :: after ∧ t.name = name := by
  obtain ⟨t, ht, hname⟩ := List.mem_map.mp h
  obtain ⟨before, after, hsplit⟩ := List.append_of_mem ht
  exact ⟨before, t, after, hsplit, hname⟩

/-- Around the state of a name there is no other state of that name. -/
theorem name_ne_of_split {m : Machine} {before after : List State} {t : State}
    (hm : m.states = before ++ t :: after) :
    (∀ u ∈ before, u.name ≠ t.name) ∧ ∀ u ∈ after, u.name ≠ t.name := by
  have hnodup := m.nodup
  rw [hm, List.map_append, List.map_cons, List.nodup_append] at hnodup
  obtain ⟨-, htail, hdisjoint⟩ := hnodup
  constructor
  · intro u hu
    exact hdisjoint _ (List.mem_map_of_mem hu) _ List.mem_cons_self
  · intro u hu heq
    exact (List.nodup_cons.mp htail).1 (heq ▸ List.mem_map_of_mem hu)

/-- Of what the states contribute, only one state contributes what bears its name. -/
theorem flatMap_states_of_mem {m : Machine} {s : State} (hs : s ∈ m.states) {α : Type}
    {f : State → List α} (hothers : ∀ t, t.name ≠ s.name → f t = []) :
    m.states.flatMap f = f s := by
  obtain ⟨before, after, hsplit⟩ := List.append_of_mem hs
  obtain ⟨hbefore, hafter⟩ := name_ne_of_split hsplit
  have hnone : before.flatMap f = [] :=
    List.flatMap_eq_nil_iff.mpr fun t ht => hothers t (hbefore t ht)
  have hrest : after.flatMap f = [] :=
    List.flatMap_eq_nil_iff.mpr fun t ht => hothers t (hafter t ht)
  rw [hsplit, List.flatMap_append, List.flatMap_cons, hnone, hrest, List.nil_append,
    List.append_nil]

/-- Replacing leaves states of other names as they are. -/
theorem replace_of_forall_ne {s : State} {states : List State}
    (h : ∀ u ∈ states, u.name ≠ s.name) : replace s states = states := by
  rw [replace]
  conv_rhs => rw [← List.map_id states]
  refine List.map_congr_left fun u hu => ?_
  rw [if_neg (h u hu)]
  rfl

/-- **A known name keeps its place.**  Its state is replaced, and the states
around it stay. -/
theorem states_add_of_split {m : Machine} {before after : List State} {s t : State}
    (hm : m.states = before ++ t :: after) (hname : s.name = t.name) :
    (m.add s).states = before ++ s :: after := by
  obtain ⟨hbefore, hafter⟩ := name_ne_of_split hm
  rw [← hname] at hbefore hafter
  have hmem : s.name ∈ m.names := by
    rw [names, hm, hname]
    simp
  have hsplit : replace s (before ++ t :: after) =
      replace s before ++ s :: replace s after := by
    rw [replace, List.map_append, List.map_cons, if_pos hname.symm]
    rfl
  rw [states_add_of_mem hmem, hm, hsplit, replace_of_forall_ne hbefore,
    replace_of_forall_ne hafter]

/-! ### One registration, seen from outside -/

/-- The names after one registration: only a new name is added, at the end. -/
theorem names_add (m : Machine) (s : State) :
    (m.add s).names = if s.name ∈ m.names then m.names else m.names ++ [s.name] := by
  by_cases h : s.name ∈ m.names
  · rw [if_pos h]
    unfold names
    rw [states_add_of_mem h, map_name_replace]
  · rw [if_neg h, names_add_of_notMem h]

/-- **What is found after one registration**: the new state under its own name, and
what was found before under every other name. -/
theorem find?_add (m : Machine) (s : State) (name : String) :
    (m.add s).find? name = if s.name = name then some s else m.find? name := by
  unfold find?
  by_cases hmem : s.name ∈ m.names
  · obtain ⟨before, t, after, hsplit, hname⟩ := exists_split_of_mem hmem
    rw [states_add_of_split hsplit hname.symm, hsplit, List.find?_append, List.find?_append]
    by_cases heq : s.name = name
    · have hbefore : (before.find? fun u => u.name = name) = none := by
        rw [List.find?_eq_none]
        intro u hu
        simpa [← heq, ← hname] using (name_ne_of_split hsplit).1 u hu
      rw [hbefore, List.find?_cons_of_pos (by simpa using heq), if_pos heq]
      rfl
    · rw [List.find?_cons_of_neg (by simpa using heq),
        List.find?_cons_of_neg (by simpa [hname] using heq), if_neg heq]
  · rw [states_add_of_notMem hmem, List.find?_append]
    by_cases heq : s.name = name
    · have hnone : (m.states.find? fun u => u.name = name) = none := by
        rw [List.find?_eq_none]
        intro u hu
        have hne : u.name ≠ s.name := fun h => hmem (h ▸ List.mem_map_of_mem hu)
        simpa [← heq] using hne
      rw [hnone, if_pos heq, List.find?_cons_of_pos (by simpa using heq)]
      rfl
    · rw [if_neg heq, List.find?_cons_of_neg (by simpa using heq), List.find?_nil, Option.or_none]

/-- A state is found under its name. -/
theorem find?_of_mem {m : Machine} {s : State} (h : s ∈ m.states) : m.find? s.name = some s := by
  obtain ⟨before, after, hsplit⟩ := List.append_of_mem h
  unfold find?
  rw [List.find?_eq_some_iff_append]
  refine ⟨by simp, before, after, hsplit, ?_⟩
  intro t ht
  simpa using (name_ne_of_split hsplit).1 t ht

/-! ### Many registrations -/

/-- **States with new and distinct names are appended in order.** -/
theorem states_foldl_add {m : Machine} {states : List State}
    (hnodup : (states.map State.name).Nodup) (hnew : ∀ s ∈ states, s.name ∉ m.names) :
    (states.foldl add m).states = m.states ++ states := by
  induction states generalizing m with
  | nil => simp
  | cons s states ih =>
      obtain ⟨hs, hrest⟩ := List.nodup_cons.mp hnodup
      obtain ⟨hsnew, hrestnew⟩ := List.forall_mem_cons.mp hnew
      have hstill : ∀ t ∈ states, t.name ∉ (m.add s).names := by
        intro t ht hmem
        rw [names_add_of_notMem hsnew, List.mem_append, List.mem_singleton] at hmem
        rcases hmem with hmem | heq
        · exact hrestnew t ht hmem
        · exact hs (heq ▸ List.mem_map_of_mem ht)
      rw [List.foldl_cons, ih hrest hstill, states_add_of_notMem hsnew, List.append_assoc]
      rfl

/-- A machine of one state. -/
@[simp] theorem states_ofStates_singleton (s : State) : (ofStates [s]).states = [s] := rfl

end Sequencer.Machine
