import Sequencer.Proofs.Layout
import Sequencer.Proofs.Registration
import Sequencer.Proofs.Traversal

/-!
# The code of a machine, block by block

A machine is compiled state by state into one list of lines, which is joined in
the end.  It is shown here that this is the same as joining the texts of the
blocks: the text of a block is what the machine of that one state compiles to, it
is never empty, and it does not depend on the other states.  Where a state cannot
be lined up, its error is all that is returned.

## Main Definitions

* `IsBlockText` — the text that a state compiles to on its own.

## Main Results

* `intercalate_flatten` — joining lines is joining the texts of blocks.
* `Machine.foldlM_emit` — emitting states one after the other appends their blocks.
* `Machine.compile_eq_ok_iff`, `Machine.compile_eq_error_iff` — success and failure.
* `compile_is_blockwise` — all of it, with what follows for machines that
  are put together and for states that are registered again.
-/

namespace Sequencer

/-! ### Joining -/

/-- Lines can be joined block by block, provided that no block is without lines. -/
theorem intercalate_flatten (sep : String) {blocks : List (List String)}
    (h : ∀ b ∈ blocks, b ≠ []) :
    sep.intercalate blocks.flatten = sep.intercalate (blocks.map sep.intercalate) := by
  induction blocks with
  | nil => rfl
  | cons b blocks ih =>
      obtain ⟨hb, hblocks⟩ := List.forall_mem_cons.mp h
      cases blocks with
      | nil => simp
      | cons c blocks =>
          have hc : c ≠ [] := hblocks c List.mem_cons_self
          have hflat : (c :: blocks).flatten ≠ [] := by simp [hc]
          rw [List.flatten_cons, String.intercalate_append_of_ne_nil hb hflat, ih hblocks,
            List.map_cons, List.map_cons, List.map_cons, String.intercalate_cons_cons]

/-! ### The text of a block -/

/-- `text` is what the machine of the state `s` alone compiles to. -/
def IsBlockText (e : Emitter) (s : State) (text : String) : Prop :=
  (Machine.ofStates [s]).compile e = .ok text

namespace Machine

/-- Emitting states one after the other adds their blocks to the lines that are there. -/
theorem foldlM_emit (e : Emitter) (states : List State) (lines : List String) :
    states.foldlM (State.emit e) lines =
      (states.mapM (State.block e)).map fun blocks => lines ++ blocks.flatten := by
  induction states generalizing lines with
  | nil => exact congrArg Except.ok (List.append_nil lines).symm
  | cons s states ih =>
      rw [List.foldlM_cons, List.mapM_cons, State.emit_eq_map]
      cases s.block e with
      | error err => rfl
      | ok block =>
          refine (ih (lines ++ block)).trans ?_
          cases states.mapM (State.block e) with
          | error err => rfl
          | ok blocks => exact congrArg Except.ok (List.append_assoc lines block blocks.flatten)

/-- Compiling is a traversal of the states, and the lines are joined at the end. -/
theorem compile_eq_map (m : Machine) (e : Emitter) :
    m.compile e =
      (m.states.mapM (State.block e)).map fun blocks => "\n".intercalate blocks.flatten := by
  rw [compile, foldlM_emit]
  cases m.states.mapM (State.block e) <;> rfl

end Machine

theorem isBlockText_iff {e : Emitter} {s : State} {text : String} :
    IsBlockText e s text ↔ ∃ lines, s.block e = .ok lines ∧ "\n".intercalate lines = text := by
  rw [IsBlockText, Machine.compile_eq_map, Machine.states_ofStates_singleton, map_eq_ok_iff]
  constructor
  · rintro ⟨blocks, hblocks, htext⟩
    obtain ⟨lines, rest, hlines, hrest, rfl⟩ :=
      List.forall₂_cons_left_iff.mp (mapM_eq_ok_iff.mp hblocks)
    obtain rfl := List.forall₂_nil_left_iff.mp hrest
    exact ⟨lines, hlines, by simpa using htext⟩
  · rintro ⟨lines, hlines, rfl⟩
    exact ⟨[lines], mapM_eq_ok_iff.mpr (.cons hlines .nil), by simp⟩

/-- No block is empty. -/
theorem IsBlockText.ne_empty {e : Emitter} {s : State} {text : String}
    (h : IsBlockText e s text) : text ≠ "" := by
  obtain ⟨lines, hlines, rfl⟩ := isBlockText_iff.mp h
  rw [State.block_eq_map, map_eq_ok_iff] at hlines
  obtain ⟨rows, -, rfl⟩ := hlines
  exact e.text_block_ne_empty _ _

/-- A state has a block exactly when it can be lined up. -/
theorem exists_block_ok_iff {e : Emitter} {s : State} :
    (∃ lines, s.block e = .ok lines) ↔ ∃ rows, s.rows = .ok rows := by
  rw [State.block_eq_map]
  cases s.rows <;> simp [Except.map]

/-- A state that can be lined up has a text. -/
theorem exists_isBlockText {e : Emitter} {s : State} (h : ∃ rows, s.rows = .ok rows) :
    ∃ text, IsBlockText e s text := by
  obtain ⟨lines, hlines⟩ := exists_block_ok_iff.mpr h
  exact ⟨_, isBlockText_iff.mpr ⟨lines, hlines, rfl⟩⟩

theorem block_eq_error_iff {e : Emitter} {s : State} {err : ShapeError} :
    s.block e = .error err ↔ s.rows = .error err := by
  rw [State.block_eq_map, map_eq_error_iff]

theorem block_ne_nil {e : Emitter} {s : State} {lines : List String}
    (h : s.block e = .ok lines) : lines ≠ [] := by
  rw [State.block_eq_map, map_eq_ok_iff] at h
  obtain ⟨rows, -, rfl⟩ := h
  exact List.cons_ne_nil _ _

/-- The texts of states are their lines, joined. -/
theorem forall₂_isBlockText_iff {e : Emitter} {states : List State} {texts : List String} :
    List.Forall₂ (IsBlockText e) states texts ↔
      ∃ blocks, List.Forall₂ (fun s lines => s.block e = .ok lines) states blocks ∧
        blocks.map "\n".intercalate = texts := by
  constructor
  · intro h
    induction h with
    | nil => exact ⟨[], .nil, rfl⟩
    | cons htext _ ih =>
        obtain ⟨lines, hlines, rfl⟩ := isBlockText_iff.mp htext
        obtain ⟨blocks, hblocks, rfl⟩ := ih
        exact ⟨lines :: blocks, .cons hlines hblocks, rfl⟩
  · rintro ⟨blocks, hblocks, rfl⟩
    rw [List.forall₂_map_right_iff]
    exact hblocks.imp fun s lines hlines => isBlockText_iff.mpr ⟨lines, hlines, rfl⟩

theorem ne_nil_of_mem_blocks {e : Emitter} {states : List State} {blocks : List (List String)}
    (h : List.Forall₂ (fun s lines => s.block e = .ok lines) states blocks) :
    ∀ lines ∈ blocks, lines ≠ [] := by
  induction h with
  | nil => simp
  | cons hlines _ ih => exact List.forall_mem_cons.mpr ⟨block_ne_nil hlines, ih⟩

theorem ne_empty_of_mem_texts {e : Emitter} {states : List State} {texts : List String}
    (h : List.Forall₂ (IsBlockText e) states texts) : ∀ text ∈ texts, text ≠ "" := by
  induction h with
  | nil => simp
  | cons htext _ ih => exact List.forall_mem_cons.mpr ⟨htext.ne_empty, ih⟩

/-! ### The text of a machine -/

namespace Machine

variable {m : Machine} {e : Emitter}

/-- A machine compiles to the blocks of its states, joined line by line. -/
theorem compile_eq_ok_iff_blocks {text : String} :
    m.compile e = .ok text ↔
      ∃ blocks, List.Forall₂ (fun s lines => s.block e = .ok lines) m.states blocks ∧
        text = "\n".intercalate blocks.flatten := by
  rw [compile_eq_map, map_eq_ok_iff]
  exact exists_congr fun blocks => and_congr mapM_eq_ok_iff eq_comm

/-- **A machine compiles to the texts of its states, one under the other.** -/
theorem compile_eq_ok_iff {text : String} :
    m.compile e = .ok text ↔
      ∃ texts, List.Forall₂ (IsBlockText e) m.states texts ∧
        "\n".intercalate texts = text := by
  rw [compile_eq_ok_iff_blocks]
  constructor
  · rintro ⟨blocks, hall, rfl⟩
    refine ⟨blocks.map "\n".intercalate, forall₂_isBlockText_iff.mpr ⟨blocks, hall, rfl⟩, ?_⟩
    exact (intercalate_flatten "\n" (ne_nil_of_mem_blocks hall)).symm
  · rintro ⟨texts, htexts, rfl⟩
    obtain ⟨blocks, hall, rfl⟩ := forall₂_isBlockText_iff.mp htexts
    exact ⟨blocks, hall, (intercalate_flatten "\n" (ne_nil_of_mem_blocks hall)).symm⟩

/-- **A machine fails with the error of its first state that cannot be lined up.** -/
theorem compile_eq_error_iff {err : ShapeError} :
    m.compile e = .error err ↔
      ∃ before s after, m.states = before ++ s :: after ∧
        (∀ t ∈ before, ∃ rows, t.rows = .ok rows) ∧ s.rows = .error err := by
  rw [compile_eq_map, map_eq_error_iff, mapM_eq_error_iff]
  simp only [exists_block_ok_iff, block_eq_error_iff]

/-- A machine compiles exactly when each of its states can be lined up. -/
theorem exists_compile_ok_iff :
    (∃ text, m.compile e = .ok text) ↔ ∀ s ∈ m.states, ∃ rows, s.rows = .ok rows := by
  have hblocks : (∃ blocks, m.states.mapM (State.block e) = .ok blocks) ↔
      ∀ s ∈ m.states, ∃ lines, s.block e = .ok lines := exists_mapM_ok_iff
  simp only [exists_block_ok_iff] at hblocks
  rw [← hblocks, compile_eq_map]
  cases m.states.mapM (State.block e) <;> simp [Except.map]

/-- States that can be lined up have texts. -/
theorem exists_blockTexts {states : List State} (h : ∀ s ∈ states, ∃ rows, s.rows = .ok rows) :
    ∃ texts, List.Forall₂ (IsBlockText e) states texts := by
  have hblocks : ∃ blocks, states.mapM (State.block e) = .ok blocks :=
    exists_mapM_ok_iff.mpr fun s hs => exists_block_ok_iff.mpr (h s hs)
  obtain ⟨blocks, hblocks⟩ := hblocks
  exact ⟨_, forall₂_isBlockText_iff.mpr ⟨blocks, mapM_eq_ok_iff.mp hblocks, rfl⟩⟩

/-- Machines without common names are compiled one after the other. -/
theorem compile_foldl_add {n : Machine} (hdisjoint : m.names.Disjoint n.names)
    (hm : m.states ≠ []) (hn : n.states ≠ []) {a b : String} (ha : m.compile e = .ok a)
    (hb : n.compile e = .ok b) :
    (n.states.foldl add m).compile e = .ok (a ++ "\n" ++ b) := by
  obtain ⟨xs, hxs, rfl⟩ := compile_eq_ok_iff.mp ha
  obtain ⟨ys, hys, rfl⟩ := compile_eq_ok_iff.mp hb
  have hstates : (n.states.foldl add m).states = m.states ++ n.states :=
    states_foldl_add n.nodup fun s hs hmem => hdisjoint hmem (List.mem_map_of_mem hs)
  have hxsne : xs ≠ [] := by
    rintro rfl
    exact hm (List.forall₂_nil_right_iff.mp hxs)
  have hysne : ys ≠ [] := by
    rintro rfl
    exact hn (List.forall₂_nil_right_iff.mp hys)
  refine compile_eq_ok_iff.mpr ⟨xs ++ ys, ?_, String.intercalate_append_of_ne_nil hxsne hysne⟩
  rw [hstates]
  exact List.rel_append hxs hys

/-- Registering a state again changes its own block and no other. -/
theorem compile_add_of_mem {s' : State} (hmem : s'.name ∈ m.names) {a a' : String}
    (ha : m.compile e = .ok a) (ha' : (m.add s').compile e = .ok a') :
    ∃ before s after xs t t' ys,
      m.states = before ++ s :: after ∧ s.name = s'.name ∧
      (m.add s').states = before ++ s' :: after ∧
      List.Forall₂ (IsBlockText e) before xs ∧ List.Forall₂ (IsBlockText e) after ys ∧
      IsBlockText e s t ∧ IsBlockText e s' t' ∧
      a = "\n".intercalate (xs ++ t :: ys) ∧ a' = "\n".intercalate (xs ++ t' :: ys) := by
  obtain ⟨before, s, after, hsplit, hname⟩ := exists_split_of_mem hmem
  have hsplit' := states_add_of_split hsplit hname.symm
  have hall := exists_compile_ok_iff.mp ⟨a, ha⟩
  have hall' := exists_compile_ok_iff.mp ⟨a', ha'⟩
  have hrows : ∀ u ∈ before ++ s :: after, ∃ rows, u.rows = .ok rows := hsplit ▸ hall
  have hrows' : ∀ u ∈ before ++ s' :: after, ∃ rows, u.rows = .ok rows := hsplit' ▸ hall'
  obtain ⟨xs, hxs⟩ : ∃ xs, List.Forall₂ (IsBlockText e) before xs :=
    exists_blockTexts fun u hu => hrows u (List.mem_append_left _ hu)
  obtain ⟨ys, hys⟩ : ∃ ys, List.Forall₂ (IsBlockText e) after ys :=
    exists_blockTexts fun u hu => hrows u (by simp [hu])
  obtain ⟨t, ht⟩ : ∃ t, IsBlockText e s t := exists_isBlockText (hrows s (by simp))
  obtain ⟨t', ht'⟩ : ∃ t', IsBlockText e s' t' := exists_isBlockText (hrows' s' (by simp))
  -- both machines join the same texts around the place of the state
  have hjoin : ∀ {n : Machine} {u : State} {v : String}, n.states = before ++ u :: after →
      IsBlockText e u v → n.compile e = .ok ("\n".intercalate (xs ++ v :: ys)) := by
    intro n u v hn hv
    refine compile_eq_ok_iff.mpr ⟨xs ++ v :: ys, ?_, rfl⟩
    rw [hn]
    exact List.rel_append hxs (.cons hv hys)
  exact ⟨before, s, after, xs, t, t', ys, hsplit, hname, hsplit', hxs, hys, ht, ht',
    Except.ok.inj (ha.symm.trans (hjoin hsplit ht)),
    Except.ok.inj (ha'.symm.trans (hjoin hsplit' ht'))⟩

end Machine

/-- **The code of a machine is the code of its states.**  The empty machine has the
empty text.  Where every state can be lined up, the machine compiles to the texts
of its states on their own, in order of registration and one under the other, and
no such text is empty.  Otherwise it fails with the error of the first state that
cannot be lined up.  It follows that machines without common names are compiled
one after the other, and that registering a state again changes only its block. -/
theorem compile_is_blockwise (m : Machine) (e : Emitter) :
    Machine.empty.compile e = .ok "" ∧
    ((∀ s ∈ m.states, ∃ rows, expand s.name s.output s.rule = .ok rows) →
      ∃ texts, List.Forall₂ (IsBlockText e) m.states texts ∧ (∀ t ∈ texts, t ≠ "") ∧
        m.compile e = .ok ("\n".intercalate texts)) ∧
    ((¬ ∀ s ∈ m.states, ∃ rows, expand s.name s.output s.rule = .ok rows) →
      ∃ before s after err, m.states = before ++ s :: after ∧
        (∀ t ∈ before, ∃ rows, expand t.name t.output t.rule = .ok rows) ∧
        expand s.name s.output s.rule = .error err ∧ m.compile e = .error err) ∧
    (∀ n : Machine, m.names.Disjoint n.names → m.states ≠ [] → n.states ≠ [] →
      ∀ a b, m.compile e = .ok a → n.compile e = .ok b →
        (n.states.foldl Machine.add m).compile e = .ok (a ++ "\n" ++ b)) ∧
    ∀ s', s'.name ∈ m.names →
      ∀ a a', m.compile e = .ok a → (m.add s').compile e = .ok a' →
        ∃ before s after xs t t' ys,
          m.states = before ++ s :: after ∧ s.name = s'.name ∧
          (m.add s').states = before ++ s' :: after ∧
          List.Forall₂ (IsBlockText e) before xs ∧ List.Forall₂ (IsBlockText e) after ys ∧
          IsBlockText e s t ∧ IsBlockText e s' t' ∧
          a = "\n".intercalate (xs ++ t :: ys) ∧ a' = "\n".intercalate (xs ++ t' :: ys) := by
  refine ⟨rfl, fun hall => ?_, fun hnot => ?_, fun n hdisjoint hm hn a b ha hb => ?_,
    fun s' hmem a a' ha ha' => ?_⟩
  · obtain ⟨texts, htexts⟩ := Machine.exists_blockTexts hall
    exact ⟨texts, htexts, ne_empty_of_mem_texts htexts,
      Machine.compile_eq_ok_iff.mpr ⟨texts, htexts, rfl⟩⟩
  · have hfails : ¬ ∃ text, m.compile e = .ok text :=
      fun hok => hnot (Machine.exists_compile_ok_iff.mp hok)
    obtain ⟨err, herr⟩ := exists_error_of_not_ok hfails
    obtain ⟨before, s, after, hsplit, hbefore, hs⟩ := Machine.compile_eq_error_iff.mp herr
    exact ⟨before, s, after, err, hsplit, hbefore, hs, herr⟩
  · exact Machine.compile_foldl_add hdisjoint hm hn ha hb
  · exact Machine.compile_add_of_mem hmem ha ha'

/-- A state that raises one flag and goes on to `target`. -/
def passing (name target : String) : State where
  name
  output := Output.empty.drive .finished (.single "1")
  rule := some (Rule.always target)

/-- A state with a signal that is driven to no value at all. -/
def undriven : State where
  name := "STUCK"
  output := Output.empty.drive .readA ⟨[]⟩
  rule := none

/-- Two states that pass on to each other. -/
def passingPair : Machine := Machine.ofStates [passing "A" "B", passing "B" "A"]

/-- The pair is compiled state by state; a state in front of it that cannot be lined
up hides it; it can be put together from its states; and where one of its states is
registered again, the text of the other stays. -/
theorem compile_of_passingPair :
    (∃ texts, List.Forall₂ (IsBlockText .standard) passingPair.states texts ∧
      passingPair.compile .standard = .ok ("\n".intercalate texts)) ∧
    (∃ err, expand undriven.name undriven.output undriven.rule = .error err ∧
      (Machine.ofStates (undriven :: passingPair.states)).compile .standard = .error err) ∧
    (∃ a b, (Machine.ofStates [passing "A" "B"]).compile .standard = .ok a ∧
      (Machine.ofStates [passing "B" "A"]).compile .standard = .ok b ∧
      passingPair.compile .standard = .ok (a ++ "\n" ++ b)) ∧
    ∃ xs t t' ys, IsBlockText .standard (passing "B" "B") t' ∧
      passingPair.compile .standard = .ok ("\n".intercalate (xs ++ t :: ys)) ∧
      (passingPair.add (passing "B" "B")).compile .standard =
        .ok ("\n".intercalate (xs ++ t' :: ys)) := by
  have hstates : passingPair.states = [passing "A" "B", passing "B" "A"] := rfl
  have hstuck : expand undriven.name undriven.output undriven.rule =
      .error ⟨"STUCK", .attribute .readA, 1, 0⟩ := rfl
  refine ⟨?_, ?_, ?_, ?_⟩
  · obtain ⟨-, hok, -⟩ := compile_is_blockwise passingPair .standard
    obtain ⟨texts, htexts, -, hcompile⟩ := hok (by
      rw [hstates, List.forall_mem_cons, List.forall_mem_singleton]
      exact ⟨⟨_, rfl⟩, ⟨_, rfl⟩⟩)
    exact ⟨texts, htexts, hcompile⟩
  · obtain ⟨-, -, hfail, -⟩ :=
      compile_is_blockwise (Machine.ofStates (undriven :: passingPair.states)) .standard
    obtain ⟨before, s, after, err, hsplit, hbefore, hs, hcompile⟩ := hfail (by
      intro hall
      obtain ⟨rows, hrows⟩ := hall undriven List.mem_cons_self
      cases hstuck.symm.trans hrows)
    cases before with
    | nil =>
        obtain rfl : undriven = s := (List.cons.inj hsplit).1
        exact ⟨err, hs, hcompile⟩
    | cons t before =>
        obtain rfl : undriven = t := (List.cons.inj hsplit).1
        obtain ⟨rows, hrows⟩ := hbefore undriven List.mem_cons_self
        cases hstuck.symm.trans hrows
  · obtain ⟨-, -, -, hjoin, -⟩ :=
      compile_is_blockwise (Machine.ofStates [passing "A" "B"]) .standard
    have hdisjoint : ["A"].Disjoint ["B"] := by simp
    exact ⟨_, _, rfl, rfl, hjoin (Machine.ofStates [passing "B" "A"]) hdisjoint (by decide)
      (by decide) _ _ rfl rfl⟩
  · obtain ⟨-, -, -, -, hagain⟩ := compile_is_blockwise passingPair .standard
    obtain ⟨before, s, after, xs, t, t', ys, -, -, -, -, -, -, ht', ha, ha'⟩ :=
      hagain (passing "B" "B") (by decide) _ _ rfl rfl
    exact ⟨xs, t, t', ys, ht', congrArg Except.ok ha, congrArg Except.ok ha'⟩

end Sequencer
