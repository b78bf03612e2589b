import Sequencer.Proofs.Broadcast
import Sequencer.Proofs.Layout

/-!
# What the code of a state does

The code of a state assigns its signals once before the rows and again in every
row, and each guarded row may have an else body of its own.  Since the last
assignment wins, only one row matters: the last one that *fires*.  A row fires if
it is unconditional, if its guard holds, or if there is an else target, in which
case one of its two bodies is executed whatever the guard says.

The proof follows the rows.  Executing a row that fires lays its values over what
was assigned before (`Effect.overlay`), executing any other row changes nothing.
That nothing shines through from below needs an invariant (`KeepsTo`): all
rows of a state assign the same signals, and all of them move on or none does.

## Main Definitions

* `Row.Fires`, `Row.taken` — when a row has an effect, and where it goes then.
* `IsLastFiring` — the last row that fires.
* `Effect.overlay` — the assignments of a row on top of earlier ones.
* `KeepsTo` — the invariant of execution.

## Main Results

* `execItems_of_fires`, `execItems_of_not_fires` — one row.
* `run_eq_of_isLastFiring`, `run_eq_of_none_fires` — all rows.
* `block_means_last_firing_row` — lines and meaning of the code of a state.
-/

namespace Sequencer

/-! ### Rows that fire -/

namespace Row

/-- A row has an effect: it is unconditional, its guard holds, or there is an
else target. -/
def Fires (holds : String → Bool) (elseTarget : Option String) (row : Row) : Prop :=
  row.condition = always ∨ holds row.condition = true ∨ elseTarget ≠ none

instance (holds : String → Bool) (elseTarget : Option String) (row : Row) :
    Decidable (row.Fires holds elseTarget) :=
  inferInstanceAs (Decidable (_ ∨ _ ∨ _))

/-- Where a row goes: to the else target if it is guarded and the guard fails. -/
def taken (holds : String → Bool) (elseTarget : Option String) (row : Row) : Option String :=
  if row.condition = always ∨ holds row.condition = true then row.target else elseTarget

/-- A row that fires although it is guarded and its guard fails has an else target. -/
theorem Fires.elseTarget_ne_none {holds : String → Bool} {elseTarget : Option String}
    {row : Row} (h : row.Fires holds elseTarget)
    (hguard : ¬ (row.condition = always ∨ holds row.condition = true)) :
    elseTarget ≠ none :=
  (or_assoc.mpr h).resolve_left hguard

/-- A row that fires goes somewhere if it has a target at all. -/
theorem Fires.taken_ne_none {holds : String → Bool} {elseTarget : Option String}
    {row : Row} (h : row.Fires holds elseTarget) (htarget : row.target ≠ none) :
    row.taken holds elseTarget ≠ none := by
  by_cases hguard : row.condition = always ∨ holds row.condition = true
  · rwa [taken, if_pos hguard]
  · rw [taken, if_neg hguard]
    exact h.elseTarget_ne_none hguard

/-- The row lists each of its signals once, in canonical order. -/
def IsListed (row : Row) : Prop := ∃ m : SignalMap String, row.assignments = m.toList

end Row

/-- `row` is the last one that fires. -/
def IsLastFiring (holds : String → Bool) (elseTarget : Option String) (rows : List Row)
    (row : Row) : Prop :=
  ∃ before after, rows = before ++ row :: after ∧ row.Fires holds elseTarget ∧
    ∀ r ∈ after, ¬ r.Fires holds elseTarget

/-- Where some row fires, there is a last one that does. -/
theorem exists_isLastFiring {holds : String → Bool} {elseTarget : Option String}
    {rows : List Row} (h : ∃ row ∈ rows, row.Fires holds elseTarget) :
    ∃ row, IsLastFiring holds elseTarget rows row := by
  induction rows with
  | nil => simp at h
  | cons r rows ih =>
      by_cases hlater : ∃ row ∈ rows, row.Fires holds elseTarget
      · obtain ⟨row, before, after, rfl, hrow, hafter⟩ := ih hlater
        exact ⟨row, r :: before, after, rfl, hrow, hafter⟩
      · obtain ⟨row, hmem, hrow⟩ := h
        rcases List.mem_cons.mp hmem with rfl | hmem
        · exact ⟨row, [], rows, rfl, hrow, fun t ht hfires => hlater ⟨t, ht, hfires⟩⟩
        · exact absurd ⟨row, hmem, hrow⟩ hlater

/-! ### Executing one row -/

namespace Effect

/-- The assignments of a row and a move to `target`, on top of earlier effects. -/
def overlay (e : Effect) (row : Row) (target : Option String) : Effect :=
  ⟨⟨fun s => (row.value? s).or (e.signals.get? s)⟩, target.or e.next⟩

@[simp] theorem get?_overlay (e : Effect) (row : Row) (target : Option String) (s : Signal) :
    (e.overlay row target).signals.get? s = (row.value? s).or (e.signals.get? s) := rfl

@[simp] theorem next_overlay (e : Effect) (row : Row) (target : Option String) :
    (e.overlay row target).next = target.or e.next := rfl

theorem execAll_append (e : Effect) (xs ys : List Statement) :
    e.execAll (xs ++ ys) = (e.execAll xs).execAll ys :=
  List.foldl_append

/-- Assignments touch the signals only. -/
theorem execAll_assign (e : Effect) (pairs : List (Signal × String)) :
    e.execAll (pairs.map fun p => .assign p.1 p.2) =
      ⟨pairs.foldl (fun m p => m.set p.1 p.2) e.signals, e.next⟩ := by
  induction pairs generalizing e with
  | nil => rfl
  | cons p pairs ih => exact ih _

/-- A move touches the next state only. -/
theorem execAll_goto (e : Effect) (target : Option String) :
    e.execAll (target.toList.map .goto) = ⟨e.signals, target.or e.next⟩ := by
  cases target <;> rfl

/-- The body of a row lays its values over the earlier ones. -/
theorem execAll_body (e : Effect) {row : Row} (hrow : row.IsListed) (target : Option String) :
    e.execAll (row.body target) = e.overlay row target := by
  obtain ⟨m, hm⟩ := hrow
  rw [Row.body, execAll_append, execAll_assign, execAll_goto, overlay]
  congr 1
  ext1 s
  show _ = (row.value? s).or (e.signals.get? s)
  rw [hm, SignalMap.get?_foldl_set_toList, Row.value?_of_listed hm]

/-- Statements outside of any guard are executed one after the other. -/
theorem foldl_execItem_plain (holds : String → Bool) (e : Effect) (xs : List Statement) :
    (xs.map Item.plain).foldl (execItem holds) e = e.execAll xs := by
  rw [List.foldl_map]
  rfl

end Effect

section Items

variable {holds : String → Bool} {elseTarget : Option String} {row : Row}

/-- An unconditional row becomes its body. -/
theorem items_of_always (elseTarget : Option String) (h : row.condition = always) :
    row.items elseTarget = (row.body row.target).map .plain :=
  if_pos (decide_eq_true h)

/-- A row that is not unconditional becomes one guard. -/
theorem items_of_guarded (elseTarget : Option String) (h : row.condition ≠ always) :
    row.items elseTarget =
      [.guarded row.condition (row.body row.target)
        (elseTarget.map fun t => row.body (some t))] :=
  if_neg (by simpa [Row.isUnconditional] using h)

/-- **A row that fires lays its values over the earlier ones** and moves on. -/
theorem execItems_of_fires (e : Effect) (hrow : row.IsListed)
    (h : row.Fires holds elseTarget) :
    (row.items elseTarget).foldl (Effect.execItem holds) e =
      e.overlay row (row.taken holds elseTarget) := by
  by_cases halways : row.condition = always
  · rw [items_of_always elseTarget halways, Effect.foldl_execItem_plain, e.execAll_body hrow,
      Row.taken, if_pos (Or.inl halways)]
  · rw [items_of_guarded elseTarget halways, List.foldl_cons, List.foldl_nil, Effect.execItem]
    by_cases hguard : holds row.condition = true
    · rw [if_pos hguard, e.execAll_body hrow, Row.taken, if_pos (Or.inr hguard)]
    · -- neither unconditional nor guarded by what holds: there is an else target
      have hneither := not_or.mpr ⟨halways, hguard⟩
      obtain ⟨t, ht⟩ : ∃ t, elseTarget = some t :=
        Option.ne_none_iff_exists'.mp (h.elseTarget_ne_none hneither)
      rw [if_neg hguard, Row.taken, if_neg hneither, ht]
      exact e.execAll_body hrow (some t)

/-- A row that does not fire has no effect. -/
theorem execItems_of_not_fires (e : Effect) (h : ¬ row.Fires holds elseTarget) :
    (row.items elseTarget).foldl (Effect.execItem holds) e = e := by
  obtain ⟨halways, hrest⟩ := not_or.mp h
  obtain ⟨hguard, helse⟩ := not_or.mp hrest
  rw [items_of_guarded elseTarget halways, not_not.mp helse, List.foldl_cons, List.foldl_nil,
    Effect.execItem, if_neg hguard]
  rfl

end Items

/-! ### Executing all rows -/

/-- Executes the code of rows, one after the other. -/
def execRows (holds : String → Bool) (elseTarget : Option String) (rows : List Row)
    (e : Effect) : Effect :=
  (rows.flatMap (Row.items elseTarget)).foldl (Effect.execItem holds) e

section Rows

variable {holds : String → Bool} {elseTarget : Option String}

theorem execRows_cons (row : Row) (rows : List Row) (e : Effect) :
    execRows holds elseTarget (row :: rows) e =
      execRows holds elseTarget rows
        ((row.items elseTarget).foldl (Effect.execItem holds) e) := by
  rw [execRows, List.flatMap_cons, List.foldl_append]
  rfl

theorem execRows_append (xs ys : List Row) (e : Effect) :
    execRows holds elseTarget (xs ++ ys) e =
      execRows holds elseTarget ys (execRows holds elseTarget xs e) := by
  rw [execRows, List.flatMap_append, List.foldl_append]
  rfl

/-- Rows that do not fire have no effect. -/
theorem execRows_of_none_fires {rows : List Row}
    (h : ∀ row ∈ rows, ¬ row.Fires holds elseTarget) (e : Effect) :
    execRows holds elseTarget rows e = e := by
  induction rows with
  | nil => rfl
  | cons row rows ih =>
      obtain ⟨hrow, hrows⟩ := List.forall_mem_cons.mp h
      rw [execRows_cons, execItems_of_not_fires e hrow]
      exact ih hrows

/-- **Only the last row that fires is on top.**  What lies below it is the effect
of the rows before it. -/
theorem execRows_of_lastFiring {before after : List Row} {row : Row} (hrow : row.IsListed)
    (hfires : row.Fires holds elseTarget) (hafter : ∀ r ∈ after, ¬ r.Fires holds elseTarget)
    (e : Effect) :
    execRows holds elseTarget (before ++ row :: after) e =
      (execRows holds elseTarget before e).overlay row (row.taken holds elseTarget) := by
  rw [execRows_append, execRows_cons, execItems_of_fires _ hrow hfires,
    execRows_of_none_fires hafter]

end Rows

/-! ### The invariant of execution -/

/-- Only driven signals are assigned, and a next state only where there is a rule. -/
structure KeepsTo (o : Output) (rule : Option Rule) (e : Effect) : Prop where
  signals : ∀ s, o.values.get? s = none → e.signals.get? s = none
  next : rule = none → e.next = none

namespace KeepsTo

variable {o : Output} {rule : Option Rule} {e : Effect}

/-- Nothing is assigned at the start. -/
theorem start : KeepsTo o rule Effect.none := ⟨fun _ _ => rfl, fun _ => rfl⟩

/-- One row: a case of the state keeps to the signals of the state. -/
theorem overlay (h : KeepsTo o rule e) {i : Nat} {row : Row} (hcase : IsCase o rule i row)
    {target : Option String} (htarget : rule = none → target = none) :
    KeepsTo o rule (e.overlay row target) := by
  constructor
  · intro s hs
    rw [Effect.get?_overlay, hcase.value?_eq, hs, h.signals s hs]
    rfl
  · intro hrule
    rw [Effect.next_overlay, htarget hrule, h.next hrule]
    rfl

/-- All rows: executing cases of the state keeps to the signals of the state. -/
theorem execRows {holds : String → Bool} {elseTarget : Option String}
    (helse : rule = none → elseTarget = none) {rows : List Row}
    (hrows : ∀ row ∈ rows, ∃ i, IsCase o rule i row) (h : KeepsTo o rule e) :
    KeepsTo o rule (Sequencer.execRows holds elseTarget rows e) := by
  induction rows generalizing e with
  | nil => exact h
  | cons row rows ih =>
      obtain ⟨⟨i, hcase⟩, hrows⟩ := List.forall_mem_cons.mp hrows
      rw [execRows_cons]
      refine ih hrows ?_
      by_cases hfires : row.Fires holds elseTarget
      · rw [execItems_of_fires e ⟨_, hcase.assignments⟩ hfires]
        refine h.overlay hcase fun hrule => ?_
        have htarget : row.target = none := by rw [hcase.target, hrule]; rfl
        rw [Row.taken, htarget, helse hrule, ite_self]
      · rw [execItems_of_not_fires e hfires]
        exact h

end KeepsTo

/-! ### What stands before the rows -/

/-- Assigning a signal that may have no value. -/
theorem Effect.execAll_assign_toList (e : Effect) (s : Signal) (value : Option String) :
    e.execAll (value.toList.map (.assign s)) =
      ⟨⟨fun t => if t = s then value.or (e.signals.get? t) else e.signals.get? t⟩, e.next⟩ := by
  cases value with
  | none => simp [execAll]
  | some v => rfl

/-- Text search finds exactly the runs of consecutive characters. -/
theorem Text.occursIn_iff {needle cs : List Char} :
    Text.occursIn needle cs = true ↔ needle <:+: cs := by
  induction cs with
  | nil => simp [Text.occursIn]
  | cons c cs ih =>
      rw [Text.occursIn, Bool.or_eq_true, ih, List.isPrefixOf_iff_prefix, List.infix_cons_iff]

/-- Some condition contains the text that marks a use of the second read address. -/
def ReadsMarked (marker : String) (rows : List Row) : Prop :=
  ∃ row ∈ rows, marker.toList <:+: row.condition.toList

theorem any_occursIn_iff {marker : String} {rows : List Row} :
    (rows.any fun r => Text.occursIn marker.toList r.condition.toList) = true ↔
      ReadsMarked marker rows := by
  simp only [List.any_eq_true, Text.occursIn_iff, ReadsMarked]

/-- What is assigned before the rows of a state. -/
def preloaded (marker : String) (rows : List Row) : Effect :=
  Effect.none.execAll (Program.preloads marker rows)

section Preloads

variable {marker : String} {first : Row} {rest : List Row}

/-- The first row's end marker is assigned, its second read address if some
condition uses it, and nothing else. -/
theorem preloaded_cons (marker : String) (first : Row) (rest : List Row) :
    preloaded marker (first :: rest) =
      ⟨⟨fun s =>
        if s = .finished then first.value? .finished
        else if s = .readB ∧
          ((first :: rest).any fun r => Text.occursIn marker.toList r.condition.toList) then
          first.value? .readB
        else none⟩, none⟩ := by
  have hstart : ∀ s, Effect.none.signals.get? s = none := fun _ => rfl
  rw [preloaded, Program.preloads, Effect.execAll_append, Effect.execAll_assign_toList]
  by_cases hmarked :
      ((first :: rest).any fun r => Text.occursIn marker.toList r.condition.toList) = true
  · rw [if_pos hmarked, Effect.execAll_assign_toList]
    congr 1
    ext1 s
    by_cases hf : s = .finished
    · simp [hf, hstart]
    · by_cases hb : s = .readB <;> simp [hf, hb, hmarked, hstart]
  · rw [if_neg hmarked]
    congr 1
    ext1 s
    by_cases hf : s = .finished <;> simp [hf, hmarked, Effect.execAll, hstart]

theorem next_preloaded : (preloaded marker (first :: rest)).next = none := by
  rw [preloaded_cons]

theorem finished_preloaded :
    (preloaded marker (first :: rest)).signals.get? .finished = first.value? .finished := by
  rw [preloaded_cons]
  rfl

theorem readB_preloaded_of_marked (h : ReadsMarked marker (first :: rest)) :
    (preloaded marker (first :: rest)).signals.get? .readB = first.value? .readB := by
  rw [preloaded_cons]
  dsimp only
  rw [if_neg (by decide), if_pos ⟨rfl, any_occursIn_iff.mpr h⟩]

theorem readB_preloaded_of_not_marked (h : ¬ ReadsMarked marker (first :: rest)) :
    (preloaded marker (first :: rest)).signals.get? .readB = none := by
  rw [preloaded_cons]
  dsimp only
  rw [if_neg (by decide), if_neg fun hb => h (any_occursIn_iff.mp hb.2)]

theorem preloaded_of_ne {s : Signal} (hb : s ≠ .readB) (hf : s ≠ .finished) :
    (preloaded marker (first :: rest)).signals.get? s = none := by
  rw [preloaded_cons]
  simp [hb, hf]

/-- Before the rows, too, only driven signals are assigned. -/
theorem KeepsTo.preloaded {o : Output} {rule : Option Rule} {rows : List Row}
    (hrows : ∀ row ∈ rows, ∃ i, IsCase o rule i row) :
    KeepsTo o rule (preloaded marker rows) := by
  cases rows with
  | nil => exact KeepsTo.start
  | cons first rest =>
      obtain ⟨i, hcase⟩ := hrows first List.mem_cons_self
      refine ⟨fun s hs => ?_, fun _ => next_preloaded⟩
      have hvalue : first.value? s = none := by rw [hcase.value?_eq, hs]; rfl
      rw [preloaded_cons]
      by_cases hf : s = .finished
      · subst hf
        simpa using hvalue
      · by_cases hb : s = .readB
        · subst hb
          simp [hvalue]
        · simp [hf, hb]

end Preloads

/-! ### The code of a state -/

/-- A program of rows runs what stands before them, and then the rows. -/
theorem run_ofRows (holds : String → Bool) (marker : String) (elseTarget : Option String)
    (rows : List Row) :
    (Program.ofRows marker elseTarget rows).run holds =
      execRows holds elseTarget rows (preloaded marker rows) := by
  rw [Program.run, Program.ofRows, List.foldl_append, Effect.foldl_execItem_plain]
  rfl

section State

variable {state : String} {o : Output} {rule : Option Rule} {rows : List Row}

/-- Every row of a state holds one of its cases. -/
theorem exists_isCase_of_mem (h : expand state o rule = .ok rows) {row : Row}
    (hmem : row ∈ rows) : ∃ i, i < rows.length ∧ IsCase o rule i row := by
  obtain ⟨i, hi, rfl⟩ := List.mem_iff_getElem.mp hmem
  exact ⟨i, hi, isCase_of_expand h i hi⟩

/-- A row has a value for exactly the driven signals. -/
theorem value?_eq_none_iff (h : expand state o rule = .ok rows) {row : Row}
    (hmem : row ∈ rows) (s : Signal) : row.value? s = none ↔ o.values.get? s = none := by
  obtain ⟨i, hi, hcase⟩ := exists_isCase_of_mem h hmem
  rw [hcase.value?_eq]
  cases hs : o.values.get? s with
  | none => simp
  | some c =>
      obtain ⟨v, hv⟩ := ((fits_of_expand h).suits hs).exists_textAt hi
      simp [hv]

/-- Where there is a rule, every row has a target. -/
theorem target_ne_none (h : expand state o rule = .ok rows) {row : Row} (hmem : row ∈ rows)
    (hrule : rule ≠ none) : row.target ≠ none := by
  obtain ⟨i, hi, hcase⟩ := exists_isCase_of_mem h hmem
  obtain ⟨r, rfl⟩ := Option.ne_none_iff_exists'.mp hrule
  obtain ⟨t, ht⟩ := ((fits_of_expand h).targets r rfl).exists_textAt hi
  rw [hcase.target, Option.bind_some, ht]
  exact Option.some_ne_none t

variable {holds : String → Bool} {row : Row}

/-- **The last row that fires decides.**  Every signal has the value of that row,
and the next state is where that row goes. -/
theorem run_eq_of_isLastFiring (marker : String) (h : expand state o rule = .ok rows)
    (hlast : IsLastFiring holds (rule.bind Rule.elseTarget) rows row) :
    ((Program.ofRows marker (rule.bind Rule.elseTarget) rows).run holds).next =
        row.taken holds (rule.bind Rule.elseTarget) ∧
      ∀ s, ((Program.ofRows marker (rule.bind Rule.elseTarget) rows).run holds).signals.get? s =
        row.value? s := by
  obtain ⟨before, after, rfl, hfires, hafter⟩ := hlast
  have hmem : row ∈ before ++ row :: after := by simp
  have hcases : ∀ r ∈ before ++ row :: after, ∃ i, IsCase o rule i r := by
    intro r hr
    obtain ⟨i, -, hcase⟩ := exists_isCase_of_mem h hr
    exact ⟨i, hcase⟩
  obtain ⟨i, hcase⟩ := hcases row hmem
  have helse : rule = none → rule.bind Rule.elseTarget = none := by
    rintro rfl
    rfl
  -- the effect below the last row: what stands before the rows, and the earlier rows
  have hbelow : KeepsTo o rule (execRows holds (rule.bind Rule.elseTarget) before
      (preloaded marker (before ++ row :: after))) :=
    (KeepsTo.preloaded hcases).execRows helse fun r hr => hcases r (List.mem_append_left _ hr)
  rw [run_ofRows, execRows_of_lastFiring ⟨_, hcase.assignments⟩ hfires hafter]
  constructor
  · rw [Effect.next_overlay]
    by_cases hrule : rule = none
    · rw [hbelow.next hrule, Option.or_none]
    · obtain ⟨t, ht⟩ := Option.ne_none_iff_exists'.mp
        (hfires.taken_ne_none (target_ne_none h hmem hrule))
      rw [ht, Option.some_or]
  · intro s
    rw [Effect.get?_overlay]
    cases hv : row.value? s with
    | none => rw [hbelow.signals s ((value?_eq_none_iff h hmem s).mp hv), Option.or_none]
    | some v => rw [Option.some_or]

/-- Where no row fires, only what stands before the rows is assigned. -/
theorem run_eq_of_none_fires (marker : String) {elseTarget : Option String}
    (hnone : ∀ r ∈ rows, ¬ r.Fires holds elseTarget) :
    (Program.ofRows marker elseTarget rows).run holds = preloaded marker rows := by
  rw [run_ofRows, execRows_of_none_fires hnone]

end State

/-- The else target of a rule is its given one, unless that is empty. -/
theorem Rule.elseTarget_eq_some_iff {r : Rule} {t : String} :
    r.elseTarget = some t ↔ r.otherwise = some t ∧ t ≠ "" := by
  simp [Rule.elseTarget, Option.filter_eq_some_iff]

theorem State.elseTarget_eq_some_iff {s : State} {t : String} :
    s.elseTarget = some t ↔ ∃ r, s.rule = some r ∧ r.otherwise = some t ∧ t ≠ "" := by
  simp only [State.elseTarget, Option.bind_eq_some_iff, Rule.elseTarget_eq_some_iff]

/-- **What the code of a state means.**  There is one program whose layout are the
lines of the state, whatever the conditions are and whatever stands before: the
header, and below it the outline of the program.  Run with any conditions holding,
it behaves as the last row that fires says: every driven signal has the value of that
row, no other signal is assigned, and the next state is the target of the row, or the
else target if the row is guarded and its guard fails.  Where no row fires, there is
no next state, and only the first row's end marker is assigned, and its second read
address if some condition uses the data read with it. -/
theorem block_means_last_firing_row (e : Emitter) (s : State) (rows : List Row)
    (h : expand s.name s.output s.rule = .ok rows) :
    (∀ t, s.elseTarget = some t ↔ ∃ r, s.rule = some r ∧ r.otherwise = some t ∧ t ≠ "") ∧
    ∃ p : Program,
      (∀ lines, e.emit s.name s.rule rows lines =
        lines ++ (e.stateRegister ++ "." ++ s.name ++ ":") ::
          (p.outline e.stateRegister).map e.indented) ∧
      s.block e = .ok ((e.stateRegister ++ "." ++ s.name ++ ":") ::
        (p.outline e.stateRegister).map e.indented) ∧
      ∀ holds : String → Bool,
        ((∃ row ∈ rows, row.Fires holds s.elseTarget) →
          ∃ row, IsLastFiring holds s.elseTarget rows row ∧
          (∀ signal v, (signal, v) ∈ row.assignments →
            (p.run holds).signals.get? signal = some v) ∧
          (∀ signal, (p.run holds).signals.get? signal = none ↔
            s.output.values.get? signal = none) ∧
          (row.condition = always ∨ holds row.condition = true →
            (p.run holds).next = row.target) ∧
          (row.condition ≠ always → holds row.condition = false →
            (p.run holds).next = s.elseTarget)) ∧
        ((∀ row ∈ rows, ¬ row.Fires holds s.elseTarget) →
          (p.run holds).next = none ∧
          ∃ first rest, rows = first :: rest ∧
            (p.run holds).signals.get? .finished = first.value? .finished ∧
            (ReadsMarked e.readMarker rows →
              (p.run holds).signals.get? .readB = first.value? .readB) ∧
            (¬ ReadsMarked e.readMarker rows → (p.run holds).signals.get? .readB = none) ∧
            ∀ signal, signal ≠ .readB → signal ≠ .finished →
              (p.run holds).signals.get? signal = none) := by
  refine ⟨fun t => State.elseTarget_eq_some_iff,
    Program.ofRows e.readMarker s.elseTarget rows,
    e.emit_eq_outline s.name s.rule rows, State.block_of_rows e h, fun holds => ⟨?_, ?_⟩⟩
  · intro hfires
    obtain ⟨row, hlast⟩ := exists_isLastFiring hfires
    obtain ⟨hnext, hsignals⟩ := run_eq_of_isLastFiring e.readMarker h hlast
    refine ⟨row, hlast, ?_⟩
    obtain ⟨before, after, hrows, -, -⟩ := hlast
    have hmem : row ∈ rows := by simp [hrows]
    obtain ⟨i, -, hcase⟩ := exists_isCase_of_mem h hmem
    refine ⟨fun signal v hv => ?_, fun signal => ?_, fun hguard => ?_, fun halways hguard => ?_⟩
    · rw [hcase.assignments, SignalMap.mem_toList] at hv
      exact (hsignals signal).trans ((Row.value?_of_listed hcase.assignments signal).trans hv)
    · rw [← value?_eq_none_iff h hmem signal, ← hsignals signal]
      rfl
    · exact hnext.trans (if_pos hguard)
    · exact hnext.trans (if_neg (by simp [halways, hguard]))
  · intro hnone
    obtain ⟨first, rest, rfl⟩ : ∃ first rest, rows = first :: rest :=
      List.exists_cons_of_length_pos (fits_of_expand h).pos
    rw [run_eq_of_none_fires e.readMarker hnone]
    exact ⟨next_preloaded, first, rest, rfl, finished_preloaded, readB_preloaded_of_marked,
      readB_preloaded_of_not_marked, fun signal hb hf => preloaded_of_ne hb hf⟩

/-- The rows of `placing`. -/
def placingRows : List Row :=
  [⟨"go", [(.readB, "r0"), (.finished, "1")], some "NEXT"⟩,
    ⟨"rb_data == 0", [(.readB, "r1"), (.finished, "1")], some "NEXT"⟩]

/-- The first guard holds and the second fails: the else target of the second row
wins over the target of the first. -/
theorem block_of_placing_retries :
    expand "PLACE" placing.output placing.rule = .ok placingRows ∧
      ∃ p : Program,
        placing.block .standard = .ok ("game_state.PLACE:" ::
          (p.outline "game_state").map Emitter.standard.indented) ∧
        (p.run fun c => c = "go").next = some "RETRY" ∧
        (p.run fun c => c = "go").signals.get? .readB = some "r1" := by
  have hrows : expand "PLACE" placing.output placing.rule = .ok placingRows := rfl
  obtain ⟨-, p, -, hblock, hrun⟩ :=
    block_means_last_firing_row .standard placing placingRows hrows
  obtain ⟨hfires, -⟩ := hrun fun c => c = "go"
  obtain ⟨row, ⟨before, after, heq, -, hafter⟩, hsignals, -, -, hnext⟩ :=
    hfires ⟨_, List.mem_cons_self, by decide⟩
  have hlast : row = ⟨"rb_data == 0", [(.readB, "r1"), (.finished, "1")], some "NEXT"⟩ := by
    cases after with
    | nil => simpa [placingRows] using (congrArg List.getLast? heq).symm
    | cons r after => exact absurd (Or.inr (Or.inr (by decide))) (hafter r List.mem_cons_self)
  subst hlast
  exact ⟨hrows, p, hblock, hnext (by decide) (by decide), hsignals .readB "r1" (by simp)⟩

end Sequencer
