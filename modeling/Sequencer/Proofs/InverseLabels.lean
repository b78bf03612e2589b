import Mathlib.Data.List.SplitBy
import Sequencer.Rule

/-!
# Derived inverse labels

The else edge of a branch is labelled with the conditions negated: every `==` becomes
`!=`.  The conditions are negated one by one and joined afterwards.  It is shown here that
this is the same as negating the joined text, because no `==` lies across a separator,
and what negation does to a text as a whole is said in two ways: as the replacement of
one text by another, and run by run.

The scan is greedy.  A run of equals signs, called signs here, is consumed in pairs from
its front, so that negation depends on a run only through its length, and runs do not
influence each other.

## Main Definitions

* `Text.Replaced` — one text is another one after a replacement.
* `Text.runs` — the maximal runs of equal characters.
* `Text.negatedRun` — what becomes of one run.

## Main Results

* `Text.negateEquals_append` — negation works on both sides of a cut that splits no run.
* `Text.replaced_iff` — negation is the replacement of `==` by `!=`.
* `Text.negateEquals_eq_flatMap` — negation works run by run.
* `Rule.toList_derivedInverse` — the joined text is negated as a whole.
* `derived_inverse_negates_runs` — all of it.
-/

namespace Sequencer

namespace Text

/-! ### Replacement -/

/-- **The second text is the first one with `needle` replaced from left to right and
without overlap**: where a needle begins it is replaced as a whole, and elsewhere a
character is kept. -/
inductive Replaced (needle replacement : List Char) : List Char → List Char → Prop
  | nil : Replaced needle replacement [] []
  | hit {cs out : List Char} : Replaced needle replacement cs out →
      Replaced needle replacement (needle ++ cs) (replacement ++ out)
  | miss {c : Char} {cs out : List Char} : ¬ needle <+: c :: cs →
      Replaced needle replacement cs out → Replaced needle replacement (c :: cs) (c :: out)

/-- A character at which no `==` begins is kept. -/
theorem negateEquals_cons {c : Char} {cs : List Char} (h : ¬ ['=', '='] <+: c :: cs) :
    negateEquals (c :: cs) = c :: negateEquals cs := by
  rw [negateEquals]
  rintro ds rfl rfl
  exact h (List.prefix_append ['=', '='] ds)

/-- A character that is no sign is kept. -/
theorem negateEquals_cons_of_ne {c : Char} {cs : List Char} (h : c ≠ '=') :
    negateEquals (c :: cs) = c :: negateEquals cs := by
  refine negateEquals_cons fun hprefix => ?_
  exact h (List.cons_prefix_cons.mp hprefix).1.symm

theorem replaced_negateEquals (cs : List Char) :
    Replaced ['=', '='] ['!', '='] cs (negateEquals cs) := by
  fun_induction negateEquals cs with
  | case1 cs ih => exact .hit ih
  | case2 c cs hfirst ih =>
      refine .miss ?_ ih
      rintro ⟨ds, hds⟩
      obtain ⟨rfl, rfl⟩ := List.cons.inj hds
      exact hfirst ds rfl rfl
  | case3 => exact .nil

/-- **Negation is the replacement of `==` by `!=`**, which has only one outcome. -/
theorem replaced_iff {cs out : List Char} :
    Replaced ['=', '='] ['!', '='] cs out ↔ out = negateEquals cs := by
  constructor
  · intro h
    induction h with
    | nil => rfl
    | hit _ ih =>
        rw [ih]
        rfl
    | miss hfirst _ ih => rw [ih, negateEquals_cons hfirst]
  · rintro rfl
    exact replaced_negateEquals cs

/-! ### Cuts -/

/-- **Negation works on both sides of a cut that splits no run of signs.** -/
theorem negateEquals_append {cs ds : List Char}
    (h : cs.getLast? ≠ some '=' ∨ ds.head? ≠ some '=') :
    negateEquals (cs ++ ds) = negateEquals cs ++ negateEquals ds := by
  -- the last character stays the last one while the scan moves on
  have hlast : ∀ {c : Char} {cs : List Char}, (c :: cs).getLast? ≠ some '=' →
      cs.getLast? ≠ some '=' := by
    intro c cs hne heq
    exact hne (by rw [List.getLast?_cons, heq, Option.getD_some])
  fun_induction negateEquals cs with
  | case1 cs ih =>
      rw [List.cons_append, List.cons_append, negateEquals, ih (h.imp_left (hlast ∘ hlast))]
      rfl
  | case2 c cs hfirst ih =>
      rw [List.cons_append, negateEquals_cons, ih (h.imp_left hlast), List.cons_append]
      intro hprefix
      obtain ⟨hc, hsecond⟩ := List.cons_prefix_cons.mp hprefix
      cases cs with
      | nil =>
          -- the two signs would stand on both sides of the cut
          obtain ⟨rest, rfl⟩ := hsecond
          exact h.elim (fun hne => hne (by rw [← hc]; rfl)) (fun hne => hne rfl)
      | cons d cs =>
          obtain ⟨hd, -⟩ := List.cons_prefix_cons.mp hsecond
          exact hfirst cs hc.symm (by rw [hd])
  | case3 => rfl

/-- A text without signs is kept. -/
theorem negateEquals_of_notMem {cs : List Char} (h : '=' ∉ cs) : negateEquals cs = cs := by
  induction cs with
  | nil => rfl
  | cons c cs ih =>
      obtain ⟨hc, hcs⟩ := not_or.mp (mt List.mem_cons.mpr h)
      rw [negateEquals_cons_of_ne (Ne.symm hc), ih hcs]

/-- **Texts may be negated before or after they are joined**, if the separator is not
empty and there is no sign in it. -/
theorem negateEquals_intercalate {separator : List Char} (hne : separator ≠ [])
    (hsign : '=' ∉ separator) (texts : List (List Char)) :
    negateEquals (separator.intercalate texts) =
      separator.intercalate (texts.map negateEquals) := by
  induction texts with
  | nil => rfl
  | cons cs texts ih =>
      cases texts with
      | nil => simp
      | cons ds texts =>
          have hhead : (separator ++ separator.intercalate (ds :: texts)).head? ≠ some '=' := by
            rw [List.head?_append_of_ne_nil _ hne]
            exact fun h => hsign (List.mem_of_head? h)
          have hlast : separator.getLast? ≠ some '=' :=
            fun h => hsign (List.mem_of_getLast? h)
          rw [List.intercalate_cons_cons, List.append_assoc, negateEquals_append (.inr hhead),
            negateEquals_append (.inl hlast), negateEquals_of_notMem hsign, ih, List.map_cons,
            List.map_cons, List.map_cons, List.intercalate_cons_cons, List.append_assoc]

/-! ### Runs -/

/-- The maximal runs of equal characters, in order. -/
def runs (cs : List Char) : List (List Char) := cs.splitBy (· == ·)

/-- What becomes of a run of equal characters: signs are replaced in pairs, and one that is
left over is kept; all else is kept. -/
def negatedRun (run : List Char) : List Char :=
  if '=' ∈ run then
    (List.replicate (run.length / 2) ['!', '=']).flatten ++ List.replicate (run.length % 2) '='
  else run

/-- A run of signs is consumed in pairs from its front. -/
theorem negateEquals_replicate (k : Nat) :
    negateEquals (List.replicate k '=') =
      (List.replicate (k / 2) ['!', '=']).flatten ++ List.replicate (k % 2) '=' := by
  induction k using Nat.twoStepInduction with
  | zero => rfl
  | one => rfl
  | more k ih _ =>
      have hhalf : (k + 2) / 2 = k / 2 + 1 := by omega
      have hrest : (k + 2) % 2 = k % 2 := by omega
      rw [hhalf, hrest, List.replicate_succ, List.replicate_succ, negateEquals, ih,
        List.replicate_succ, List.flatten_cons, List.append_assoc]
      rfl

/-- A run of equal characters is negated as its length says. -/
theorem negateEquals_run {run : List Char} (h : run.IsChain fun c d => (c == d) = true) :
    negateEquals run = negatedRun run := by
  unfold negatedRun
  by_cases hsign : '=' ∈ run
  · have hchain : run.IsChain (· = ·) := h.imp fun c d hcd => eq_of_beq hcd
    have hrun : run = List.replicate run.length '=' := by
      apply List.eq_replicate_of_mem
      intro c hc
      exact (List.isChain_iff_pairwise.mp hchain).forall_of_forall (fun _ _ => rfl) hc hsign
    rw [if_pos hsign, ← negateEquals_replicate, ← hrun]
  · rw [if_neg hsign, negateEquals_of_notMem hsign]

/-- Runs that differ where they meet are negated one by one. -/
theorem negateEquals_flatten {rs : List (List Char)}
    (hrun : ∀ run ∈ rs, run.IsChain fun c d => (c == d) = true)
    (hnext : rs.IsChain fun a b => ∃ ha hb, (a.getLast ha == b.head hb) = false) :
    negateEquals rs.flatten = rs.flatMap negatedRun := by
  induction rs with
  | nil => rfl
  | cons run rs ih =>
      have hcut : run.getLast? ≠ some '=' ∨ rs.flatten.head? ≠ some '=' := by
        cases rs with
        | nil => exact .inr (by simp)
        | cons next rs =>
            obtain ⟨ha, hb, hne⟩ := (List.isChain_cons_cons.mp hnext).1
            rw [List.flatten_cons, List.head?_append_of_ne_nil _ hb,
              List.getLast?_eq_some_getLast ha, List.head?_eq_some_head hb, ← not_and_or]
            rintro ⟨hlast, hhead⟩
            exact ne_of_beq_false hne
              ((Option.some.inj hlast).trans (Option.some.inj hhead).symm)
      rw [List.flatten_cons, negateEquals_append hcut,
        negateEquals_run (hrun run List.mem_cons_self),
        ih (fun run hmem => hrun run (List.mem_cons_of_mem _ hmem)) hnext.tail,
        List.flatMap_cons]

/-- **Negation works run by run.** -/
theorem negateEquals_eq_flatMap (cs : List Char) :
    negateEquals cs = (runs cs).flatMap negatedRun := by
  have hruns : negateEquals (runs cs).flatten = (runs cs).flatMap negatedRun :=
    negateEquals_flatten (fun _ => List.isChain_of_mem_splitBy)
      (List.isChain_getLast_head_splitBy _ cs)
  rwa [runs, List.flatten_splitBy] at hruns

end Text

/-! ### Labels -/

/-- **The joined conditions are negated as a whole**: no `==` lies across a separator. -/
theorem Rule.toList_derivedInverse (r : Rule) :
    r.derivedInverse.toList = Text.negateEquals r.conditions.text.toList := by
  have hne : Cases.separator.toList ≠ [] := by decide
  have hsign : '=' ∉ Cases.separator.toList := by decide
  unfold derivedInverse Cases.text
  rw [String.toList_intercalate, String.toList_intercalate,
    Text.negateEquals_intercalate hne hsign, List.map_map, List.map_map]
  exact congrArg _ (List.map_congr_left fun c _ => String.toList_ofList)

/-- The else edge of a branch bears the derived label unless another one is given. -/
theorem Rule.shownInverse_of_isBranch {r : Rule} (hbranch : r.isBranch = true)
    (hderived : r.inverseLabel = none) : r.shownInverse = some r.derivedInverse := by
  obtain ⟨target, htarget⟩ := Option.isSome_iff_exists.mp hbranch
  unfold shownInverse
  rw [htarget, hderived, Option.map_some, Option.getD_none]

/-- **A derived inverse label negates the joined conditions run by run.**  For a branch
without a label of its own for the else edge, the shown label is the text of all
conditions, joined by ` | `, with `==` replaced by `!=` from left to right and without
overlap.  It has as many characters as that text.  Each maximal run of signs is consumed
in pairs, each of which becomes `!=`, and a sign that is left over is kept, as is every
other character. -/
theorem derived_inverse_negates_runs (r : Rule) (hbranch : r.isBranch = true)
    (hderived : r.inverseLabel = none) :
    ∃ inverse, r.shownInverse = some inverse ∧
      (∀ out, Text.Replaced "==".toList "!=".toList
          (" | ".intercalate r.conditions.values).toList out ↔ out = inverse.toList) ∧
      inverse.length = (" | ".intercalate r.conditions.values).length ∧
      inverse.toList =
        (Text.runs (" | ".intercalate r.conditions.values).toList).flatMap Text.negatedRun := by
  have hwhole : r.derivedInverse.toList =
      Text.negateEquals (" | ".intercalate r.conditions.values).toList := r.toList_derivedInverse
  refine ⟨r.derivedInverse, Rule.shownInverse_of_isBranch hbranch hderived, ?_, ?_, ?_⟩
  · intro out
    rw [hwhole]
    exact Text.replaced_iff
  · rw [← String.length_toList, hwhole, Text.length_negateEquals, String.length_toList]
  · rw [hwhole]
    exact Text.negateEquals_eq_flatMap _

/-- A branch whose conditions have runs of one to four signs, also at their ends. -/
def comparing : Rule :=
  .branch ⟨["a === b", "c !== d", "e ====", "= f"]⟩ (.single "NEXT") "BACK"

/-- Of three signs the last is kept, four become two negations, and the single sign behind
the separator does not join those before it. -/
theorem inverse_of_comparing :
    comparing.isBranch = true ∧ comparing.inverseLabel = none ∧
    comparing.shownInverse = some "a !== b | c !!= d | e !=!= | = f" := by
  have hbranch : comparing.isBranch = true := by decide
  obtain ⟨inverse, hshown, -, -, hruns⟩ := derived_inverse_negates_runs comparing hbranch rfl
  refine ⟨hbranch, rfl, ?_⟩
  rw [hshown, ← String.ofList_toList (s := inverse), hruns]
  decide

end Sequencer
