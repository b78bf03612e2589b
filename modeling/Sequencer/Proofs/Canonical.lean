import Mathlib.Data.List.Sort
import Sequencer.Output

/-!
# Listings in canonical order

`SignalMap.toList` lists the assigned signals in canonical order.  Everything
that walks over the driven signals of a state walks over such a listing, so the
facts proved here carry all of them: the listing is strictly increasing and
determined by that, an assignment puts its signal in its place, a search finds
the canonically first hit, and writing a listing back into a map overrides
exactly the listed signals.

## Main Definitions

* `SignalMap.IsFirst` — the canonically first signal whose value has a property.

## Main Results

* `SignalMap.pairwise_toList` — listings are strictly increasing.
* `SignalMap.toList_set` — what one assignment does to a listing.
* `SignalMap.find?_toList_eq_some_iff` — searching finds the first hit.
* `SignalMap.get?_foldl_set_toList` — the effect of writing a listing back.
* `SignalMap.ofList_toList` — a map is filled again from its listing.
-/

namespace Sequencer

/-- Lists whose entries bear signals in canonical order are equal if they have the same
entries. -/
theorem Signal.eq_of_mem_iff {β : Type} (signal : β → Signal) {xs ys : List β}
    (hxs : xs.Pairwise fun a b => (signal a).rank < (signal b).rank)
    (hys : ys.Pairwise fun a b => (signal a).rank < (signal b).rank)
    (h : ∀ a, a ∈ xs ↔ a ∈ ys) : xs = ys := by
  have hirrefl : Std.Irrefl fun a b : β => (signal a).rank < (signal b).rank :=
    ⟨fun a => Nat.lt_irrefl (signal a).rank⟩
  have hantisymm : Std.Antisymm fun a b : β => (signal a).rank < (signal b).rank :=
    ⟨fun a b hab hba => absurd hba (Nat.lt_asymm hab)⟩
  exact hxs.eq_of_mem_iff hys h

namespace SignalMap

variable {α : Type}

/-! ### Order -/

/-- **A listing is strictly increasing in canonical order**; in particular no
signal is listed twice. -/
theorem pairwise_toList (m : SignalMap α) :
    m.toList.Pairwise fun p q => p.1.rank < q.1.rank := by
  refine List.Pairwise.filterMap _ ?_ Signal.pairwise_all
  intro s t hst p hp q hq
  obtain ⟨v, -, rfl⟩ := Option.map_eq_some_iff.mp hp
  obtain ⟨w, -, rfl⟩ := Option.map_eq_some_iff.mp hq
  exact hst

/-- The signals alone are strictly increasing, too. -/
theorem pairwise_map_fst_toList (m : SignalMap α) :
    (m.toList.map Prod.fst).Pairwise fun s t => s.rank < t.rank :=
  List.pairwise_map.mpr m.pairwise_toList

/-- A signal is listed exactly when it is assigned. -/
theorem mem_map_fst_toList {m : SignalMap α} {s : Signal} :
    s ∈ m.toList.map Prod.fst ↔ ∃ v, m.get? s = some v := by
  simp

/-- To say something of all assigned values is to say it along the listing. -/
theorem forall_mem_toList_iff (m : SignalMap α) (p : Signal → α → Prop) :
    (∀ q ∈ m.toList, p q.1 q.2) ↔ ∀ s v, m.get? s = some v → p s v :=
  ⟨fun h s v hs => h (s, v) (mem_toList.mpr hs), fun h q hq => h q.1 q.2 (mem_toList.mp hq)⟩

/-- **A listing is determined by its order and its entries.** -/
theorem toList_eq_of_pairwise {m : SignalMap α} {l : List (Signal × α)}
    (horder : l.Pairwise fun p q => p.1.rank < q.1.rank)
    (hmem : ∀ s v, (s, v) ∈ l ↔ m.get? s = some v) : m.toList = l := by
  refine Signal.eq_of_mem_iff Prod.fst m.pairwise_toList horder ?_
  rintro ⟨s, v⟩
  rw [mem_toList, hmem]

/-- **An assigned signal is put in its place**: behind the entries before it, in place of
its own, and before the entries behind it. -/
theorem toList_set (m : SignalMap α) (s : Signal) (v : α) :
    (m.set s v).toList =
      (m.toList.filter fun p => p.1.rank < s.rank) ++
        (s, v) :: m.toList.filter fun p => s.rank < p.1.rank := by
  apply toList_eq_of_pairwise
  · rw [List.pairwise_append, List.pairwise_cons]
    refine ⟨m.pairwise_toList.filter _, ⟨?_, m.pairwise_toList.filter _⟩, ?_⟩
    · intro q hq
      exact of_decide_eq_true (List.mem_filter.mp hq).2
    · intro p hp q hq
      have hbefore : p.1.rank < s.rank := of_decide_eq_true (List.mem_filter.mp hp).2
      rcases List.mem_cons.mp hq with rfl | hq
      · exact hbefore
      · exact Nat.lt_trans hbefore (of_decide_eq_true (List.mem_filter.mp hq).2)
  · intro t w
    rw [List.mem_append, List.mem_cons, List.mem_filter, List.mem_filter, mem_toList, get?_set,
      decide_eq_true_eq, decide_eq_true_eq, Prod.mk.injEq]
    by_cases hts : t = s
    · subst hts
      simp [eq_comm]
    · -- another signal stands before `s` or behind it
      have hrank : t.rank < s.rank ∨ s.rank < t.rank :=
        Nat.lt_or_gt_of_ne fun h => hts (Signal.rank_injective h)
      rw [if_neg hts]
      tauto

/-! ### Searching -/

/-- `s` is the canonically first signal whose value has the property `p`, and
`v` is its value. -/
structure IsFirst (m : SignalMap α) (p : α → Prop) (s : Signal) (v : α) : Prop where
  assigned : m.get? s = some v
  holds : p v
  least : ∀ t w, m.get? t = some w → p w → s.rank ≤ t.rank

/-- In a strictly increasing list, a search finds the least hit. -/
private theorem find?_eq_some_iff_of_pairwise {l : List (Signal × α)}
    (h : l.Pairwise fun p q => p.1.rank < q.1.rank) {p : Signal × α → Bool}
    {x : Signal × α} :
    l.find? p = some x ↔
      x ∈ l ∧ p x = true ∧ ∀ y ∈ l, p y = true → x.1.rank ≤ y.1.rank := by
  induction l with
  | nil => simp
  | cons a l ih =>
      obtain ⟨ha, hl⟩ := List.pairwise_cons.mp h
      by_cases hpa : p a = true
      · rw [List.find?_cons_of_pos hpa]
        constructor
        · rintro ⟨⟩
          refine ⟨List.mem_cons_self, hpa, List.forall_mem_cons.mpr ⟨fun _ => Nat.le_refl _, ?_⟩⟩
          exact fun y hy _ => Nat.le_of_lt (ha y hy)
        · rintro ⟨hx, -, hleast⟩
          -- a hit behind `a` would have a rank above that of `a`
          rcases List.mem_cons.mp hx with rfl | hx
          · rfl
          · exact absurd (hleast a List.mem_cons_self hpa) (Nat.not_le_of_lt (ha x hx))
      · rw [List.find?_cons_of_neg hpa, ih hl]
        constructor
        · rintro ⟨hx, hpx, hleast⟩
          exact ⟨List.mem_cons_of_mem _ hx, hpx,
            List.forall_mem_cons.mpr ⟨fun h => absurd h hpa, hleast⟩⟩
        · rintro ⟨hx, hpx, hleast⟩
          rcases List.mem_cons.mp hx with rfl | hx
          · exact absurd hpx hpa
          · exact ⟨hx, hpx, (List.forall_mem_cons.mp hleast).2⟩

/-- **Searching a listing finds the canonically first hit.** -/
theorem find?_toList_eq_some_iff (m : SignalMap α) (p : α → Prop) [DecidablePred p]
    {s : Signal} {v : α} :
    (m.toList.find? fun q => p q.2) = some (s, v) ↔ m.IsFirst p s v := by
  rw [find?_eq_some_iff_of_pairwise m.pairwise_toList]
  simp only [decide_eq_true_eq]
  constructor
  · rintro ⟨hmem, hp, hleast⟩
    exact ⟨mem_toList.mp hmem, hp, fun t w ht hw => hleast (t, w) (mem_toList.mpr ht) hw⟩
  · rintro ⟨hmem, hp, hleast⟩
    exact ⟨mem_toList.mpr hmem, hp, fun q hq hw => hleast q.1 q.2 (mem_toList.mp hq) hw⟩

/-- A search finds nothing exactly when no assigned value is a hit. -/
theorem find?_toList_eq_none_iff (m : SignalMap α) (p : α → Prop) [DecidablePred p] :
    (m.toList.find? fun q => p q.2) = none ↔ ∀ s v, m.get? s = some v → ¬ p v := by
  rw [List.find?_eq_none]
  simp only [decide_eq_true_eq]
  exact m.forall_mem_toList_iff fun _ v => ¬ p v

/-- The canonically first hit splits a listing: no entry before it is a hit. -/
theorem isFirst_iff_append {m : SignalMap α} {p : α → Prop} {s : Signal} {v : α} :
    m.IsFirst p s v ↔
      p v ∧ ∃ before after, m.toList = before ++ (s, v) :: after ∧ ∀ q ∈ before, ¬ p q.2 := by
  classical
  rw [← m.find?_toList_eq_some_iff p, List.find?_eq_some_iff_append]
  simp

/-- Only the values that are assigned matter for being first. -/
theorem IsFirst.congr {m : SignalMap α} {p q : α → Prop} {s : Signal} {v : α}
    (h : m.IsFirst p s v) (hpq : ∀ t w, m.get? t = some w → (p w ↔ q w)) :
    m.IsFirst q s v :=
  ⟨h.assigned, (hpq s v h.assigned).mp h.holds,
    fun t w ht hw => h.least t w ht ((hpq t w ht).mpr hw)⟩

/-- Looking up a signal in a listing gives the value that it is assigned. -/
theorem find?_toList_fst (m : SignalMap α) (s : Signal) :
    (m.toList.find? fun q => q.1 = s).map Prod.snd = m.get? s := by
  cases hs : m.get? s with
  | none =>
      have hnone : (m.toList.find? fun q => q.1 = s) = none := by
        rw [List.find?_eq_none]
        rintro ⟨t, v⟩ hmem ht
        obtain rfl : t = s := of_decide_eq_true ht
        rw [mem_toList.mp hmem] at hs
        cases hs
      rw [hnone]
      rfl
  | some v =>
      have hsome : (m.toList.find? fun q => q.1 = s) = some (s, v) := by
        rw [find?_eq_some_iff_of_pairwise m.pairwise_toList]
        refine ⟨mem_toList.mpr hs, by simp, ?_⟩
        intro q _ hq
        exact Nat.le_of_eq (congrArg Signal.rank (of_decide_eq_true hq).symm)
      rw [hsome]
      rfl

/-! ### Writing back -/

/-- Writing the pairs of some signals into a map overrides exactly those of them
that are assigned.  Each signal carries the same value wherever it stands, so
the order of the signals does not matter. -/
private theorem get?_foldl_set_filterMap (m : SignalMap α) (signals : List Signal)
    (base : SignalMap α) (s : Signal) :
    ((signals.filterMap fun t => (m.get? t).map (t, ·)).foldl
        (fun acc p => acc.set p.1 p.2) base).get? s =
      if s ∈ signals then (m.get? s).or (base.get? s) else base.get? s := by
  induction signals generalizing base with
  | nil => simp
  | cons t signals ih =>
      cases ht : m.get? t with
      | none =>
          rw [List.filterMap_cons_none (by rw [ht]; rfl), ih]
          by_cases hst : s = t
          · subst hst
            simp [ht]
          · simp [hst]
      | some v =>
          rw [List.filterMap_cons_some (b := (t, v)) (by rw [ht]; rfl), List.foldl_cons, ih,
            get?_set]
          by_cases hst : s = t
          · subst hst
            simp [ht]
          · simp [hst]

/-- **Writing a listing into a map overrides the listed signals** and leaves the
others as they are. -/
theorem get?_foldl_set_toList (m base : SignalMap α) (s : Signal) :
    (m.toList.foldl (fun acc p => acc.set p.1 p.2) base).get? s =
      (m.get? s).or (base.get? s) := by
  rw [toList, get?_foldl_set_filterMap, if_pos (Signal.mem_all s)]

/-- A map is filled again from its listing. -/
theorem ofList_toList (m : SignalMap α) : ofList m.toList = m := by
  ext1 s
  unfold ofList
  rw [get?_foldl_set_toList, get?_empty, Option.or_none]

end SignalMap

end Sequencer
