import Sequencer.Files

/-!
# Writing files

What writing does to a table of files, seen from outside: the text stands at the
place to which the path leads, and every other place is as it was.  A file can only
be written where no directory stands, so that writing never gets in the way of
another path: paths that led somewhere lead there still.  Several texts can therefore
be written one after the other, and if their paths lead to different places, each
text stands at its own in the end.

## Main Definitions

* `FileTable.Writable` — a file can be written at a path.
* `FileTable.Opens` — why it can, and the place to which the path leads.
* `FileTable.WroteAt` — the difference that writing one text makes.
* `FileTable.writeAll` — writes several texts.
* `FileTable.Wrote` — the difference that writing several texts makes.

## Main Results

* `FileTable.Opens.exists_write` — one text is written.
* `FileTable.Opens.of_sameDirectories` — what a path opens depends on the directories.
* `FileTable.exists_writeAll`, `FileTable.exists_writeAll_of_sublist` — several texts are
  written.
-/

namespace Sequencer

/-- What stands at a place after a text was written there: a file with the text, or
still the sink that stood there. -/
def Entry.written (old : Option Entry) (text : String) : Entry :=
  if old = some .sink then .sink else .file (.text text)

theorem Entry.written_ne_directory (old : Option Entry) (text : String) :
    Entry.written old text ≠ .directory := by
  unfold Entry.written
  split <;> simp

namespace FileTable

variable {t t' : FileTable} {path text : String} {place : Place}

/-! ### Look-up -/

/-- No file stands at a place on its own. -/
theorem given?_ne_file (place : Place) (content : Content) :
    given? place ≠ some (.file content) := by
  unfold given?
  split
  · split <;> simp
  · unfold standardEntry?
    split <;> simp

theorem find?_of_given? {entry : Entry} (h : given? place = some entry) :
    t.find? place = some entry := by
  unfold find?
  rw [h]
  rfl

/-- Replacing an entry keeps the places, so that look-up finds the same pair, replaced. -/
theorem find?_replace (entries : List (Place × Entry)) (entry : Entry) (q : Place) :
    (entries.map fun p => if p.1 = place then (place, entry) else p).find?
        (fun p => decide (p.1 = q)) =
      (entries.find? fun p => decide (p.1 = q)).map
        fun p => if p.1 = place then (place, entry) else p := by
  rw [List.find?_map]
  congr 2
  funext p
  by_cases hp : p.1 = place
  · simp [hp]
  · simp [hp]

theorem find?_put_of_ne {q : Place} (h : q ≠ place) (entry : Entry) :
    (t.put place entry).find? q = t.find? q := by
  unfold find? put
  congr 1
  split
  · rw [find?_replace]
    cases hfound : t.entries.find? fun p => decide (p.1 = q) with
    | none => rfl
    | some p =>
        have hp : p.1 = q := by simpa using List.find?_some hfound
        simp [hp, h]
  · rw [List.find?_append]
    simp [Ne.symm h]

theorem find?_put_self (h : given? place = none) (entry : Entry) :
    (t.put place entry).find? place = some entry := by
  unfold find? put
  rw [h, Option.none_or]
  split
  · next hany =>
      obtain ⟨p, hp⟩ :=
        Option.isSome_iff_exists.mp (List.find?_isSome.mpr (List.any_eq_true.mp hany))
      have hplace : p.1 = place := by simpa using List.find?_some hp
      rw [find?_replace, hp]
      simp [hplace]
  · next hany =>
      have hnone : t.entries.find? (fun p => decide (p.1 = place)) = none := by
        rw [List.find?_eq_none]
        intro p hp hplace
        exact hany (List.any_eq_true.mpr ⟨p, hp, hplace⟩)
      rw [List.find?_append, hnone]
      simp

/-! ### Paths -/

/-- Two tables that have the same directories. -/
def SameDirectories (t t' : FileTable) : Prop :=
  ∀ place, t.find? place = some .directory ↔ t'.find? place = some .directory

/-- A path leads through directories only, and other entries do not matter to it. -/
theorem SameDirectories.walk_eq (h : SameDirectories t t') {start : Place} {parts : List String}
    (hwalk : t.walk start parts = .ok place) : t'.walk start parts = .ok place := by
  induction parts generalizing start with
  | nil => exact hwalk
  | cons part parts ih =>
      unfold walk lookUp at hwalk ⊢
      by_cases hname : start.isNameable = true
      · rw [if_pos hname] at hwalk ⊢
        cases hfind : t.find? start with
        | none =>
            rw [hfind] at hwalk
            cases hwalk
        | some entry =>
            rw [hfind] at hwalk
            cases entry with
            | file content => cases hwalk
            | sink => cases hwalk
            | directory =>
                rw [(h start).mp hfind]
                exact ih hwalk
      · rw [if_neg hname] at hwalk
        cases hwalk

theorem SameDirectories.locate_eq (h : SameDirectories t t') (hlocate : t.locate path = .ok place) :
    t'.locate path = .ok place := by
  unfold locate at hlocate ⊢
  split at hlocate
  · cases hlocate
  · exact h.walk_eq hlocate

/-! ### Writing one text -/

/-- A file can be written at a path. -/
def Writable (t : FileTable) (path : String) : Prop :=
  ∃ text t', t.write path text = .ok t'

/-- A path leads to a place at which a file can be written. -/
structure Opens (t : FileTable) (path : String) (place : Place) : Prop where
  locate_eq : t.locate path = .ok place
  no_slash : endsWithSlash path = false
  nameable : place.isNameable = true
  not_directory : t.find? place ≠ some .directory

theorem Opens.of_sameDirectories (h : SameDirectories t t') (hopens : t.Opens path place) :
    t'.Opens path place where
  locate_eq := h.locate_eq hopens.locate_eq
  no_slash := hopens.no_slash
  nameable := hopens.nameable
  not_directory hdirectory := hopens.not_directory ((h place).mpr hdirectory)

theorem Writable.exists_opens (h : t.Writable path) : ∃ place, t.Opens path place := by
  obtain ⟨text, t', hwrite⟩ := h
  unfold write lookUp at hwrite
  cases hlocate : t.locate path with
  | error e =>
      rw [hlocate] at hwrite
      cases hwrite
  | ok place =>
      rw [hlocate] at hwrite
      dsimp only at hwrite
      split at hwrite
      · cases hwrite
      · next hslash =>
          by_cases hname : place.isNameable = true
          · refine ⟨place, hlocate, Bool.eq_false_iff.mpr hslash, hname, fun hdirectory => ?_⟩
            rw [if_pos hname, hdirectory] at hwrite
            cases hwrite
          · rw [if_neg hname] at hwrite
            cases hwrite

/-- The table after writing: a sink keeps nothing. -/
theorem Opens.write_eq (h : t.Opens path place) (text : String) :
    t.write path text =
      .ok (if t.find? place = some .sink then t else t.put place (.file (.text text))) := by
  unfold write lookUp
  rw [h.locate_eq]
  dsimp only
  rw [h.no_slash, if_pos h.nameable]
  cases hfind : t.find? place with
  | none => rfl
  | some entry =>
      cases entry with
      | file content => rfl
      | sink => rfl
      | directory => exact absurd hfind h.not_directory

/-- What a system has on its own is a directory or a sink, so that anything else is
seen where it is put. -/
theorem Opens.given?_eq_none (h : t.Opens path place) (hsink : t.find? place ≠ some .sink) :
    given? place = none := by
  cases hgiven : given? place with
  | none => rfl
  | some entry =>
      have hfind : t.find? place = some entry := find?_of_given? hgiven
      cases entry with
      | file content => exact absurd hgiven (given?_ne_file place content)
      | sink => exact absurd hfind hsink
      | directory => exact absurd hfind h.not_directory

/-- The difference that writing a text at a place makes. -/
structure WroteAt (before after : FileTable) (place : Place) (text : String) : Prop where
  stands : after.find? place = some (Entry.written (before.find? place) text)
  keeps : ∀ q, q ≠ place → after.find? q = before.find? q

/-- **Writing a text** puts it where the path leads and keeps everything else. -/
theorem Opens.exists_write (h : t.Opens path place) (text : String) :
    ∃ t', t.write path text = .ok t' ∧ t.WroteAt t' place text := by
  refine ⟨_, h.write_eq text, ?_⟩
  by_cases hsink : t.find? place = some .sink
  · rw [if_pos hsink]
    refine ⟨?_, fun q _ => rfl⟩
    rw [hsink]
    rfl
  · rw [if_neg hsink]
    refine ⟨?_, fun q hq => find?_put_of_ne hq _⟩
    rw [find?_put_self (h.given?_eq_none hsink), Entry.written, if_neg hsink]

/-- Writing makes no directory and removes none. -/
theorem WroteAt.sameDirectories (h : t.WroteAt t' place text)
    (hfree : t.find? place ≠ some .directory) : SameDirectories t t' := by
  intro q
  by_cases hq : q = place
  · subst hq
    refine ⟨fun hdirectory => absurd hdirectory hfree, fun hdirectory => ?_⟩
    rw [h.stands] at hdirectory
    exact absurd (Option.some.inj hdirectory) (Entry.written_ne_directory _ _)
  · rw [h.keeps q hq]

/-! ### Writing several texts -/

/-- Writes texts to their paths, one after the other. -/
def writeAll (t : FileTable) (texts : List (String × String)) : Except FileError FileTable :=
  texts.foldlM (fun t p => t.write p.1 p.2) t

/-- What writing texts to their paths makes of a table: each text stands where its
path leads, and at all other places nothing is changed. -/
structure Wrote (before after : FileTable) (texts : List (String × String)) : Prop where
  stands : ∀ p ∈ texts, ∃ place, before.locate p.1 = .ok place ∧
    after.find? place = some (Entry.written (before.find? place) p.2)
  keeps : ∀ place, (∀ p ∈ texts, before.locate p.1 ≠ .ok place) →
    after.find? place = before.find? place

/-- One more text before the others, at a place of its own. -/
theorem Wrote.cons {before middle after : FileTable} {texts : List (String × String)}
    (hpath : before.locate path = .ok place) (hwrote : before.WroteAt middle place text)
    (hlocate : ∀ p ∈ texts, middle.locate p.1 = before.locate p.1)
    (hdistinct : ∀ p ∈ texts, before.locate p.1 ≠ .ok place)
    (h : middle.Wrote after texts) : before.Wrote after ((path, text) :: texts) where
  stands := by
    intro p hp
    rcases List.mem_cons.mp hp with rfl | hp
    · refine ⟨place, hpath, ?_⟩
      rw [h.keeps place fun q hq => hlocate q hq ▸ hdistinct q hq, hwrote.stands]
    · obtain ⟨place', hlocated, hstands⟩ := h.stands p hp
      rw [hlocate p hp] at hlocated
      have hne : place' ≠ place := by
        rintro rfl
        exact hdistinct p hp hlocated
      rw [hwrote.keeps place' hne] at hstands
      exact ⟨place', hlocated, hstands⟩
  keeps := by
    intro q hq
    have hne : q ≠ place := by
      rintro rfl
      exact hq _ List.mem_cons_self hpath
    rw [h.keeps q fun p hp => hlocate p hp ▸ hq p (List.mem_cons_of_mem _ hp),
      hwrote.keeps q hne]

/-- **Texts with writable paths that lead to different places can all be written**, and
each then stands where its path led from the start. -/
theorem exists_writeAll {texts : List (String × String)}
    (hwritable : ∀ p ∈ texts, t.Writable p.1)
    (hdistinct : texts.Pairwise fun p q => t.locate p.1 ≠ t.locate q.1) :
    ∃ after, t.writeAll texts = .ok after ∧ t.Wrote after texts := by
  induction texts generalizing t with
  | nil => exact ⟨t, rfl, by simp, fun _ _ => rfl⟩
  | cons p texts ih =>
      obtain ⟨path, text⟩ := p
      obtain ⟨hapart, hrest⟩ := List.pairwise_cons.mp hdistinct
      obtain ⟨place, hopens⟩ := (hwritable _ List.mem_cons_self).exists_opens
      obtain ⟨middle, hwrite, hat⟩ := hopens.exists_write text
      have hsame := hat.sameDirectories hopens.not_directory
      -- the other paths lead where they led, and can be written there still
      have hopens' : ∀ p ∈ texts, ∃ place, t.Opens p.1 place ∧ middle.Opens p.1 place := by
        intro p hp
        obtain ⟨place, hopens⟩ := (hwritable p (List.mem_cons_of_mem _ hp)).exists_opens
        exact ⟨place, hopens, hopens.of_sameDirectories hsame⟩
      have hlocate : ∀ p ∈ texts, middle.locate p.1 = t.locate p.1 := by
        intro p hp
        obtain ⟨place, hbefore, hafter⟩ := hopens' p hp
        rw [hbefore.locate_eq, hafter.locate_eq]
      have hwritable' : ∀ p ∈ texts, middle.Writable p.1 := by
        intro p hp
        obtain ⟨place, -, hafter⟩ := hopens' p hp
        exact ⟨"", _, hafter.write_eq ""⟩
      have hdistinct' : texts.Pairwise fun p q => middle.locate p.1 ≠ middle.locate q.1 :=
        hrest.imp_of_mem fun hp hq hne => by rwa [hlocate _ hp, hlocate _ hq]
      obtain ⟨after, hafter, hwrote⟩ := ih hwritable' hdistinct'
      refine ⟨after, ?_, hwrote.cons hopens.locate_eq hat hlocate ?_⟩
      · unfold writeAll at hafter ⊢
        rw [List.foldlM_cons, hwrite]
        exact hafter
      · intro p hp hsame
        exact hapart p hp (hopens.locate_eq.trans hsame.symm)

/-- Texts for some of several paths that are writable and lead to different places. -/
theorem exists_writeAll_of_sublist {texts : List (String × String)} {paths : List String}
    (hpaths : (texts.map Prod.fst).Sublist paths) (hwritable : ∀ path ∈ paths, t.Writable path)
    (hdistinct : (paths.map t.locate).Nodup) :
    ∃ after, t.writeAll texts = .ok after ∧ t.Wrote after texts := by
  refine exists_writeAll (fun p hp => ?_) ?_
  · exact hwritable p.1 (hpaths.subset (List.mem_map_of_mem hp))
  · have hnodup : ((texts.map Prod.fst).map t.locate).Nodup := (hpaths.map _).nodup hdistinct
    rwa [List.map_map, List.Nodup, List.pairwise_map] at hnodup

end FileTable

end Sequencer
