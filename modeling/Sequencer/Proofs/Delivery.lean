import Sequencer.CommandLine
import Sequencer.Proofs.DotReading
import Sequencer.Proofs.Drawing
import Sequencer.Proofs.FileWrites
import Sequencer.Proofs.RoundTrip

/-!
# What a run of the command line leaves behind

A run first loads the description, checks its targets if asked to, and compiles it;
only then does it deliver anything.  It is shown here what the run has printed and
which files it has written when it ends, for each way in which it can end: the front
end fails, the diagram cannot be drawn although the code was delivered, or all that
was asked for is written.

A plan is a list of steps, so what it prints and writes is read off its steps first.
Carrying it out is then a matter of writing several files one after the other.

## Main Definitions

* `Step.printed?`, `Step.written?` — what one step prints and writes.
* `CommandLine.FrontEndFails` — nothing can be compiled.
* `CommandLine.Arguments.outputs` — the paths that are asked for.

## Main Results

* `Plan.run_of_writeAll` — a plan whose files can all be written.
* `CommandLine.plan_of_frontEndFails`, `CommandLine.exists_plan_of_not_frontEndFails` —
  the plan of a run.
* `run_output_follows_front_end` — what a run leaves behind.
-/

namespace Sequencer

/-! ### Carrying out a plan -/

namespace Step

/-- The text that a step prints. -/
def printed? : Step → Option String
  | print text => some text
  | _ => none

/-- The line that a step logs. -/
def logged? : Step → Option String
  | log line => some line
  | _ => none

/-- The path and the text of the file that a step writes. -/
def written? : Step → Option (String × String)
  | write path text => some (path, text)
  | _ => none

end Step

/-- What a run has done after steps that end with the given files. -/
def Report.after (r : Report) (steps : List Step) (files : FileTable) : Report :=
  { r with
    stdout := r.stdout ++ String.join (steps.filterMap Step.printed?)
    log := r.log ++ steps.filterMap Step.logged?
    files }

namespace Plan

/-- **Steps whose files can all be written are all carried out.** -/
theorem runSteps_of_writeAll {unwritable : String → FileError → Failure}
    {finish : Report → Report} {steps : List Step} {r : Report} {files : FileTable}
    (h : r.files.writeAll (steps.filterMap Step.written?) = .ok files) :
    runSteps unwritable finish steps r = finish (r.after steps files) := by
  induction steps generalizing r with
  | nil =>
      cases h
      simp [runSteps, Report.after]
  | cons step steps ih =>
      cases step with
      | log line =>
          rw [runSteps, ih (r := { r with log := r.log ++ [line] }) h]
          simp [Report.after, Step.printed?, Step.logged?, List.filterMap_cons]
      | print text =>
          rw [runSteps, ih (r := { r with stdout := r.stdout ++ text }) h]
          simp [Report.after, Step.printed?, Step.logged?, List.filterMap_cons, String.append_assoc]
      | write path text =>
          change (r.files.write path text).bind
            (fun t => t.writeAll (steps.filterMap Step.written?)) = .ok files at h
          -- the first write that failed would end the run, and the writing of the texts with it
          cases hwrite : r.files.write path text with
          | error e =>
              rw [hwrite] at h
              cases h
          | ok middle =>
              rw [hwrite] at h
              rw [runSteps, hwrite]
              exact ih h

/-- The outcome of a plan whose files can all be written. -/
theorem run_of_writeAll {p : Plan} {files after : FileTable}
    (h : files.writeAll (p.steps.filterMap Step.written?) = .ok after) :
    (p.run files).code = (if p.failure.isSome then 1 else 0) ∧
    (p.run files).stdout = String.join (p.steps.filterMap Step.printed?) ∧
    (p.run files).files = after := by
  unfold run
  rw [runSteps_of_writeAll h]
  cases p.failure with
  | none => simp [Report.after]
  | some f => simp [Report.after, Report.fail]

/-- The outcome of a plan that writes to some of several paths, all of which are
writable and lead to different places. -/
theorem run_of_writable {p : Plan} {files : FileTable} {texts : List (String × String)}
    {paths : List String} (htexts : p.steps.filterMap Step.written? = texts)
    (hpaths : (texts.map Prod.fst).Sublist paths)
    (hwritable : ∀ path ∈ paths, files.Writable path)
    (hdistinct : (paths.map files.locate).Nodup) :
    (p.run files).code = (if p.failure.isSome then 1 else 0) ∧
    (p.run files).stdout = String.join (p.steps.filterMap Step.printed?) ∧
    files.Wrote (p.run files).files texts := by
  obtain ⟨after, hafter, hwrote⟩ :=
    FileTable.exists_writeAll_of_sublist hpaths hwritable hdistinct
  rw [← htexts] at hafter
  obtain ⟨hcode, hstdout, hfiles⟩ := run_of_writeAll hafter
  rw [hfiles]
  exact ⟨hcode, hstdout, hwrote⟩

end Plan

namespace CommandLine

/-! ### The steps of a run -/

/-- What a run logs of a machine that is loaded. -/
def notes (a : Arguments) (m : Machine) : List Step :=
  info ("loaded " ++ a.description ++ " states=" ++ m.length.repr) ::
    m.dangling.map fun t => warn t.message

theorem compilePlan_eq (a : Arguments) (d : Description) (id : String) (time : Timestamp) :
    compilePlan a d id time =
      if a.checkTargets && !d.toMachine.isClosed then
        { steps := notes a d.toMachine
          failure := some
            ⟨d.toMachine.dangling.length.repr ++ " dangling transition target(s)", none⟩
          unwritable }
      else
        match d.toMachine.compile d.emitter with
        | .error e =>
            { steps := notes a d.toMachine
              failure := some ⟨"compilation failed", some e.message⟩
              unwritable }
        | .ok code =>
            drawPlan a d.toMachine (Manifest.ofMachine d.toMachine d.emitter id time)
              (notes a d.toMachine ++ deliverSteps a.output code) := rfl

section Steps

variable (a : Arguments) (m : Machine) (manifest : Manifest)

theorem exists_log_of_mem_notes {a : Arguments} {m : Machine} {step : Step}
    (h : step ∈ notes a m) : ∃ line, step = .log line := by
  rcases List.mem_cons.mp h with rfl | h
  · exact ⟨_, rfl⟩
  · obtain ⟨t, -, rfl⟩ := List.mem_map.mp h
    exact ⟨_, rfl⟩

@[simp]
theorem printed?_notes : (notes a m).filterMap Step.printed? = [] := by
  rw [List.filterMap_eq_nil_iff]
  intro step hstep
  obtain ⟨line, rfl⟩ := exists_log_of_mem_notes hstep
  rfl

@[simp]
theorem written?_notes : (notes a m).filterMap Step.written? = [] := by
  rw [List.filterMap_eq_nil_iff]
  intro step hstep
  obtain ⟨line, rfl⟩ := exists_log_of_mem_notes hstep
  rfl

@[simp]
theorem printed?_writeSteps (path text note : String) :
    (writeSteps path text note).filterMap Step.printed? = [] := rfl

@[simp]
theorem written?_writeSteps (path text note : String) :
    (writeSteps path text note).filterMap Step.written? = [(path, text)] := rfl

/-- The code is all that is printed, unless it goes to a file. -/
theorem join_printed?_delivery (output : Option String) (code : String) :
    String.join ((notes a m ++ deliverSteps output code).filterMap Step.printed?) =
      if output = none then code ++ "\n" else "" := by
  rw [List.filterMap_append, printed?_notes]
  cases output with
  | none => simp [deliverSteps, Step.printed?]
  | some path => rfl

theorem written?_delivery (output : Option String) (code : String) :
    (notes a m ++ deliverSteps output code).filterMap Step.written? =
      output.toList.map (·, code) := by
  rw [List.filterMap_append, written?_notes]
  cases output <;> rfl

@[simp]
theorem printed?_listSteps : (listSteps a m manifest).filterMap Step.printed? = [] := by
  unfold listSteps
  rw [List.filterMap_append]
  cases a.states <;> cases a.manifest <;> rfl

@[simp]
theorem written?_listSteps :
    (listSteps a m manifest).filterMap Step.written? =
      a.states.toList.map (·, statesText m) ++ a.manifest.toList.map (·, manifest.pretty) := by
  unfold listSteps
  rw [List.filterMap_append]
  cases a.states <;> cases a.manifest <;> rfl

end Steps

/-- A diagram that is asked for and cannot be drawn ends the run after the steps before. -/
theorem drawPlan_of_failure {a : Arguments} {m : Machine} (manifest : Manifest)
    (before : List Step) (hdot : a.dot.isSome) (hfailure : m.draw.failure.isSome) :
    (drawPlan a m manifest before).failure.isSome ∧
    (drawPlan a m manifest before).steps.filterMap Step.printed? =
      before.filterMap Step.printed? ∧
    (drawPlan a m manifest before).steps.filterMap Step.written? =
      before.filterMap Step.written? := by
  obtain ⟨path, hpath⟩ := Option.isSome_iff_exists.mp hdot
  obtain ⟨e, he⟩ := Option.isSome_iff_exists.mp hfailure
  unfold drawPlan Machine.toDot Machine.drawInto
  rw [hpath, he]
  exact ⟨rfl, rfl, rfl⟩

/-- Otherwise the run goes on to the end and writes what is asked for. -/
theorem drawPlan_of_no_failure {a : Arguments} {m : Machine} (manifest : Manifest)
    (before : List Step) (h : ¬ (a.dot.isSome ∧ m.draw.failure.isSome)) :
    (drawPlan a m manifest before).failure = none ∧
    (drawPlan a m manifest before).steps.filterMap Step.printed? =
      before.filterMap Step.printed? ∧
    (drawPlan a m manifest before).steps.filterMap Step.written? =
      before.filterMap Step.written? ++
        (a.dot.toList.map (·, DotGraph.text { calls := m.draw.calls }) ++
          (a.states.toList.map (·, statesText m) ++
            a.manifest.toList.map (·, manifest.pretty))) := by
  unfold drawPlan
  cases hdot : a.dot with
  | none => simp
  | some path =>
      have hdrawn : m.draw.failure = none := by
        rw [hdot] at h
        simpa using h
      have hgraph : m.toDot {} = ({ calls := m.draw.calls }, none) := by
        unfold Machine.toDot Machine.drawInto
        rw [hdrawn, DotGraph.foldl_feed]
        rfl
      rw [hgraph]
      simp

/-! ### The front end -/

/-- **The front end fails**: the description is missing or does not parse, or one of
the targets that are to be checked dangles, or the machine does not compile. -/
inductive FrontEndFails (a : Arguments) (files : FileTable) : Prop
  | missing {cause : FileError} (hread : files.readText a.description = .error cause)
  | malformed {text : String} {cause : Json.ReadError}
      (hread : files.readText a.description = .ok text)
      (hparse : Description.parse text = .error cause)
  | dangles {d : Description} {t : Dangling}
      (hload : Description.load files a.description = .ok d) (hcheck : a.checkTargets = true)
      (hdangling : t ∈ d.toMachine.dangling)
  | uncompiled {d : Description} {fault : ShapeError}
      (hload : Description.load files a.description = .ok d)
      (hcompile : d.toMachine.compile d.emitter = .error fault)

theorem load_eq_ok_iff {files : FileTable} {path : String} {d : Description} :
    Description.load files path = .ok d ↔
      ∃ text, files.readText path = .ok text ∧ Description.parse text = .ok d := by
  unfold Description.load Description.ofRead
  cases files.readText path with
  | error cause => simp
  | ok text =>
      cases hparse : Description.parse text with
      | error cause => simp [hparse]
      | ok d' => simp [hparse]

theorem plan_of_load {a : Arguments} {files : FileTable} {d : Description}
    (h : Description.load files a.description = .ok d) (id : String) (time : Timestamp) :
    plan a (files.readText a.description) id time = compilePlan a d id time := by
  unfold plan
  rw [← Description.load, h]

/-- **Behind a failed front end the plan is to log and to fail.** -/
theorem plan_of_frontEndFails {a : Arguments} {files : FileTable} (h : FrontEndFails a files)
    (id : String) (time : Timestamp) :
    (plan a (files.readText a.description) id time).failure.isSome ∧
    (plan a (files.readText a.description) id time).steps.filterMap Step.printed? = [] ∧
    (plan a (files.readText a.description) id time).steps.filterMap Step.written? = [] := by
  cases h with
  | missing hread =>
      unfold plan Description.ofRead
      rw [hread]
      exact ⟨rfl, rfl, rfl⟩
  | malformed hread hparse =>
      unfold plan Description.ofRead
      rw [hread]
      dsimp only
      rw [hparse]
      exact ⟨rfl, rfl, rfl⟩
  | @dangles d t hload hcheck hdangling =>
      have hopen : d.toMachine.isClosed = false :=
        List.isEmpty_eq_false_iff.mpr (List.ne_nil_of_mem hdangling)
      rw [plan_of_load hload, compilePlan_eq, hcheck, hopen]
      simp
  | uncompiled hload hcompile =>
      rw [plan_of_load hload, compilePlan_eq, hcompile]
      split <;> simp

/-- **Otherwise there is code, and it is delivered before anything else.** -/
theorem exists_plan_of_not_frontEndFails {a : Arguments} {files : FileTable}
    (h : ¬ FrontEndFails a files) (id : String) (time : Timestamp) :
    ∃ d code, Description.load files a.description = .ok d ∧
      d.toMachine.compile d.emitter = .ok code ∧
      plan a (files.readText a.description) id time =
        drawPlan a d.toMachine (Manifest.ofMachine d.toMachine d.emitter id time)
          (notes a d.toMachine ++ deliverSteps a.output code) := by
  cases hread : files.readText a.description with
  | error cause => exact absurd (.missing hread) h
  | ok text =>
      cases hparse : Description.parse text with
      | error cause => exact absurd (.malformed hread hparse) h
      | ok d =>
          have hload : Description.load files a.description = .ok d :=
            load_eq_ok_iff.mpr ⟨text, hread, hparse⟩
          cases hcompile : d.toMachine.compile d.emitter with
          | error fault => exact absurd (.uncompiled hload hcompile) h
          | ok code =>
              have hpasses : ¬ (a.checkTargets && !d.toMachine.isClosed) = true := by
                rw [Bool.and_eq_true, Bool.not_eq_true']
                rintro ⟨hcheck, hopen⟩
                obtain ⟨t, ht⟩ :=
                  List.exists_mem_of_ne_nil _ (List.isEmpty_eq_false_iff.mp hopen)
                exact h (.dangles hload hcheck ht)
              refine ⟨d, code, hload, hcompile, ?_⟩
              rw [← hread, plan_of_load hload, compilePlan_eq, if_neg hpasses, hcompile]

/-- The paths to which results are to be written. -/
def Arguments.outputs (a : Arguments) : List String :=
  a.output.toList ++ (a.dot.toList ++ (a.states.toList ++ a.manifest.toList))

end CommandLine

open CommandLine

/-- **Nothing is left behind a failed front end.**  Let the arguments ask for a run.  If
the description is missing or does not parse, or if a target dangles that is to be
checked, or if the machine does not compile, then the run fails, prints nothing and
leaves all files as they are.

Otherwise let the paths that are asked for be writable and lead to different places.
Then the machine has code, and the code is delivered: to its file, or to the standard
output with a newline behind it.  If a diagram is asked for and cannot be drawn, the
run fails with the code as the only file that it wrote.  In all other cases the run
succeeds, and has written just the files that were asked for: the code, the DOT text
of all the calls that draw the machine, the names of the states in order, each with a
newline behind it, and the manifest. -/
theorem run_output_follows_front_end (arguments : List String) (files : FileTable)
    (id : String) (time : Timestamp) (a : Arguments)
    (hrequest : Request.ofArguments arguments = .run a) :
    let report := run arguments files id time
    (FrontEndFails a files →
      report.code ≠ 0 ∧ report.stdout = "" ∧ report.files = files) ∧
    (¬ FrontEndFails a files →
      (∀ path ∈ a.outputs, files.Writable path) → (a.outputs.map files.locate).Nodup →
      ∃ d code, Description.load files a.description = .ok d ∧
        d.toMachine.compile d.emitter = .ok code ∧
        report.stdout = (if a.output = none then code ++ "\n" else "") ∧
        (a.dot.isSome ∧ d.toMachine.draw.failure.isSome →
          report.code ≠ 0 ∧ files.Wrote report.files (a.output.toList.map (·, code))) ∧
        (¬ (a.dot.isSome ∧ d.toMachine.draw.failure.isSome) →
          report.code = 0 ∧
          files.Wrote report.files
            (a.output.toList.map (·, code) ++
              (a.dot.toList.map (·, DotGraph.text { calls := d.toMachine.draw.calls }) ++
                (a.states.toList.map (·, "\n".intercalate d.toMachine.names ++ "\n") ++
                  a.manifest.toList.map
                    (·, (Manifest.ofMachine d.toMachine d.emitter id time).pretty)))))) := by
  intro report
  have hreport : report = (plan a (files.readText a.description) id time).run files := by
    show run arguments files id time = _
    rw [run, hrequest]
  rw [hreport]
  refine ⟨fun hfails => ?_, fun hpasses hwritable hdistinct => ?_⟩
  · obtain ⟨hfailure, hprinted, hwritten⟩ := plan_of_frontEndFails hfails id time
    have hnone : files.writeAll
        ((plan a (files.readText a.description) id time).steps.filterMap Step.written?) =
          .ok files := by
      rw [hwritten]
      rfl
    obtain ⟨hcode, hstdout, hfiles⟩ := Plan.run_of_writeAll hnone
    rw [hcode, hstdout, hfiles, hfailure, hprinted]
    exact ⟨Nat.one_ne_zero, rfl, rfl⟩
  · obtain ⟨d, code, hload, hcompile, hplan⟩ := exists_plan_of_not_frontEndFails hpasses id time
    rw [hplan]
    -- the code is delivered in front of the diagram, whether or not that can be drawn
    have hpath : ∀ (path : Option String) (text : String),
        (path.toList.map (·, text)).map Prod.fst = path.toList := by
      intro path text
      cases path <;> rfl
    by_cases hdraw : a.dot.isSome ∧ d.toMachine.draw.failure.isSome
    · obtain ⟨hfailure, hprinted, hwritten⟩ := drawPlan_of_failure
        (Manifest.ofMachine d.toMachine d.emitter id time)
        (notes a d.toMachine ++ deliverSteps a.output code) hdraw.1 hdraw.2
      rw [written?_delivery] at hwritten
      obtain ⟨hcode, hstdout, hwrote⟩ :=
        Plan.run_of_writable hwritten (by simp [hpath, Arguments.outputs]) hwritable hdistinct
      refine ⟨d, code, hload, hcompile, ?_, fun _ => ⟨?_, hwrote⟩, fun hno => absurd hdraw hno⟩
      · rw [hstdout, hprinted, join_printed?_delivery]
      · rw [hcode, hfailure]
        exact Nat.one_ne_zero
    · obtain ⟨hfailure, hprinted, hwritten⟩ := drawPlan_of_no_failure
        (Manifest.ofMachine d.toMachine d.emitter id time)
        (notes a d.toMachine ++ deliverSteps a.output code) hdraw
      rw [written?_delivery] at hwritten
      obtain ⟨hcode, hstdout, hwrote⟩ :=
        Plan.run_of_writable hwritten (by simp [hpath, Arguments.outputs]) hwritable hdistinct
      refine ⟨d, code, hload, hcompile, ?_, fun hyes => absurd hyes hdraw, fun _ => ⟨?_, hwrote⟩⟩
      · rw [hstdout, hprinted, join_printed?_delivery]
      · rw [hcode, hfailure]
        rfl

/-- The front end gets through to the code of a description. -/
theorem CommandLine.not_frontEndFails {a : Arguments} {files : FileTable} {d : Description}
    {code : String} (hload : Description.load files a.description = .ok d)
    (hclosed : a.checkTargets = true → d.toMachine.dangling = [])
    (hcompile : d.toMachine.compile d.emitter = .ok code) : ¬ FrontEndFails a files := by
  obtain ⟨text, hread, hparse⟩ := load_eq_ok_iff.mp hload
  intro hfails
  cases hfails with
  | missing hread' => cases hread.symm.trans hread'
  | malformed hread' hparse' =>
      cases hread.symm.trans hread'
      cases hparse.symm.trans hparse'
  | dangles hload' hcheck hdangling =>
      cases hload.symm.trans hload'
      rw [hclosed hcheck] at hdangling
      cases hdangling
  | uncompiled hload' hcompile' =>
      cases hload.symm.trans hload'
      cases hcompile.symm.trans hcompile'

/-- A table that holds one description. -/
def describing (d : Description) : FileTable where
  entries := [({ names := ["m.json"] }, .file (.text d.pretty))]

theorem load_describing (d : Description) :
    Description.load (describing d) "m.json" = .ok d :=
  load_eq_ok_iff.mpr ⟨d.pretty, rfl, (d.reads_toJson.readAll_eq (by decide)).2⟩

/-- Files can be written beside the description, each at its own place. -/
theorem outputs_describing (d : Description) (path : String)
    (h : path ∈ ["m.out", "m.dot", "m.txt"]) :
    (describing d).Writable path ∧ (describing d).locate path = .ok { names := [path] } := by
  simp only [List.mem_cons, List.not_mem_nil, or_false] at h
  rcases h with rfl | rfl | rfl
  · exact ⟨⟨"", _, rfl⟩, rfl⟩
  · exact ⟨⟨"", _, rfl⟩, rfl⟩
  · exact ⟨⟨"", _, rfl⟩, rfl⟩

/-- A run without a description. -/
def missingRun : Report := run ["m.json", "--states", "m.txt"] {} "" ⟨0, 0, 0⟩

/-- A run on two states of which the second cannot be drawn. -/
def fanningRun : Report :=
  run ["m.json", "-o", "m.out", "--dot", "m.dot", "--states", "m.txt"]
    (describing ⟨.standard, [placing, fanning]⟩) "" ⟨0, 0, 0⟩

/-- A run on two states that pass on to each other. -/
def passingRun : Report :=
  run ["m.json", "--check-targets", "--states", "m.txt"]
    (describing ⟨.standard, passingPair.states⟩) "" ⟨0, 0, 0⟩

/-- The first run leaves nothing, the second the code alone, and the third prints the
code and leaves the list of states. -/
theorem output_of_three_runs :
    (missingRun.code ≠ 0 ∧ missingRun.stdout = "" ∧ missingRun.files = {}) ∧
    (∃ code, (Machine.ofStates [placing, fanning]).compile .standard = .ok code ∧
      fanningRun.code ≠ 0 ∧ fanningRun.stdout = "" ∧
      fanningRun.files.find? { names := ["m.out"] } = some (.file (.text code)) ∧
      fanningRun.files.find? { names := ["m.dot"] } = none ∧
      fanningRun.files.find? { names := ["m.txt"] } = none) ∧
    ∃ code, passingPair.compile .standard = .ok code ∧
      passingRun.code = 0 ∧ passingRun.stdout = code ++ "\n" ∧
      passingRun.files.find? { names := ["m.txt"] } = some (.file (.text "A\nB\n")) := by
  refine ⟨?_, ?_, ?_⟩
  · obtain ⟨hfails, -⟩ := run_output_follows_front_end ["m.json", "--states", "m.txt"] {} ""
      ⟨0, 0, 0⟩ { description := "m.json", states := some "m.txt" } (by decide)
    exact hfails (.missing rfl)
  · have hload := load_describing ⟨.standard, [placing, fanning]⟩
    have houtputs := outputs_describing ⟨.standard, [placing, fanning]⟩
    obtain ⟨-, hpasses⟩ := run_output_follows_front_end
      ["m.json", "-o", "m.out", "--dot", "m.dot", "--states", "m.txt"]
      (describing ⟨.standard, [placing, fanning]⟩) "" ⟨0, 0, 0⟩
      { description := "m.json", output := some "m.out", dot := some "m.dot",
        states := some "m.txt" } (by decide)
    have hdistinct : (["m.out", "m.dot", "m.txt"].map
        (describing ⟨.standard, [placing, fanning]⟩).locate).Nodup := by
      rw [List.map_congr_left fun path hpath => (houtputs path hpath).2]
      simp
    obtain ⟨d, code, hload', hcompile, hstdout, hdraw, -⟩ :=
      hpasses (not_frontEndFails hload (fun hcheck => nomatch hcheck) rfl)
        (fun path hpath => (houtputs path hpath).1) hdistinct
    cases hload.symm.trans hload'
    obtain ⟨hcode, hwrote⟩ := hdraw ⟨rfl, rfl⟩
    have hother : ∀ path : String, path ≠ "m.out" →
        ∀ p ∈ [("m.out", code)], (describing ⟨.standard, [placing, fanning]⟩).locate p.1 ≠
          .ok { names := [path] } := by
      intro path hpath p hp
      rw [List.mem_singleton.mp hp, (houtputs "m.out" (by simp)).2]
      simpa using Ne.symm hpath
    obtain ⟨place, hplace, hstands⟩ := hwrote.stands ("m.out", code) List.mem_cons_self
    cases (houtputs "m.out" (by simp)).2.symm.trans hplace
    exact ⟨code, hcompile, hcode, hstdout, hstands, hwrote.keeps _ (hother "m.dot" (by decide)),
      hwrote.keeps _ (hother "m.txt" (by decide))⟩
  · have hload := load_describing ⟨.standard, passingPair.states⟩
    have houtputs := outputs_describing ⟨.standard, passingPair.states⟩
    obtain ⟨-, hpasses⟩ := run_output_follows_front_end
      ["m.json", "--check-targets", "--states", "m.txt"]
      (describing ⟨.standard, passingPair.states⟩) "" ⟨0, 0, 0⟩
      { description := "m.json", states := some "m.txt", checkTargets := true } (by decide)
    have hwritable : ∀ path ∈ ["m.txt"],
        (describing ⟨.standard, passingPair.states⟩).Writable path := by
      intro path hpath
      exact (houtputs path (by simp [List.mem_singleton.mp hpath])).1
    obtain ⟨d, code, hload', hcompile, hstdout, -, hdone⟩ :=
      hpasses (not_frontEndFails hload (fun _ => rfl) rfl) hwritable (List.nodup_singleton _)
    cases hload.symm.trans hload'
    obtain ⟨hcode, hwrote⟩ := hdone (fun hdraw => nomatch hdraw.1)
    obtain ⟨place, hplace, hstands⟩ := hwrote.stands ("m.txt", "A\nB\n") List.mem_cons_self
    cases (houtputs "m.txt" (by simp)).2.symm.trans hplace
    exact ⟨code, hcompile, hcode, hstdout, hstands⟩

end Sequencer
