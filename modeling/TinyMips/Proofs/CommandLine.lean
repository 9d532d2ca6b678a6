import TinyMips.CommandLine
import TinyMips.Proofs.Machine.Independence

/-!
# Commands on files

A command ends early where a file cannot be used, and shows a run in one of two forms. Its exit code
follows from the files alone:

* **files** — what can be read, assembled and used as settings (`SourceFile.Reads`,
  `SourceFile.Assembles`, `Settings.Given`), and the loaders that find it out
  (`SourceFile.program_eq_ok_iff`, `Command.settingsOf_eq_ok_iff`);
* **text** — a run shows its time on one line (`Outcome.runText_timed`), and hiding its trace is as
  good as not keeping it (`Outcome.runText_quiet`);
* **commands** — when each of them succeeds, and which options do not matter
  (`Command.paths_agree`).
-/

namespace TinyMips

/-! ## Files -/

namespace SourceFile

/-- Whether a file can be read and holds a text. -/
def Reads (file : SourceFile) (text : String) : Prop :=
  ∃ bytes, file.content = .ok bytes ∧ String.fromUTF8? bytes = some text

/-- Whether a file can be read and its text assembles to a program. -/
def Assembles (file : SourceFile) (program : Program) : Prop :=
  ∃ text, file.Reads text ∧ Program.ofSource text = .ok program

variable {file : SourceFile}

theorem text_eq_ok_iff {text : String} : file.text = .ok text ↔ file.Reads text := by
  unfold SourceFile.text Reads
  cases file.content with
  | error error => simp
  | ok bytes => cases decoded : String.fromUTF8? bytes <;> simp [decoded]

theorem program_eq_ok_iff {program : Program} :
    file.program = .ok program ↔ file.Assembles program := by
  unfold SourceFile.program Assembles
  simp only [← text_eq_ok_iff]
  cases file.text with
  | error error => simp
  | ok text => cases assembled : Program.ofSource text <;> simp [assembled]

theorem settings_eq_ok_iff {settings : Settings} :
    file.settings = .ok settings ↔
      ∃ text, file.Reads text ∧ Settings.ofText? text = some settings := by
  unfold SourceFile.settings
  simp only [← text_eq_ok_iff]
  cases file.text with
  | error error => simp
  | ok text => cases parsed : Settings.ofText? text <;> simp [parsed]

/-- A file with the encoding of a text holds that text. -/
theorem reads_toUTF8 (name text : String) :
    SourceFile.Reads { name, content := .ok text.toUTF8 } text :=
  ⟨_, rfl, dif_pos text.isValidUTF8⟩

end SourceFile

/-- Whether a file, or none, gives the settings of a run: the file must be readable and parse. -/
inductive Settings.Given : Option SourceFile → Settings → Prop where
  | default : Given none {}
  | file (file : SourceFile) (text : String) (settings : Settings) (reads : file.Reads text)
    (parses : Settings.ofText? text = some settings) : Given (some file) settings

theorem Command.settingsOf_eq_ok_iff {file : Option SourceFile} {settings : Settings} :
    settingsOf file = .ok settings ↔ Settings.Given file settings := by
  cases file with
  | none =>
    constructor
    · intro given
      obtain rfl := Except.ok.inj given
      exact .default
    · intro given
      cases given
      rfl
  | some file =>
    show file.settings = .ok settings ↔ _
    rw [SourceFile.settings_eq_ok_iff]
    constructor
    · rintro ⟨text, reads, parses⟩
      exact .file file text settings reads parses
    · intro given
      cases given with
      | file _ text _ reads parses => exact ⟨text, reads, parses⟩

/-! ## Text -/

/-- The line of a report that tells how long a run took. -/
def Statistics.hostSecondsLine (nanoseconds : Nat) : String :=
  s!"host_seconds             {secondsText nanoseconds} s"

/-- The time that a run took is on one line of its statistics. -/
theorem Statistics.lines_timed (stats : Statistics) :
    ∃ front last rest, ∀ nanoseconds,
      stats.lines nanoseconds = front ++ last :: hostSecondsLine nanoseconds :: rest :=
  ⟨["", "==========================================================", "RUN STATISTICS"],
    "==========================================================", _, fun _ => rfl⟩

/-- Whether two printed texts are the same whatever time they show, or the same apart from the line
that shows it. -/
inductive SameButTime (text other : Nat → String) : Prop where
  | timeless (same : ∀ first second, text first = other second)
  | timed (before after : String)
    (left : ∀ nanoseconds, text nanoseconds =
      before ++ "\n" ++ Statistics.hostSecondsLine nanoseconds ++ "\n" ++ after)
    (right : ∀ nanoseconds, other nanoseconds =
      before ++ "\n" ++ Statistics.hostSecondsLine nanoseconds ++ "\n" ++ after)

namespace Outcome

theorem unlines_cons (line : String) (lines : List String) :
    unlines (line :: lines) = line ++ "\n" ++ unlines lines := by
  have onto (lines : List String) (text : String) :
      lines.foldl (fun text line => text ++ line ++ "\n") text = text ++ unlines lines := by
    unfold unlines
    induction lines generalizing text with
    | nil => simp
    | cons line rest ih =>
      rw [List.foldl_cons, List.foldl_cons, ih, ih ("" ++ line ++ "\n")]
      simp only [String.append_assoc, String.empty_append]
  have first := onto lines ("" ++ line ++ "\n")
  rw [String.empty_append] at first
  exact first

theorem unlines_append (lines others : List String) :
    unlines (lines ++ others) = unlines lines ++ unlines others := by
  induction lines with
  | nil => exact (String.empty_append).symm
  | cons line rest ih =>
    rw [List.cons_append, unlines_cons, ih, unlines_cons]
    exact String.append_assoc.symm

variable (simulation : Simulation) (result : Except Fault Unit) (settings : Settings)

theorem runText_timed (quiet : Bool) :
    ∃ before after, ∀ nanoseconds, runText simulation result settings quiet nanoseconds =
      before ++ "\n" ++ Statistics.hostSecondsLine nanoseconds ++ "\n" ++ after := by
  let machine := simulation.machine
  obtain ⟨front, last, rest, timed⟩ := machine.statistics.lines_timed
  let earlier := machine.log.lines "\n[*] Runtime warnings:" ++ ["", resultLine result] ++
    stateLines machine settings ++ front
  refine ⟨unlines (simulation.buildLog.lines "[*] Assembly warnings:") ++
    traceSection machine quiet ++ (unlines earlier ++ last), unlines rest, fun nanoseconds => ?_⟩
  unfold runText
  dsimp only
  rw [timed, ← List.append_assoc, unlines_append, unlines_cons, unlines_cons]
  simp only [String.append_assoc]
  rfl

/-- A run without its trace reads like the run of a machine that kept none. -/
theorem runText_quiet (nanoseconds : Nat) :
    runText simulation result settings true nanoseconds =
      runText simulation.untraced result { settings with trace := false } false nanoseconds := by
  unfold runText traceSection
  dsimp only
  rw [if_pos (.inl rfl), if_pos (.inr rfl)]
  rfl

/-- The exit code tells success and nothing else. -/
theorem exitCode_printout (outcome : Outcome) (nanoseconds : Nat) :
    (outcome.printout nanoseconds).exitCode = if outcome.succeeded then 0 else 1 := by
  cases outcome <;> rfl

end Outcome

/-! ## Commands -/

namespace Command

/-- What a command that takes so many nanoseconds prints, and its exit code. -/
def printout (command : Command) (nanoseconds : Nat) : Printout :=
  command.perform.printout nanoseconds

theorem exitCode_eq_zero_iff (command : Command) (nanoseconds : Nat) :
    (command.printout nanoseconds).exitCode = 0 ↔ command.perform.succeeded = true := by
  unfold printout
  rw [Outcome.exitCode_printout]
  cases command.perform.succeeded <;> decide

section Run

variable {file : SourceFile} {settings : Option SourceFile} {given : Settings}

/-- With settings, a run is the simulation of what the file assembles to. -/
theorem performRun_of_given (h : Settings.Given settings given) (options : RunOptions) :
    performRun file settings options =
      match file.program with
      | .error error => .notLoaded error
      | .ok program =>
        let ran := (Simulation.load program given.trace given.maxSteps.toNat).run
        .ran ran.2 ran.1 given options := by
  have loaded := settingsOf_eq_ok_iff.mpr h
  unfold performRun
  cases file.program <;> rw [loaded]

theorem succeeded_performRun (options : RunOptions) :
    (performRun file settings options).succeeded = true ↔
      ∃ given program, Settings.Given settings given ∧ file.Assembles program ∧
        (Simulation.load program given.trace given.maxSteps.toNat).run.1 = .ok () := by
  simp only [← settingsOf_eq_ok_iff, ← SourceFile.program_eq_ok_iff]
  cases loaded : settingsOf settings with
  | error error =>
    unfold performRun
    rw [loaded]
    simp [Outcome.succeeded]
  | ok given =>
    rw [performRun_of_given (settingsOf_eq_ok_iff.mp loaded)]
    cases file.program with
    | error error => simp [Outcome.succeeded]
    | ok program =>
      simp only [Except.ok.injEq, exists_and_left, exists_eq_left']
      cases (Simulation.load program given.trace given.maxSteps.toNat).run.1 <;>
        simp [Outcome.succeeded]

theorem succeeded_check :
    (perform (.check file)).succeeded = true ↔ ∃ program, file.Assembles program := by
  simp only [← SourceFile.program_eq_ok_iff, perform]
  cases file.program <;> simp [Outcome.succeeded]

/-- A document tells neither whether a trace was wanted nor how long the run took. -/
theorem printout_json (quiet other : Bool) (first second : Nat) :
    (run file settings { json := true, quiet }).printout first =
      (run file settings { json := true, quiet := other }).printout second := by
  unfold printout perform
  dsimp only
  cases loaded : settingsOf settings with
  | error error =>
    unfold performRun
    rw [loaded]
    rfl
  | ok given =>
    have h := settingsOf_eq_ok_iff.mp loaded
    rw [performRun_of_given h, performRun_of_given h]
    cases file.program with
    | error error => rfl
    | ok program =>
      dsimp only
      cases (Simulation.load program given.trace given.maxSteps.toNat).run.1 <;> rfl

/-- Not showing a trace prints what not keeping it prints. -/
theorem stdout_quiet {untraced : Option SourceFile} (h : Settings.Given settings given)
    (h' : Settings.Given untraced { given with trace := false }) :
    SameButTime
      (fun nanoseconds => ((run file settings { quiet := true }).printout nanoseconds).stdout)
      fun nanoseconds => ((run file untraced {}).printout nanoseconds).stdout := by
  unfold printout perform
  dsimp only
  rw [performRun_of_given h, performRun_of_given h']
  cases file.program with
  | error error => exact .timeless fun _ _ => rfl
  | ok program =>
    let simulation := Simulation.load program given.trace given.maxSteps.toNat
    have ran : (Simulation.load program false given.maxSteps.toNat).run =
        (simulation.run.1, simulation.run.2.untraced) := simulation.untraced_runFor _
    dsimp only
    rw [ran]
    obtain ⟨before, after, timed⟩ :=
      Outcome.runText_timed simulation.run.2 simulation.run.1 given true
    refine .timed before after timed fun nanoseconds => ?_
    rw [← timed, Outcome.runText_quiet]
    rfl

end Run

/-- For all files, a run succeeds exactly if its settings, when given, can be read and parse, its
source can be read and assembles, and the simulation ends without a fault; neither option and no
time matters. A check succeeds exactly if the source can be read and assembles, so it does where a
run does. Without a document, hiding the trace prints what switching it off in the settings prints,
apart from the line of the time; with a document, hiding it changes nothing. -/
theorem paths_agree (file : SourceFile) (settings : Option SourceFile) :
    (∀ options nanoseconds, ((run file settings options).printout nanoseconds).exitCode = 0 ↔
      ∃ given program, Settings.Given settings given ∧ file.Assembles program ∧
        (Simulation.load program given.trace given.maxSteps.toNat).run.1 = .ok ()) ∧
    (∀ options other first second, ((run file settings options).printout first).exitCode =
      ((run file settings other).printout second).exitCode) ∧
    (∀ nanoseconds, ((check file).printout nanoseconds).exitCode = 0 ↔
      ∃ program, file.Assembles program) ∧
    (∀ options first second, ((run file settings options).printout first).exitCode = 0 →
      ((check file).printout second).exitCode = 0) ∧
    (∀ given untraced, Settings.Given settings given →
      Settings.Given untraced { given with trace := false } →
        SameButTime
          (fun nanoseconds => ((run file settings { quiet := true }).printout nanoseconds).stdout)
          fun nanoseconds => ((run file untraced {}).printout nanoseconds).stdout) ∧
    ∀ first second, (run file settings { json := true, quiet := true }).printout first =
      (run file settings { json := true }).printout second := by
  refine ⟨?_, ?_, ?_, ?_, ?_, ?_⟩
  · intro options nanoseconds
    rw [exitCode_eq_zero_iff]
    exact succeeded_performRun options
  · intro options other first second
    have same : (run file settings options).perform.succeeded =
        (run file settings other).perform.succeeded := by
      rw [Bool.eq_iff_iff]
      exact (succeeded_performRun options).trans (succeeded_performRun other).symm
    unfold printout
    rw [Outcome.exitCode_printout, Outcome.exitCode_printout, same]
  · intro nanoseconds
    rw [exitCode_eq_zero_iff]
    exact succeeded_check
  · intro options first second
    rw [exitCode_eq_zero_iff, exitCode_eq_zero_iff]
    intro succeeded
    obtain ⟨-, program, -, assembles, -⟩ := (succeeded_performRun options).mp succeeded
    exact succeeded_check.mpr ⟨program, assembles⟩
  · intro given untraced h h'
    exact stdout_quiet h h'
  · exact printout_json true false

/-- A run with seven steps at most halts; its settings are given as an object and, without the
trace, as a list. -/
theorem paths_agree_of_halt :
    let file : SourceFile := { name := "halt.asm", content := .ok "halt".toUTF8 }
    let settings : SourceFile :=
      { name := "run.json", content := .ok "\x7b\"general\": \x7b\"max_steps\": 7\x7d\x7d".toUTF8 }
    let untraced : SourceFile := { name := "quiet.json", content := .ok "[[false, 7]]".toUTF8 }
    ((run file (some settings) {}).printout 0).exitCode = 0 ∧
      ((check file).printout 0).exitCode = 0 ∧
      SameButTime
        (fun nanoseconds =>
          ((run file (some settings) { quiet := true }).printout nanoseconds).stdout)
        fun nanoseconds => ((run file (some untraced) {}).printout nanoseconds).stdout := by
  intro file settings untraced
  have given : Settings.Given (some settings) { maxSteps := 7 } :=
    .file settings _ _ (SourceFile.reads_toUTF8 _ _) (by decide +kernel)
  have given' : Settings.Given (some untraced) { trace := false, maxSteps := 7 } :=
    .file untraced _ _ (SourceFile.reads_toUTF8 _ _) (by decide +kernel)
  have halts : (Program.ofSource "halt").toOption.map
      (fun program => (Simulation.load program true 7).run.1.isOk) = some true := by
    decide +kernel
  obtain ⟨run, -, -, implies, quiet, -⟩ := paths_agree file (some settings)
  have exits : ((Command.run file (some settings) {}).printout 0).exitCode = 0 := by
    refine (run {} 0).mpr ?_
    cases assembled : Program.ofSource "halt" with
    | error reasons =>
      rw [assembled] at halts
      contradiction
    | ok program =>
      rw [assembled] at halts
      have ok : (Simulation.load program true 7).run.1.isOk = true := Option.some.inj halts
      refine ⟨_, program, given, ⟨"halt", SourceFile.reads_toUTF8 _ _, assembled⟩, ?_⟩
      show (Simulation.load program true 7).run.1 = .ok ()
      cases result : (Simulation.load program true 7).run.1 with
      | ok => rfl
      | error fault =>
        rw [result] at ok
        cases ok
  exact ⟨exits, implies {} 0 0 exits, quiet _ _ given given'⟩

end Command

end TinyMips
