import QueueScript.CommandLine.Basic
import QueueScript.Proofs.Escapes

/-! # How batch runs end

A command that runs a program ends with 0 if the whole program can be read and every token of it is
executed with success, and else with 1 and one report on the error stream. Beyond this report a run
that logs nothing writes only its values.

A file that cannot be read gives no program, and the command says so and ends with 1. A file that is not
UTF-8 gives no program either, and is the one argument that a command does not answer with an exit code.
-/

namespace QueueScript

namespace Run

/-! ## Runs that log nothing -/

/-- The second console logs as much as the first one, and has logged no more if this is nothing. -/
def Unlogged (c d : Console) : Prop :=
  d.detail = c.detail ∧ (c.detail = .nothing → d.log = c.log)

theorem Unlogged.refl (c : Console) : Unlogged c c :=
  ⟨rfl, fun _ => rfl⟩

theorem Unlogged.trans {c d e : Console} (first : Unlogged c d) (second : Unlogged d e) :
    Unlogged c e :=
  ⟨second.1.trans first.1,
    fun quiet => (second.2 (first.1.trans quiet)).trans (first.2 quiet)⟩

theorem unlogged_record (c : Console) {e : Event} (h : e.log = []) :
    Unlogged c (c.record e) := by
  refine ⟨rfl, fun _ => ?_⟩
  simp only [Console.log, Console.record, List.flatMap_append, List.flatMap_singleton, h,
    List.append_nil]

theorem unlogged_writeErr (c : Console) (t : Text) : Unlogged c (c.writeErr t).2 := by
  unfold Console.writeErr
  split
  · exact unlogged_record c rfl
  · exact .refl c
  · exact ⟨rfl, (unlogged_record c (e := .notice t) rfl).2⟩

theorem unlogged_readLine (c : Console) (span : Option Span) : Unlogged c (c.readLine span).2 := by
  have asked : Unlogged c (c.ask span).2 := by
    unfold Console.ask
    split
    · split
      · exact unlogged_writeErr c _
      · exact .refl c
    · exact .refl c
  have taken : ∀ d : Console, Unlogged d d.takeLine.2 := by
    intro d
    unfold Console.takeLine
    split <;> exact ⟨rfl, fun _ => rfl⟩
  unfold Console.readLine
  split
  · rename_i result
    rw [result] at asked
    exact asked.trans (taken _)
  · rename_i result
    rw [result] at asked
    exact asked

theorem unlogged_resume {r r' : Run} {m m' : Machine} {found : Answer}
    (h : r.resume m = some (found, r', m')) : Unlogged m.console m'.console := by
  refine resume_console Unlogged.refl Unlogged.trans ?_ unlogged_readLine ?_ h
  · intro c topic message
    unfold Console.debug
    split
    · rename_i covered
      refine ⟨rfl, fun quiet => ?_⟩
      rw [quiet] at covered
      cases covered
    · exact .refl c
  · intro c span v
    obtain ⟨_, -, failed⟩ | ⟨_, -, -, failed⟩ | ⟨lead, room, -, -, shown, -⟩ := c.output_cases span v
    · rw [failed]
      exact .refl c
    · rw [failed]
      exact .refl c
    · rw [shown]
      exact ⟨rfl, (unlogged_record c (e := .value lead v) rfl).2⟩

theorem unlogged_finish {r r' : Run} {m m' : Machine} {ending : Option Fault}
    (h : r.finish m = some (ending, r', m')) : Unlogged m.console m'.console := by
  obtain ⟨tokens, s, mₛ, found, reached, last, -⟩ := exists_reaches_of_finish h
  clear h
  induction reached with
  | refl => exact unlogged_resume last
  | step taken _ ih => exact (unlogged_resume taken).trans (ih last)

end Run

namespace Machine

/-- The whole program of a job can be read, and every token of it is executed with success. -/
def Completes (m : Machine) (job : Job) : Prop :=
  ∃ r tokens s m', job.start = .ok r ∧ tokenize job.program = .ok tokens ∧ r.Reaches m tokens s m'

/-- A run ends without a fault if and only if all of its program is executed. -/
theorem completes_iff {m m' : Machine} {job : Job} {r r' : Run} {ending : Option Fault}
    (begun : job.start = .ok r) (finished : r.finish m = some (ending, r', m')) :
    m.Completes job ↔ ending = none := by
  obtain ⟨feed, made, rfl⟩ := Run.start_eq begun
  obtain ⟨all, last, script⟩ := Feed.exists_script (f := .cursor (.ofProgram job.program)) rfl
  have mine := (Feed.script_ofProgram made).trans script
  have reading := Feed.tokenize_of_script script
  rw [Cursor.ofProgram, List.drop_zero] at reading
  constructor
  · rintro ⟨r₁, tokens, s, mₛ, begun', read, reached⟩
    cases begun.symm.trans begun'
    cases script.symm.trans (Feed.script_ofProgram_of_ok read)
    obtain ⟨late, same, left, running⟩ := reached.exists_late rfl mine
    cases List.self_eq_append_right.mp same
    obtain ⟨f', next, -⟩ := Feed.resume_of_script_nil left
    have ended := Run.finish_of_completed (Run.resume_of_completed running next mₛ)
    cases (finished.symm.trans reached.finish).trans ended
    rfl
  · rintro rfl
    obtain ⟨tokens, s, mₛ, found, reached, ended, stopped⟩ := Run.exists_reaches_of_finish finished
    obtain ⟨late, rfl, left, -⟩ := reached.exists_late rfl mine
    obtain ⟨-, ⟨f', ending, next, rfl, -⟩ | ⟨_, token, n, outcome, _, -, -, rfl, -⟩⟩ :=
      Run.resume_inversion ended
    · cases stopped
      cases left.symm.trans (Feed.script_of_completed next)
      obtain ⟨-, read⟩ | ⟨_, impossible, -⟩ := reading
      · rw [List.append_nil] at read
        exact ⟨_, tokens, s, mₛ, begun, read, reached⟩
      · cases impossible
    · cases outcome with
      | ok _ => cases stopped
      | error fault =>
          rw [Run.answer_error_stop] at stopped
          cases stopped

end Machine

theorem Console.Grows.errWithLog_eq {c d : Console} (h : c.Grows false d) (unlogged : d.log = c.log) :
    d.errWithLog = c.errWithLog := by
  obtain ⟨settings, -, -, added, grown, allowed⟩ := h
  rw [log, grown, List.flatMap_append] at unlogged
  have silent : ∀ e ∈ added, e.log = [] :=
    List.flatMap_eq_nil_iff.mp (List.self_eq_append_right.mp unlogged.symm)
  have unseen : added.flatMap (Event.errWithLog c.settings.color) = [] := by
    rw [List.flatMap_eq_nil_iff]
    intro e member
    have here := allowed e member
    cases e with
    | value lead v => rfl
    | notice t => cases here.1
    | debug message => cases silent _ member
    | print t => exact here.elim
  rw [errWithLog, settings, grown, List.flatMap_append, unseen, List.append_nil, errWithLog]

theorem Console.errWithLog_notice (c : Console) (t : Text) :
    (c.record (.notice t)).errWithLog = c.errWithLog ++ t := by
  simp only [errWithLog, record, List.flatMap_append, List.flatMap_singleton, Event.errWithLog]

theorem Console.out_notice (c : Console) (t : Text) : (c.record (.notice t)).out = c.out := by
  simp only [out, record, List.flatMap_append, List.flatMap_singleton, Event.out, List.append_nil]

theorem Machine.exists_run (m : Machine) (source : Text) (inputs : List Text)
    (quiet : m.console.detail = .nothing) :
    ∃ r k ending r' m', (⟨source, inputs, false⟩ : Job).start = .ok r ∧
      r.finish m = some (ending, r', m') ∧ (r.resumeMany m k).2 = (r', m') ∧
      m'.console.errWithLog = m.console.errWithLog ∧
      m'.console.out = m.console.out ++ (if m.console.settings.mode = .muted then []
        else (r.written m k).flatMap fun v => v.text ++ ['\n']) := by
  obtain ⟨r, begun⟩ : ∃ r, (⟨source, inputs, false⟩ : Job).start = .ok r := ⟨_, rfl⟩
  obtain ⟨ending, r', m', finished⟩ := Run.exists_finish begun m
  obtain ⟨k, reached⟩ := Run.exists_resumeMany_of_finish finished
  have grown := m.runProgram_grows source inputs false
  rw [runProgram_of_finish begun finished] at grown
  have plain : r.interactive = false := by
    obtain ⟨feed, -, rfl⟩ := Run.start_eq begun
    rfl
  have out := Run.out_resumeMany plain m k
  rw [reached] at out
  exact ⟨r, k, ending, r', m', begun, finished, reached,
    grown.errWithLog_eq ((Run.unlogged_finish finished).2 quiet), out⟩

namespace CommandLine

/-- The source that an argument gives: the text of the file of that name, or the argument itself. -/
inductive Gives (directory : Directory) (program : Text) : Text → Prop where
  | file {bytes : ByteArray} {source : Text} : directory.find program = .file bytes →
      decodeFile? bytes = some source → Gives directory program source
  | absent {reason : Text} : directory.find program = .absent reason → Gives directory program program
  | noPath : directory.find program = .invalidPath → Gives directory program program

/-- The argument is the name of a file that has no text. -/
def Undecodable (directory : Directory) (program : Text) : Prop :=
  ∃ bytes, directory.find program = .file bytes ∧ decodeFile? bytes = none

/-- What is shown of a file that cannot be read. -/
def unreadMessage (program reason : Text) : Text :=
  "could not read file '".toList ++ program ++ "': ".toList ++ reason

theorem programSource_cases (directory : Directory) (program : Text) :
    (Undecodable directory program ∧ programSource directory program = .error (.crash .undecodable)) ∨
    (∃ reason, directory.find program = .unreadable reason ∧
      programSource directory program = .error (.shown (unreadMessage program reason))) ∨
    ∃ source, Gives directory program source ∧ programSource directory program = .ok source := by
  unfold programSource
  cases found : directory.find program with
  | file bytes =>
      cases decoded : decodeFile? bytes with
      | none => exact .inl ⟨⟨bytes, found, decoded⟩, by simp only [decoded, Option.elim]⟩
      | some source =>
          exact .inr (.inr ⟨source, .file found decoded, by simp only [decoded, Option.elim]⟩)
  | unreadable reason => exact .inr (.inl ⟨reason, rfl, rfl⟩)
  | absent reason => exact .inr (.inr ⟨program, .absent found, rfl⟩)
  | invalidPath => exact .inr (.inr ⟨program, .noPath found, rfl⟩)

theorem Gives.decodable {directory : Directory} {program source : Text}
    (h : Gives directory program source) : ¬ Undecodable directory program := by
  rintro ⟨bytes, found, failed⟩
  cases h with
  | file found' decoded =>
      cases found.symm.trans found'
      cases failed.symm.trans decoded
  | absent found' | noPath found' => cases found.symm.trans found'

theorem Gives.readable {directory : Directory} {program source : Text}
    (h : Gives directory program source) (reason : Text) :
    directory.find program ≠ .unreadable reason := by
  intro found
  cases h with
  | file found' | absent found' | noPath found' => cases found.symm.trans found'

/-- Where no fault escapes, the exit code is 0 after a run without a fault, and else 1 with one report. -/
theorem runProgram_of_finish {source : Text} {inputs : List Text} {c : Console} {r r' : Run} {m : Machine}
    {ending : Option Fault} (tame : c.Tame false) (begun : (⟨source, inputs, false⟩ : Job).start = .ok r)
    (fits : r.Fits ⟨[], c⟩) (finished : r.finish ⟨[], c⟩ = some (ending, r', m)) :
    (ending = none ∧ runProgram source inputs c = (.exit 0, m.console)) ∨
    ∃ fault, ending = some fault ∧
      (Machine.mk [] c).runProgram source inputs false = (.failure fault r'.span, m) ∧
      runProgram source inputs c =
        (.exit 1, m.console.record (.notice ((Problem.fault fault).report (some r'.span) ++ ['\n']))) := by
  have verdict := Machine.runProgram_of_finish begun finished
  cases ending with
  | none =>
      refine .inl ⟨rfl, ?_⟩
      unfold runProgram
      rw [verdict]
      rfl
  | some fault =>
      have ended := Run.not_escapes_of_finish begun tame fits finished
      have failed : Verdict.ofFault r'.span (some fault) = .failure fault r'.span :=
        Verdict.ofFault_eq_failure_iff.mpr ⟨rfl, ended, rfl⟩
      rw [failed] at verdict
      refine .inr ⟨fault, rfl, verdict, ?_⟩
      unfold runProgram
      rw [verdict]
      rfl

/-- Exit codes tell success. An argument that is the name of a file without a text crashes the command
    before anything is run or written, and one that is the name of a file that cannot be read is
    reported, with the exit code 1. With any other argument the command runs the source that the
    argument gives, on an empty queue, and exits. It exits with 0 and leaves the error stream empty if
    the whole source can be read and all of it is executed with success. Else it exits with 1, and on
    the error stream stands the report of the failure and nothing more. Either way the values that were
    written up to the end are on the output, unless the console is muted. -/
theorem exit_codes_tell_success (invocation : Invocation) (settings : Settings) (program : Text)
    (inputs : List Text) (level : settings.level ≠ .debug)
    (ends : invocation.inputEnd = .endOfFile)
    (fits : ∀ source, Gives invocation.directory program source →
      (Machine.mk [] (console invocation settings)).Fits ⟨source, inputs, false⟩) :
    let c := console invocation settings
    let m : Machine := ⟨[], c⟩
    let result := runArgument invocation.directory program inputs c
    (Undecodable invocation.directory program → result = (.crash .undecodable, c)) ∧
    (∀ reason, invocation.directory.find program = .unreadable reason →
      result.1 = .exit 1 ∧ result.2.out = [] ∧
        result.2.errWithLog = "Error: ".toList ++ unreadMessage program reason ++ ['\n']) ∧
    (¬ Undecodable invocation.directory program →
      (∀ reason, invocation.directory.find program ≠ .unreadable reason) →
      ∃ source r k ending, Gives invocation.directory program source ∧
        (⟨source, inputs, false⟩ : Job).start = .ok r ∧
        r.finish m = some (ending, (r.resumeMany m k).2) ∧
        ((m.Completes ⟨source, inputs, false⟩ ∧ result.1 = .exit 0 ∧ result.2.errWithLog = []) ∨
          (¬ m.Completes ⟨source, inputs, false⟩ ∧ result.1 = .exit 1 ∧
            ∃ fault span, (m.runProgram source inputs false).1 = .failure fault span ∧
              result.2.errWithLog = (Problem.fault fault).report (some span) ++ ['\n'])) ∧
        result.2.out = if settings.mode = .muted then []
          else (r.written m k).flatMap fun v => v.text ++ ['\n']) := by
  intro c m result
  obtain ⟨undecodable, given⟩ | ⟨reason, unreadable, given⟩ | ⟨source, gives, given⟩ :=
    programSource_cases invocation.directory program
  · have crashed : result = (.crash .undecodable, c) := by
      simp only [result, runArgument, given, giveUp]
    refine ⟨fun _ => crashed, ?_, fun decodable => absurd undecodable decodable⟩
    intro reason unreadable
    obtain ⟨bytes, found, -⟩ := undecodable
    cases found.symm.trans unreadable
  · refine ⟨?_, ?_, fun _ readable => absurd unreadable (readable reason)⟩
    · rintro ⟨bytes, found, -⟩
      cases found.symm.trans unreadable
    · intro reason' unreadable'
      cases unreadable.symm.trans unreadable'
      simp only [result, runArgument, given, giveUp]
      exact ⟨trivial, c.out_notice _, c.errWithLog_notice _⟩
  · refine ⟨fun undecodable => absurd undecodable gives.decodable,
      fun reason unreadable => absurd unreadable (gives.readable reason), fun _ _ => ?_⟩
    obtain ⟨r, k, ending, r', m', begun, finished, reached, silent, shown⟩ :=
      m.exists_run source inputs (if_neg level)
    have tame : c.Tame false := by
      refine ⟨?_, .inl rfl, nofun, nofun⟩
      have same : c.inputEnd = .endOfFile := ends
      rw [same]
      rfl
    refine ⟨source, r, k, ending, gives, begun, by rw [reached]; exact finished, ?_⟩
    simp only [result, runArgument, given]
    obtain ⟨rfl, exited⟩ | ⟨fault, rfl, failed, exited⟩ :=
      runProgram_of_finish tame begun (fits source gives r begun) finished
    · rw [exited]
      exact ⟨.inl ⟨(Machine.completes_iff begun finished).mpr rfl, rfl, silent⟩, shown⟩
    · rw [exited]
      refine ⟨.inr ⟨?_, rfl, fault, r'.span, by rw [failed], ?_⟩, ?_⟩
      · intro completes
        cases (Machine.completes_iff begun finished).mp completes
      · rw [Console.errWithLog_notice, silent]
        rfl
      · rw [Console.out_notice]
        exact shown

theorem find_only_file (content : ByteArray) :
    (Directory.ofFiles [(['p'], content)]).find ['p'] = .file content := by
  have names : Directory.names ['p'] = [['p']] := by
    rw [Directory.names, Text.fragments]
    rfl
  simp only [Directory.ofFiles, Directory.normalPath, Directory.walk, List.find?_cons, names]
  rfl

/-- A file whose program reads a line and writes it. -/
theorem exit_codes_tell_success_echo :
    let directory := Directory.ofFiles [(['p'], ⟨#[0x3c, 0x3e]⟩)]
    let invocation : Invocation := { arguments := [], input := ['a', '\n'], directory }
    let c := console invocation {}
    let result := runArgument directory ['p'] [] c
    ({} : Settings).level ≠ .debug ∧ invocation.inputEnd = .endOfFile ∧
    Gives directory ['p'] ['<', '>'] ∧
    (∀ source, Gives directory ['p'] source → (Machine.mk [] c).Fits ⟨source, [], false⟩) ∧
    (Machine.mk [] c).Completes ⟨['<', '>'], [], false⟩ ∧
    result.1 = .exit 0 ∧ result.2.errWithLog = [] := by
  intro directory invocation c result
  have found : directory.find ['p'] = .file ⟨#[0x3c, 0x3e]⟩ := find_only_file _
  have decoded : decodeFile? ⟨#[0x3c, 0x3e]⟩ = some ['<', '>'] := by decide
  have only : ∀ source, Gives directory ['p'] source → source = ['<', '>'] := by
    intro source gives
    cases gives with
    | file found' decoded' =>
        cases found.symm.trans found'
        exact Option.some.inj (decoded'.symm.trans decoded)
    | absent found' | noPath found' => cases found.symm.trans found'
  have read : tokenize ['<', '>'] = .ok [(.input, 1), (.output, 1)] := by
    rw [tokenize_of_scan rfl, tokenize_of_scan rfl, tokenize_of_empty rfl]
    rfl
  have fits : ∀ source, Gives directory ['p'] source → (Machine.mk [] c).Fits ⟨source, [], false⟩ := by
    intro source gives r begun
    cases only source gives
    cases begun
    exact Run.fits_of_script rfl (Feed.script_ofProgram_of_ok read) (by decide)
  have completes : (Machine.mk [] c).Completes ⟨['<', '>'], [], false⟩ :=
    ⟨_, _, _, _, rfl, read, .step rfl (.step rfl (.refl _ _))⟩
  have gives : Gives directory ['p'] ['<', '>'] := .file found decoded
  obtain ⟨source, r, k, ending, gives', -, -, ended, -⟩ :=
    (exit_codes_tell_success invocation {} ['p'] [] (by decide) rfl fits).2.2 gives.decodable
      gives.readable
  cases only source gives'
  obtain ⟨-, exited, silent⟩ | ⟨fails, -⟩ := ended
  · exact ⟨by decide, rfl, gives, fits, completes, exited, silent⟩
  · exact absurd completes fails

/-- A file of one byte that begins no character. -/
theorem undecodable_file_has_no_exit_code :
    let directory := Directory.ofFiles [(['p'], ⟨#[0xff]⟩)]
    let result := runArgument directory ['p'] [] (console { arguments := [], directory } {})
    directory.find ['p'] = .file ⟨#[0xff]⟩ ∧ (∀ code, result.1 ≠ .exit code) ∧
      result.2.errWithLog = [] := by
  intro directory result
  have found : directory.find ['p'] = .file ⟨#[0xff]⟩ := find_only_file _
  have undecodable : decodeFile? ⟨#[0xff]⟩ = none := by decide
  have crashed : result = (.crash .undecodable, console { arguments := [], directory } {}) := by
    simp only [result, runArgument, programSource, found, undecodable]
    rfl
  rw [crashed]
  exact ⟨found, nofun, rfl⟩

end CommandLine

end QueueScript
