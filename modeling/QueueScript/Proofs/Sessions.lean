import QueueScript.Session
import QueueScript.Proofs.ReadingModes
import QueueScript.Proofs.Observation

/-! # Sessions and batch runs

A session executes a line as a batch run executes the same program, read in advance and without
given lines: the two runs are twins, so they leave the same queue and the same input and write the
same values. Beyond that a session asks for its input, marks what it writes, logs what it executes,
and shows the report of a failure.
-/

namespace QueueScript.Session

/-- What is left of a session whose run has the verdict. A failure is reported, and a fault that has
    escaped closes the session. -/
def announce (verdict : Verdict) (m : Machine) : Option Closing × Machine :=
  match verdict with
  | .success => (none, m)
  | .failure .. => inform .error verdict.report m
  | .raised fault => (some (.raised fault), m)

theorem agree_inform (kind : Notice) (message : Text) (m : Machine) :
    m.Agree (inform kind message m).2 := by
  have noticed := m.console.agree_notify kind none message
  unfold inform
  split
  all_goals
    rename_i result
    rw [result] at noticed
    exact noticed.under m.queue

theorem agree_announce (verdict : Verdict) (m : Machine) : m.Agree (announce verdict m).2 := by
  cases verdict with
  | success | raised => exact .refl m
  | failure => exact agree_inform ..

theorem agree_logExecuted (r : Run) (token : Token) (m : Machine) : m.Agree (logExecuted r token m) :=
  (m.console.agree_debug ..).under m.queue

theorem grows_logExecuted (r : Run) (token : Token) (m : Machine) :
    m.console.Grows true (logExecuted r token m).console := by
  simp only [logExecuted]
  exact m.console.grows_debug ..

theorem unseen_logExecuted : Run.Unseen logExecuted :=
  ⟨agree_logExecuted, fun r token m smooth => (grows_logExecuted r token m).smooth smooth⟩

theorem execute_of_error {line : Text} {fault : ParseFault} (h : tokenize line = .error fault)
    (m : Machine) :
    execute line m =
      announce (.failure (.parse fault) (fault.span line)) (m.logUnreadable line) := by
  simp only [execute, Run.start_inAdvance_of_error h]
  rfl

theorem execute_of_drive {line : Text} {feed : Feed} (made : Feed.ofProgram true line = .ok feed)
    {fault : Option Fault} {s : Run} {m m' : Machine}
    (driven : (⟨line, feed, none, true, 0, ⟨line, 0, 0⟩, none⟩ : Run).drive logExecuted m =
      some (fault, s, m')) :
    execute line m = announce (.ofFault s.span fault) m' := by
  simp only [execute, Run.start_of_feed made, driven]
  cases fault with
  | none => rfl
  | some fault =>
      simp only [Verdict.ofFault]
      split <;> rfl

/-- A session runs a line as a batch run does, as far as a program can see, and then announces how
    it ended. -/
theorem exists_announce (line : Text) {m : Machine} (smooth : m.console.Smooth) :
    ∃ session, execute line m = announce (m.runProgram line [] true).1 session ∧
      (m.runProgram line [] true).2.Agree session ∧ m.console.Grows true session.console := by
  cases read : tokenize line with
  | error fault =>
      rw [Run.runProgram_inAdvance_of_error read]
      exact ⟨_, execute_of_error read m, .refl _, Run.grows_logMismatch ..⟩
  | ok tokens =>
      obtain ⟨feed, made⟩ := Feed.exists_ofProgram read true
      let r : Run := ⟨line, feed, none, false, 0, ⟨line, 0, 0⟩, none⟩
      let s : Run := ⟨line, feed, none, true, 0, ⟨line, 0, 0⟩, none⟩
      have twin : r.Twin s := ⟨feed, true, rfl, rfl⟩
      have script := (Feed.script_ofProgram made).trans (Feed.script_ofProgram_of_ok read)
      obtain ⟨_, finished⟩ := Run.finish_of_script script r rfl m
      obtain ⟨none, -⟩ | ⟨fault, r', s', batch, session, batchRun, sessionRun, ended, agree⟩ :=
        twin.drive (.refl m) (Run.smooth_of_not_interactive rfl m) (fun _ => smooth) Run.unseen_nothing
          unseen_logExecuted
      · cases none.symm.trans finished
      · have sameSpan : s'.span = r'.span := by
          obtain ⟨_, _, rfl, -⟩ := ended
          rfl
        have verdict : m.runProgram line [] true = (.ofFault s'.span fault, batch) := by
          simp only [Machine.runProgram, Run.start_of_feed made, List.isEmpty_nil, if_true, Run.finish]
          rw [batchRun, sameSpan]
        rw [verdict]
        exact ⟨session, execute_of_drive made sessionRun, agree,
          Run.drive_grows grows_logExecuted sessionRun⟩

/-- A session and a batch run do the same with a line, if no prompt fails. They leave the same queue and
    the same input and write the same values. Beyond the values the session records its requests for
    input and messages for the log, and after a failure, once, the report of that failure. Of a line that
    cannot be read both do no more than log where it stops. -/
theorem sessions_run_as_batches (line : Text) (m : Machine) (smooth : m.console.Smooth) :
    let batch := m.runProgram line [] true
    let session := execute line m
    session.2.queue = batch.2.queue ∧
    session.2.console.input = batch.2.console.input ∧
    session.2.console.values = batch.2.console.values ∧
    (∃ silent, m.console.Grows true silent.console ∧ session = announce batch.1 silent) ∧
    ∀ fault, tokenize line = .error fault →
      batch.2.queue = m.queue ∧ m.console.Logs batch.2.console ∧ session.2.queue = m.queue ∧
        session.2.console.input = m.console.input ∧ session.2.console.values = m.console.values := by
  intro batch session
  obtain ⟨silent, ended, agree, grown⟩ := exists_announce line smooth
  have same : batch.2.Agree session.2 := by
    have announced := agree.trans (agree_announce batch.1 silent)
    rw [← ended] at announced
    exact announced
  refine ⟨same.queue, same.console.input, same.console.values, ⟨silent, grown, ended⟩, ?_⟩
  intro fault read
  have logged : batch.2 = m.logUnreadable line :=
    congrArg Prod.snd (Run.runProgram_inAdvance_of_error read m [])
  rw [logged] at same ⊢
  have untouched := (m.agree_logMismatch line (readableLength line)).trans same
  obtain ⟨queue, logs⟩ := m.logs_logMismatch line (readableLength line)
  exact ⟨queue, logs, untouched.queue, untouched.console.input, untouched.console.values⟩

theorem sessions_run_as_batches_unreadable :
    let m : Machine := { queue := [.string ['a']], console := { input := ['b', '\n'] } }
    m.console.Smooth ∧ tokenize ['*', '?'] = .error (.unknownToken ['?']) ∧
    (m.runProgram ['*', '?'] [] true).2.queue = [.string ['a']] ∧
    m.console.Logs (m.runProgram ['*', '?'] [] true).2.console ∧
    (execute ['*', '?'] m).2.queue = [.string ['a']] ∧
    (execute ['*', '?'] m).2.console.input = ['b', '\n'] ∧
    (execute ['*', '?'] m).2.console.values = [] := by
  intro m
  have smooth : m.console.Smooth := ⟨fun _ _ => ⟨_, rfl⟩, rfl⟩
  have unreadable : tokenize ['*', '?'] = .error (.unknownToken ['?']) := by
    rw [tokenize_of_scan rfl, tokenize_of_unknown rfl]
    rfl
  exact ⟨smooth, unreadable, (sessions_run_as_batches ['*', '?'] m smooth).2.2.2.2 _ unreadable⟩

end QueueScript.Session
