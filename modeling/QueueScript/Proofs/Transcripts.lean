import QueueScript.CommandLine.Basic
import QueueScript.Proofs.Sessions
import QueueScript.Proofs.Elements
import QueueScript.Proofs.Escapes

/-! # What a session does with its input

A session and the programs that it executes read the same input. `Held` lists the turns of a session:
the lines that it takes at its prompts, and the machine that responds to each. The lines that `<` takes
in between belong to the turn whose program is executed (`Turn.gathered`). Together they are the input,
line by line and in order, up to where the session ends.

`Turn.left` says what each line makes of the queue.
-/

namespace QueueScript

open Text (streamLines afterLines)

theorem Feed.not_done_of_ofProgram {inAdvance : Bool} {program : Text} {f : Feed}
    (h : ofProgram inAdvance program = .ok f) : f.done = false := by
  obtain ⟨tokens, ending, script⟩ := exists_script (f := cursor (.ofProgram program)) rfl
  rw [Bool.eq_false_iff]
  intro done
  have none := script_eq_none_iff.mpr done
  rw [script_ofProgram h, script] at none
  cases none

/-- A console on which programs come to their ends: its input ends, no prompt fails, and no fault of
    the output escapes. -/
structure Console.Orderly (c : Console) : Prop where
  ends : c.inputEnd = .endOfFile
  smooth : c.Smooth
  output : c.room = none ∨ c.refusal.escapes = false

theorem Console.Orderly.continues {c d : Console} (h : c.Orderly) (later : c.Continues d) : d.Orderly := by
  refine ⟨later.inputEnd.trans h.ends, h.smooth.continues later, ?_⟩
  rw [later.refusal]
  exact h.output.imp_left later.room

theorem Console.Orderly.tame {c : Console} (h : c.Orderly) (interactive : Bool) : c.Tame interactive :=
  h.smooth.tame (by rw [h.ends]; rfl) h.output interactive

namespace Run

/-! ## Lines that a run takes -/

/-- The values that the `<` of a run put at the back of the queue, up to the end of the run. -/
def gathered (after : Run → Token → Machine → Machine) (r : Run) (m : Machine) : List Value :=
  match _next : r.resume m with
  | none => []
  | some (.completed _, _, _) | some (.raised _, _, _) => []
  | some (.yielded token n, r', m') =>
      pushed (.yielded token n) m'.queue ++ gathered after r' (after r' token m')
termination_by r.feed.remaining
decreasing_by exact remaining_lt_of_resume _next

section Gathered

variable {after : Run → Token → Machine → Machine} {r r' : Run} {m m' : Machine}

theorem gathered_of_stop {found : Answer} {ending : Option Fault}
    (h : r.resume m = some (found, r', m')) (stopped : found.stop = some ending) :
    r.gathered after m = [] := by
  rw [gathered]
  cases found with
  | yielded => cases stopped
  | completed | raised => split <;> simp_all

theorem gathered_of_yielded {token : Token} {n : Nat}
    (h : r.resume m = some (.yielded token n, r', m')) :
    r.gathered after m =
      pushed (.yielded token n) m'.queue ++ r'.gathered after (after r' token m') := by
  rw [gathered]
  split <;> simp_all

/-- The second machine is the first one later on, and has less input, by the lines that became the
    values. -/
structure Takes (values : List Value) (m m' : Machine) : Prop where
  lines : (streamLines m.console.input).map .string =
    values ++ (streamLines m'.console.input).map .string
  continues : m.console.Continues m'.console

theorem Takes.trans {early late : List Value} {m'' : Machine} (h : Takes early m m')
    (h' : Takes late m' m'') : Takes (early ++ late) m m'' :=
  ⟨by rw [h.lines, h'.lines, List.append_assoc], h.continues.trans h'.continues⟩

theorem Takes.nothing (same : m'.console.input = m.console.input)
    (continues : m.console.Continues m'.console) : Takes [] m m' :=
  ⟨by rw [same, List.nil_append], continues⟩

theorem resume_takes {found : Answer} (noArgs : r.args.getD [] = []) (orderly : m.console.Orderly)
    (h : r.resume m = some (found, r', m')) :
    r'.args.getD [] = [] ∧ Takes (pushed found m'.queue) m m' := by
  have supplied : Supplied [] m.console.input 0 r m :=
    ⟨fun _ => orderly.smooth, noArgs, rfl, orderly.ends, Nat.zero_le _⟩
  obtain ⟨later, values⟩ := supplied.resume h
  have args := later.args
  have input := later.input
  rw [List.drop_nil, List.reverse_nil] at args
  rw [List.length_nil, Nat.sub_zero, Nat.zero_add] at input
  refine ⟨args, ?_, continues_resume h⟩
  rw [values, input, Text.streamLines_afterLines, List.nil_append, List.drop_zero, ← List.map_append,
    List.take_append_drop]

theorem drive_takes {ending : Option Fault} (noArgs : r.args.getD [] = []) (orderly : m.console.Orderly)
    (between : ∀ (r : Run) (token : Token) (m : Machine), Takes [] m (after r token m))
    (h : r.drive after m = some (ending, r', m')) : Takes (r.gathered after m) m m' := by
  fun_induction drive after r m with
  | case1 => cases h
  | case2 r m ending r' m' next | case3 r m fault r' m' next =>
      cases h
      have taken := (resume_takes noArgs orderly next).2
      rw [gathered_of_stop next rfl]
      exact taken
  | case4 r m token n r₁ m₁ next ih =>
      obtain ⟨noArgs', first⟩ := resume_takes noArgs orderly next
      have unseen := between r₁ token m₁
      have rest := ih noArgs' ((orderly.continues first.continues).continues unseen.continues) h
      rw [gathered_of_yielded next]
      exact first.trans (unseen.trans rest)

theorem exists_drive (running : r.result = none) (more : r.feed.done = false) (m : Machine) :
    ∃ ending r' m', r.drive after m = some (ending, r', m') := by
  fun_induction drive after r m with
  | case1 r m ended =>
      cases next : r.feed.resume with
      | none => cases more.symm.trans (Feed.resume_eq_none_iff.mp next)
      | some result =>
          obtain ⟨step, f'⟩ := result
          cases step with
          | completed ending => cases ended.symm.trans (resume_of_completed running next m)
          | yielded token n =>
              obtain ⟨outcome, _, _, -, taken⟩ := resume_of_yielded running next m
              rw [ended] at taken
              cases taken
  | case2 r m ending r' m' next | case3 r m fault r' m' next => exact ⟨_, r', m', rfl⟩
  | case4 r m token n r₁ m₁ next ih =>
      obtain ⟨-, running', next'⟩ := feed_of_yielded next
      exact ih running' (Feed.done_of_yielded next')

end Gathered

end Run

namespace Session

/-! ## Commands -/

theorem mem_commandNames {name : Text} {command : Command} (h : Command.ofName name = command)
    (known : ∀ other, command ≠ .unknown other) : (String.ofList name, command) ∈ commandNames := by
  unfold Command.ofName at h
  cases found : commandNames.lookup (String.ofList name) with
  | none =>
      rw [found] at h
      exact absurd h.symm (known name)
  | some listed =>
      rw [found, Option.getD_some] at h
      subst h
      obtain ⟨before, after, whole, -⟩ := List.lookup_eq_some_iff.mp found
      rw [whole]
      exact List.mem_append_right before (List.mem_cons_self ..)

theorem ofName_eq_leave_iff {name : Text} :
    Command.ofName name = .leave ↔ name = "exit".toList := by
  constructor
  · intro h
    have listed := mem_commandNames h nofun
    simp only [commandNames, List.mem_cons, Prod.mk.injEq, reduceCtorEq, and_false, and_true, false_or,
      List.not_mem_nil, or_false] at listed
    rw [← listed, String.toList_ofList]
  · rintro rfl
    rfl

theorem ofName_eq_clear_iff {name : Text} :
    Command.ofName name = .clear ↔ name = "clear".toList ∨ name = "c".toList := by
  constructor
  · intro h
    have listed := mem_commandNames h nofun
    simp only [commandNames, List.mem_cons, Prod.mk.injEq, reduceCtorEq, and_false, and_true, false_or,
      List.not_mem_nil, or_false] at listed
    rcases listed with same | same
    · left
      rw [← same, String.toList_ofList]
    · right
      rw [← same, String.toList_ofList]
  · rintro (rfl | rfl) <;> rfl

theorem continues_printLines (c : Console) (lines : List String) : c.Continues (printLines c lines) := by
  induction lines generalizing c with
  | nil => exact .refl c
  | cons line lines ih => exact (c.continues_record _).trans (ih _)

theorem inform_of_smooth {m : Machine} (smooth : m.console.Smooth) (kind : Notice) (message : Text) :
    (inform kind message m).1 = none := by
  have shown := smooth.notify kind none message
  unfold inform
  split
  · rfl
  · rename_i failed
    rw [failed] at shown
    cases shown

theorem continues_inform (kind : Notice) (message : Text) (m : Machine) :
    m.console.Continues (inform kind message m).2.console := by
  have noticed := m.console.continues_notify kind none message
  unfold inform
  split
  all_goals
    rename_i result
    rw [result] at noticed
    exact noticed

theorem obey_closing (command : Command) {m : Machine} (smooth : m.console.Smooth) :
    (obey command m).1 = if command = .leave then some .normal else none := by
  cases command with
  | clear => exact inform_of_smooth (m := { m with queue := [] }) smooth _ _
  | unknown => exact inform_of_smooth smooth _ _
  | _ => rfl

theorem obey_queue (command : Command) (m : Machine) :
    (obey command m).2.queue = if command = .clear then [] else m.queue := by
  cases command <;> simp only [obey, inform_queue, reduceCtorEq, if_true, if_false]

theorem obey_takes (command : Command) (m : Machine) : Run.Takes [] m (obey command m).2 := by
  cases command with
  | help | tokens | examples => exact .nothing (printLines_input ..) (continues_printLines ..)
  | clear => exact .nothing (inform_input ..) (continues_inform _ _ { m with queue := [] })
  | unknown => exact .nothing (inform_input ..) (continues_inform ..)
  | queue | level => exact .nothing rfl (m.console.continues_record _)
  | adjustLevel => exact .nothing rfl ⟨rfl, rfl, rfl, rfl, id, id⟩
  | leave => exact .nothing rfl (.refl m.console)

theorem announce_takes (verdict : Verdict) (m : Machine) : Run.Takes [] m (announce verdict m).2 := by
  cases verdict with
  | success | raised => exact .nothing rfl (.refl m.console)
  | failure => exact .nothing (inform_input ..) (continues_inform ..)

theorem logExecuted_takes (r : Run) (token : Token) (m : Machine) :
    Run.Takes [] m (logExecuted r token m) := by
  refine .nothing (logExecuted_input r token m) ?_
  simp only [logExecuted]
  exact m.console.continues_debug ..

theorem logUnreadable_takes (m : Machine) (line : Text) : Run.Takes [] m (m.logUnreadable line) := by
  refine .nothing (logMismatch_input ..) ?_
  unfold Machine.logUnreadable Machine.logMismatch
  split
  · exact .refl m.console
  · simp only
    exact m.console.continues_debug ..

theorem closing_announce {verdict : Verdict} (h : ∀ fault, verdict ≠ .raised fault) {m : Machine}
    (smooth : m.console.Smooth) : (announce verdict m).1 = none := by
  cases verdict with
  | success => rfl
  | failure => exact inform_of_smooth smooth ..
  | raised fault => exact absurd rfl (h fault)

/-! ## Turns -/

/-- A line that was taken at a prompt, and the machine that responds to it. -/
structure Turn where
  line : Text
  machine : Machine

namespace Turn

/-- Whether the line is to be executed: it is not empty, and no command. -/
def isProgram (t : Turn) : Bool :=
  match t.line with
  | [] | '!' :: _ => false
  | _ => true

/-- The values that the `<` of the turn's program put at the back of the queue. -/
def gathered (t : Turn) : List Value :=
  if t.isProgram then
    match Run.start t.line true none true with
    | .error _ => []
    | .ok r => r.gathered logExecuted t.machine
  else []

/-- The queue that the turn leaves. A line that is executed leaves the queue of a batch run. -/
def left (t : Turn) : List Value :=
  if t.line = "!clear".toList ∨ t.line = "!c".toList then []
  else if t.isProgram then
    match tokenize t.line with
    | .error _ => t.machine.queue
    | .ok _ => (t.machine.runProgram t.line [] true).2.queue
  else t.machine.queue

/-- The values of the turn's program fit into a memory. -/
def Fits (t : Turn) : Prop :=
  t.isProgram = true → t.machine.Fits ⟨t.line, [], true⟩

/-- What a turn does: only one command closes the session, the queue is changed as `left` says, and
    the lines that `<` gathers are gone. -/
structure Responds (t : Turn) (closing : Option Closing) (m : Machine) : Prop where
  closing_eq : t.Fits → closing = if t.line = "!exit".toList then some .normal else none
  queue_eq : m.queue = t.left
  takes : Run.Takes t.gathered t.machine m

theorem responds_command {t : Turn} {name : Text} (command : t.line = '!' :: name)
    (orderly : t.machine.console.Orderly) :
    t.Responds (obey (.ofName name) t.machine).1 (obey (.ofName name) t.machine).2 := by
  have same (other : Text) : t.line = '!' :: other ↔ name = other := by
    rw [command, List.cons.injEq, eq_self, true_and]
  have notProgram : t.isProgram = false := by
    simp only [isProgram, command]
  refine ⟨fun _ => ?_, ?_, ?_⟩
  · rw [obey_closing _ orderly.smooth]
    simp only [ofName_eq_leave_iff, ← same]
    rfl
  · rw [obey_queue, left, notProgram]
    simp only [ofName_eq_clear_iff, ← same]
    rfl
  · rw [gathered, notProgram]
    exact obey_takes (.ofName name) t.machine

theorem isProgram_ne_command {t : Turn} (program : t.isProgram = true) (name : Text) :
    t.line ≠ '!' :: name := by
  intro command
  simp only [isProgram, command] at program
  cases program

theorem responds_program {t : Turn} (program : t.isProgram = true)
    (orderly : t.machine.console.Orderly) :
    t.Responds (execute t.line t.machine).1 (execute t.line t.machine).2 := by
  have notCommand := isProgram_ne_command program
  obtain ⟨session, announced, agree, grown⟩ := exists_announce t.line orderly.smooth
  have sameQueue := (agree.trans (agree_announce (t.machine.runProgram t.line [] true).1 session)).queue
  rw [← announced] at sameQueue
  have unclear : ¬ (t.line = "!clear".toList ∨ t.line = "!c".toList) := by
    rintro (command | command)
    · exact notCommand _ command
    · exact notCommand _ command
  have stays : t.Fits → (execute t.line t.machine).1 =
      if t.line = "!exit".toList then some .normal else none := by
    intro fits
    have leaves : (if t.line = "!exit".toList then some Closing.normal else none) = none :=
      if_neg (notCommand _)
    rw [announced, leaves]
    exact closing_announce (Machine.runProgram_ne_raised (orderly.tame false) (fits program))
      (grown.smooth orderly.smooth)
  cases read : tokenize t.line with
  | error fault =>
      rw [Run.runProgram_inAdvance_of_error read] at sameQueue
      refine ⟨stays, ?_, ?_⟩
      · rw [sameQueue, left, if_neg unclear, if_pos program, read]
        exact (t.machine.logs_logMismatch ..).1
      · rw [gathered, if_pos program, Run.start_inAdvance_of_error read, execute_of_error read]
        exact (logUnreadable_takes ..).trans (announce_takes ..)
  | ok tokens =>
      obtain ⟨feed, made⟩ := Feed.exists_ofProgram read true
      let r : Run := ⟨t.line, feed, none, true, 0, ⟨t.line, 0, 0⟩, none⟩
      obtain ⟨ending, s, m', driven⟩ : ∃ ending s m', r.drive logExecuted t.machine =
          some (ending, s, m') :=
        Run.exists_drive rfl (Feed.not_done_of_ofProgram made) t.machine
      refine ⟨stays, ?_, ?_⟩
      · rw [sameQueue, left, if_neg unclear, if_pos program, read]
      · have taken := Run.drive_takes rfl orderly logExecuted_takes driven
        rw [gathered, if_pos program, Run.start_of_feed made, execute_of_drive made driven]
        have whole := taken.trans (announce_takes (.ofFault s.span ending) m')
        rw [List.append_nil] at whole
        exact whole

theorem responds (t : Turn) (orderly : t.machine.console.Orderly) :
    t.Responds (respond t.line t.machine).1 (respond t.line t.machine).2 := by
  unfold respond
  split
  · rename_i empty
    have notProgram : t.isProgram = false := by
      simp only [isProgram, empty]
    refine ⟨fun _ => by rw [empty]; rfl, by rw [left, notProgram, empty]; rfl, ?_⟩
    rw [gathered, notProgram]
    exact .nothing rfl (.refl t.machine.console)
  · rename_i command
    exact responds_command command orderly
  · rename_i notEmpty notCommand
    have program : t.isProgram = true := by
      unfold isProgram
      split
      · rename_i empty
        exact absurd empty notEmpty
      · rename_i command
        exact absurd command (notCommand _)
      · rfl
    exact responds_program program orderly

end Turn

/-! ## Whole sessions -/

/-- The turns of a session from a prompt on, and how it closes. -/
inductive Held : Machine → List Turn → Closing × Machine → Prop where
  | ended {m : Machine} {c : Console} {note : Text} :
      (showPrompt m).console.takeLine = (.error (.ended note), c) →
      Held m [] (.normal, { showPrompt m with console := c.printLine "\nExiting.".toList })
  | closed {m m' : Machine} {c : Console} {line : Text} {closing : Closing} :
      (showPrompt m).console.takeLine = (.ok line, c) →
      respond line { showPrompt m with console := c } = (some closing, m') →
      Held m [⟨line, { showPrompt m with console := c }⟩] (closing, m')
  | next {m m' : Machine} {c : Console} {line : Text} {ts : List Turn} {result : Closing × Machine} :
      (showPrompt m).console.takeLine = (.ok line, c) →
      respond line { showPrompt m with console := c } = (none, m') → Held m' ts result →
      Held m (⟨line, { showPrompt m with console := c }⟩ :: ts) result

/-- What the turns of a session have done by its end. -/
structure Accounts (m : Machine) (ts : List Turn) (result : Closing × Machine) : Prop where
  closing : result.1 = .normal
  takes : Run.Takes (ts.flatMap fun t => .string t.line :: t.gathered) m result.2
  queues : ts.map (·.machine.queue) ++ [result.2.queue] = m.queue :: ts.map Turn.left
  leaves : ∀ t ∈ ts.dropLast, t.line ≠ "!exit".toList
  ends : result.2.console.input = [] ∨ ∃ t ∈ ts.getLast?, t.line = "!exit".toList

theorem prompt_cases {m : Machine} (orderly : m.console.Orderly) :
    (m.console.input = [] ∧ ∃ note,
      (showPrompt m).console.takeLine = (.error (.ended note), (showPrompt m).console)) ∨
    ∃ line c, (showPrompt m).console.takeLine = (.ok line, c) ∧
      Run.Takes [.string line] m { showPrompt m with console := c } := by
  have continues := (m.console.continues_record (.print ">>> ".toList)).trans
    (showPrompt m).console.continues_takeLine
  unfold Console.takeLine at continues ⊢
  cases next : Text.readLine? (showPrompt m).console.input with
  | none =>
      have fault : (showPrompt m).console.inputEnd = .endOfFile := orderly.ends
      refine .inl ⟨Text.readLine?_eq_none_iff.mp next, "end of input".toList, ?_⟩
      rw [fault]
      rfl
  | some found =>
      obtain ⟨line, rest⟩ := found
      rw [next] at continues
      have lines : streamLines m.console.input = line :: streamLines rest :=
        (Text.streamLines_of_readLine? next).1
      exact .inr ⟨line, _, rfl, by rw [lines]; rfl, continues⟩

theorem responds_at_prompt {m m' : Machine} {c : Console} {line : Text} {closing : Option Closing}
    (orderly : m.console.Orderly)
    (taken : (showPrompt m).console.takeLine = (.ok line, c))
    (response : respond line { showPrompt m with console := c } = (closing, m')) :
    let t : Turn := ⟨line, { showPrompt m with console := c }⟩
    t.Responds closing m' ∧ Run.Takes (.string line :: t.gathered) m m' := by
  intro t
  obtain ⟨-, _, ended⟩ | ⟨line', c', taken', takes⟩ := prompt_cases orderly
  · cases taken.symm.trans ended
  · cases taken.symm.trans taken'
    have responds := t.responds (orderly.continues takes.continues)
    simp only [t, response] at responds
    exact ⟨responds, takes.trans responds.takes⟩

theorem exists_held {m : Machine} (orderly : m.console.Orderly) : ∃ ts, Held m ts (turns m) := by
  fun_induction turns m with
  | case1 m line c taken closing m' response => exact ⟨_, .closed taken response⟩
  | case2 m line c taken m' response ih =>
      obtain ⟨-, takes⟩ := responds_at_prompt orderly taken response
      obtain ⟨ts, held⟩ := ih (orderly.continues takes.continues)
      exact ⟨_, .next taken response held⟩
  | case3 m note c taken => exact ⟨_, .ended taken⟩
  | case4 m fault c other taken =>
      obtain ⟨-, _, ended⟩ | ⟨_, _, taken', -⟩ := prompt_cases orderly
      · cases taken.symm.trans ended
        exact absurd rfl (other _)
      · cases taken.symm.trans taken'

theorem Held.accounts {m : Machine} {ts : List Turn} {result : Closing × Machine}
    (h : Held m ts result) (orderly : m.console.Orderly) (fits : ∀ t ∈ ts, t.Fits) :
    Accounts m ts result := by
  induction h with
  | @ended m c note taken =>
      obtain ⟨empty, _, ended⟩ | ⟨_, _, taken', -⟩ := prompt_cases orderly
      · cases taken.symm.trans ended
        have continues : m.console.Continues
            ((showPrompt m).console.printLine "\nExiting.".toList) := ⟨rfl, rfl, rfl, rfl, id, id⟩
        exact ⟨rfl, .nothing rfl continues, rfl, List.forall_mem_nil _, .inl empty⟩
      · cases taken.symm.trans taken'
  | @closed m m' c line closing taken response =>
      obtain ⟨responds, takes⟩ := responds_at_prompt orderly taken response
      have leaves := responds.closing_eq (fits _ (List.mem_singleton_self _))
      by_cases leave : line = "!exit".toList
      · rw [if_pos leave] at leaves
        cases leaves
        refine ⟨rfl, ?_, ?_, List.forall_mem_nil _, .inr ⟨_, rfl, leave⟩⟩
        · rw [List.flatMap_singleton]
          exact takes
        · exact congrArg (fun queue => [m.queue, queue]) responds.queue_eq
      · rw [if_neg leave] at leaves
        cases leaves
  | @next m m' c line ts result taken response _ ih =>
      obtain ⟨responds, takes⟩ := responds_at_prompt orderly taken response
      have stays : line ≠ "!exit".toList := by
        intro leave
        have leaves := responds.closing_eq (fits _ (List.mem_cons_self ..))
        rw [if_pos leave] at leaves
        cases leaves
      have rest := ih (orderly.continues takes.continues)
        fun t member => fits t (List.mem_cons_of_mem _ member)
      refine ⟨rest.closing, ?_, ?_, ?_, ?_⟩
      · rw [List.flatMap_cons]
        exact takes.trans rest.takes
      · rw [List.map_cons, List.cons_append, rest.queues, responds.queue_eq]
        rfl
      · -- Only the last turn may be `!exit`, and this one is not the last if others follow.
        intro t member
        cases ts with
        | nil => cases member
        | cons next ts =>
            rcases List.mem_cons.mp member with rfl | member
            · exact stays
            · exact rest.leaves t member
      · rcases rest.ends with done | ⟨t, last, leave⟩
        · exact .inl done
        · cases ts with
          | nil => cases last
          | cons next ts => exact .inr ⟨t, last, leave⟩

/-- Sessions take each line once and end. If the input ends, no prompt fails and no fault of the output
    escapes, a session closes normally, and the command that holds it exits with 0. The lines of the
    input are, in order, those taken at the prompts, each followed by those that the `<` of its program
    push as strings, and then what the session leaves. It leaves nothing, unless it ends because the line
    `!exit` is taken at a prompt. At each prompt the queue is as the turn before has left it: a program
    that can be read leaves what a batch run of it leaves, `!clear` and `!c` leave an empty queue, and no
    other line changes it. -/
theorem sessions_take_each_line_once (c : Console) (orderly : c.Orderly)
    (fits : ∀ ts result, Held (greet ⟨[], c⟩) ts result → ∀ t ∈ ts, t.Fits) :
    ∃ ts final, run ⟨[], c⟩ = (.normal, final) ∧
      CommandLine.runSession c = (.exit 0, final.console) ∧
      Held (greet ⟨[], c⟩) ts (.normal, final) ∧
      (streamLines c.input).map Value.string =
        (ts.flatMap fun t => .string t.line :: t.gathered) ++
          (streamLines final.console.input).map .string ∧
      (∀ t ∈ ts.dropLast, t.line ≠ "!exit".toList) ∧
      (final.console.input = [] ∨ ∃ t ∈ ts.getLast?, t.line = "!exit".toList) ∧
      ts.map (·.machine.queue) ++ [final.queue] = [] :: ts.map Turn.left := by
  have greeted : (greet ⟨[], c⟩).console.Orderly := orderly.continues (continues_printLines ..)
  have sameInput : (greet ⟨[], c⟩).console.input = c.input := printLines_input ..
  obtain ⟨ts, held⟩ := exists_held greeted
  have account := held.accounts greeted (fits ts _ held)
  obtain ⟨final, closed⟩ : ∃ final, turns (greet ⟨[], c⟩) = (.normal, final) :=
    ⟨_, Prod.ext account.closing rfl⟩
  have exited : CommandLine.runSession c = (.exit 0, final.console) := by
    unfold CommandLine.runSession run
    rw [closed]
  rw [closed] at held account
  have lines := account.takes.lines
  rw [sameInput] at lines
  exact ⟨ts, final, closed, exited, held, lines, account.leaves, account.ends, account.queues⟩

theorem fits_of_turn {m : Machine} {line : Text} {c : Console}
    (taken : (showPrompt m).console.takeLine = (.ok line, c))
    (here : Turn.Fits ⟨line, { showPrompt m with console := c }⟩)
    (later : ∀ m', respond line { showPrompt m with console := c } = (none, m') →
      ∀ ts result, Held m' ts result → ∀ t ∈ ts, t.Fits) :
    ∀ ts result, Held m ts result → ∀ t ∈ ts, t.Fits := by
  intro ts result held t member
  cases held with
  | ended taken' => cases taken.symm.trans taken'
  | closed taken' _ =>
      cases taken.symm.trans taken'
      cases List.mem_singleton.mp member
      exact here
  | next taken' response held =>
      cases taken.symm.trans taken'
      rcases List.mem_cons.mp member with rfl | member
      · exact here
      · exact later _ response _ _ held t member

/-- A program that reads a line, and a line behind `!exit`. -/
theorem sessions_take_each_line_once_leave :
    let c : Console :=
      { input := ['<', '\n', '!', 'c', '\n', '!', 'e', 'x', 'i', 't', '\n', '>', '\n'] }
    c.Orderly ∧ (∀ ts result, Held (greet ⟨[], c⟩) ts result → ∀ t ∈ ts, t.Fits) ∧
    ∃ ts final, CommandLine.runSession c = (.exit 0, final.console) ∧
      Held (greet ⟨[], c⟩) ts (.normal, final) ∧
      [.string ['<'], .string ['!', 'c'], .string "!exit".toList, .string ['>']] =
        (ts.flatMap fun t => .string t.line :: t.gathered) ++
          (streamLines final.console.input).map .string := by
  intro c
  have orderly : c.Orderly := ⟨rfl, ⟨fun _ _ => ⟨_, rfl⟩, rfl⟩, .inl rfl⟩
  let m : Machine := { showPrompt (greet ⟨[], c⟩) with
    console := { (showPrompt (greet ⟨[], c⟩)).console with input := c.input.drop 2 } }
  have read : tokenize ['<'] = .ok [(.input, 1)] := by
    rw [tokenize_of_scan rfl, tokenize_of_empty rfl]
    rfl
  have made : Feed.ofProgram true ['<'] = .ok (.tape ⟨[(.input, 1)], 0, false⟩) := by
    simp only [Feed.ofProgram, Tape.ofProgram, read, Except.map, if_true]
  have here : Turn.Fits ⟨['<'], m⟩ := by
    rintro - r started
    cases (Run.start_of_feed made none false).symm.trans started
    exact Run.fits_of_script rfl (Feed.script_tape rfl) (by decide)
  obtain ⟨s, m', driven, left⟩ : ∃ s m',
      (⟨['<'], .tape ⟨[(.input, 1)], 0, false⟩, none, true, 0, ⟨['<'], 0, 0⟩, none⟩ : Run).drive
        logExecuted m = some (none, s, m') ∧ m'.console.input = c.input.drop 5 :=
    ⟨_, _, by rw [Run.drive_of_yielded rfl, Run.drive_of_stop rfl rfl], rfl⟩
  have response : respond ['<'] m = (none, m') := execute_of_drive made driven
  have fits : ∀ ts result, Held (greet ⟨[], c⟩) ts result → ∀ t ∈ ts, t.Fits := by
    refine fits_of_turn rfl here fun m₁ response' => ?_
    cases response.symm.trans response'
    have taken : (showPrompt m').console.takeLine =
        (.ok "!exit".toList, { (showPrompt m').console with input := ['>', '\n'] }) := by
      have same : (showPrompt m').console.input = c.input.drop 5 := left
      unfold Console.takeLine
      rw [same]
      rfl
    refine fits_of_turn taken (fun isProgram => ?_) fun m₂ closed => ?_
    · cases isProgram
    · cases closed
  obtain ⟨ts, final, -, exited, held, lines, -⟩ := sessions_take_each_line_once c orderly fits
  exact ⟨orderly, fits, ts, final, exited, held, lines⟩

end Session

end QueueScript
