import QueueScript.Proofs.Concatenation
import QueueScript.Proofs.Instructions
import QueueScript.Proofs.Presentation

/-! # How input reaches a program

A batch run reads the lines given for it first and then the lines of the console. Its supply is the
list of both. Every `<` that succeeds takes the first line of what is left of the supply, and nothing
else takes any (`Supplied`). So the lines arrive in order, and how many did tells exactly what is left
of the given lines and of the console's input.

The next batch run goes on with the input of the console where the last one has left it, and with given
lines of its own.
-/

namespace QueueScript

namespace Text

/-- The lines of a stream, cut at line feeds only. A last line needs no line feed, but then it is not
    empty. -/
def streamLines : Text → List Text
  | [] => []
  | c :: rest =>
      if c = '\n' then [] :: streamLines rest
      else
        match streamLines rest with
        | [] => [[c]]
        | line :: more => (c :: line) :: more

/-- What is left of a stream behind a number of line feeds. -/
def afterLines : Nat → Text → Text
  | 0, t => t
  | k + 1, t => afterLines k ((t.dropWhile (· != '\n')).drop 1)

theorem streamLines_of_readLine? {t line rest : Text} (h : readLine? t = some (line, rest)) :
    streamLines t = line :: streamLines rest ∧ rest = afterLines 1 t := by
  induction t generalizing line rest with
  | nil => cases h
  | cons c tail ih =>
      cases h
      refine ⟨?_, rfl⟩
      by_cases feed : c = '\n'
      · simp [streamLines, feed]
      · cases tail with
        | nil => simp [streamLines, feed]
        | cons d tail =>
            have later := (ih rfl).1
            rw [streamLines, if_neg feed, later]
            simp [feed]

theorem readLine?_eq_none_iff {t : Text} : readLine? t = none ↔ t = [] := by
  cases t with
  | nil => simp [readLine?]
  | cons c tail => simp [readLine?]

theorem afterLines_nil (k : Nat) : afterLines k [] = [] := by
  induction k with
  | zero => rfl
  | succ k ih => exact ih

theorem afterLines_add (a b : Nat) (t : Text) :
    afterLines b (afterLines a t) = afterLines (a + b) t := by
  induction a generalizing t with
  | zero => rw [Nat.zero_add, afterLines]
  | succ a ih =>
      rw [Nat.succ_add, afterLines, afterLines]
      exact ih _

theorem streamLines_afterLines (k : Nat) (t : Text) :
    streamLines (afterLines k t) = (streamLines t).drop k := by
  induction k generalizing t with
  | zero => rfl
  | succ k ih =>
      cases t with
      | nil => rw [afterLines_nil, streamLines, List.drop_nil]
      | cons c tail =>
          rw [(streamLines_of_readLine? (t := c :: tail) rfl).1, List.drop_succ_cons, ← ih]
          rfl

end Text

open Text (streamLines afterLines)

namespace Run

/-! ## One instruction -/

theorem readLine_of_given {r : Run} {given : List Text} {line : Text}
    (h : r.args.getD [] = given ++ [line]) (m : Machine) :
    r.readLine m = (.ok line, { r with args := some given }, m) := by
  cases args : r.args with
  | none => simp [args] at h
  | some lines =>
      rw [args, Option.getD_some] at h
      simp [readLine, args, h]

theorem readLine_of_empty {r : Run} (h : r.args.getD [] = []) (m : Machine) :
    r.readLine m =
      ((m.console.readLine r.promptSpan).1, r,
        { m with console := (m.console.readLine r.promptSpan).2 }) := by
  have none : r.args.bind List.getLast? = none := by
    cases args : r.args with
    | none => rfl
    | some lines =>
        rw [args, Option.getD_some] at h
        simp [h]
  simp only [readLine, none]

theorem console_readLine_cases {c : Console} {span : Option Span} (prompts : c.Prompts span) :
    (c.input = [] ∧ ∃ c', c.readLine span = (.error (Console.endFault c.inputEnd), c') ∧
      c'.input = c.input ∧ c'.inputEnd = c.inputEnd) ∨
    ∃ line c', streamLines c.input = line :: streamLines c'.input ∧ c.readLine span = (.ok line, c') ∧
      c'.input = afterLines 1 c.input ∧ c'.inputEnd = c.inputEnd := by
  have asked := c.agree_ask span
  rw [Console.readLine_of_ask prompts.ask]
  unfold Console.takeLine
  rw [asked.input, asked.inputEnd]
  cases next : Text.readLine? c.input with
  | none => exact .inl ⟨Text.readLine?_eq_none_iff.mp next, _, rfl, asked.input, asked.inputEnd⟩
  | some found =>
      obtain ⟨line, rest⟩ := found
      obtain ⟨lines, left⟩ := Text.streamLines_of_readLine? next
      exact .inr ⟨line, _, lines, rfl, left, rfl⟩

theorem exec_of_ne_input {token : Token} (h : token ≠ .input) (r : Run) (m : Machine) :
    (r.exec token m).2.1 = r ∧ (r.exec token m).2.2.console.input = m.console.input ∧
      (r.exec token m).2.2.console.inputEnd = m.console.inputEnd := by
  constructor
  · cases token with
    | input => exact absurd rfl h
    | output =>
        simp only [exec]
        split
        · rfl
        · split
          · exact settle_run ..
          · rfl
    | rotate count => rfl
    | concat | copy | apply operator =>
        simp only [exec]
        split <;> simp only [settle_run]
  · refine exec_console (P := fun c d => d.input = c.input ∧ d.inputEnd = c.inputEnd)
      (fun _ => ⟨rfl, rfl⟩) ?_ r token m ?_ (fun reads => absurd reads h) ?_
    · intro c topic message
      have logged := c.agree_debug topic message
      exact ⟨logged.input, logged.inputEnd⟩
    · intro c d e first second
      exact ⟨second.1.trans first.1, second.2.trans first.2⟩
    · intro _ c v
      obtain ⟨_, -, failed⟩ | ⟨_, -, -, failed⟩ | ⟨lead, room, -, -, shown, -⟩ :=
        c.output_cases r.promptSpan v
      · rw [failed]
        exact ⟨rfl, rfl⟩
      · rw [failed]
        exact ⟨rfl, rfl⟩
      · rw [shown]
        exact ⟨rfl, rfl⟩

/-- What is left of the given lines, and of the input of the console, after a number of deliveries. -/
structure Supplied (inputs : List Text) (stream : Text) (count : Nat) (r : Run) (m : Machine) :
    Prop where
  smooth : r.Smooth m
  args : r.args.getD [] = (inputs.drop count).reverse
  input : m.console.input = afterLines (count - inputs.length) stream
  inputEnd : m.console.inputEnd = .endOfFile
  le : count ≤ (inputs ++ streamLines stream).length

section Supplied

variable {inputs : List Text} {stream : Text} {count : Nat} {r : Run} {m : Machine}

theorem Supplied.congr (h : Supplied inputs stream count r m) {r' : Run} {m' : Machine}
    (smooth : r'.Smooth m') (args : r'.args = r.args) (same : m'.console.input = m.console.input)
    (sameEnd : m'.console.inputEnd = m.console.inputEnd) : Supplied inputs stream count r' m' :=
  ⟨smooth, args ▸ h.args, same ▸ h.input, sameEnd ▸ h.inputEnd, h.le⟩

theorem first_of_drop {α : Type} {l rest : List α} {n : Nat} {a : α} (h : l.drop n = a :: rest) :
    n < l.length ∧ l[n]? = some a ∧ l.drop (n + 1) = rest := by
  have first : l[n]? = some a := by
    rw [← List.head?_drop, h, List.head?_cons]
  refine ⟨(List.getElem?_eq_some_iff.mp first).1, first, ?_⟩
  rw [← List.drop_drop, h, List.drop_one, List.tail_cons]

theorem Supplied.readLine (h : Supplied inputs stream count r m) :
    (∃ line r' m', (inputs ++ streamLines stream)[count]? = some line ∧
      r.readLine m = (.ok line, r', m') ∧ Supplied inputs stream (count + 1) r' m') ∨
    (count = (inputs ++ streamLines stream).length ∧
      ∃ m', r.readLine m = (.error (.ended "end of input".toList), r, m') ∧
        Supplied inputs stream count r m') := by
  have args := h.args
  have le := h.le
  rw [List.length_append] at le ⊢
  cases given : inputs.drop count with
  | cons line rest =>
      -- A given line is left, so the console is not asked.
      obtain ⟨within, first, later⟩ := first_of_drop given
      rw [given, List.reverse_cons] at args
      refine .inl ⟨line, _, _, ?_, readLine_of_given args m, h.smooth, ?_, ?_, h.inputEnd, ?_⟩
      · rw [List.getElem?_append_left within, first]
      · rw [later, Option.getD_some]
      · rw [h.input]
        congr 1
        omega
      · rw [List.length_append]
        omega
  | nil =>
      have past : inputs.length ≤ count := List.drop_eq_nil_iff.mp given
      have left : streamLines m.console.input = (streamLines stream).drop (count - inputs.length) := by
        rw [h.input, Text.streamLines_afterLines]
      rw [given, List.reverse_nil] at args
      have smooth : r.Smooth { m with console := (m.console.readLine r.promptSpan).2 } := fun marked =>
        (m.console.grows_readLine promptSpan_of_not_interactive).smooth (h.smooth marked)
      rw [readLine_of_empty args]
      obtain ⟨empty, console, failed, same, sameEnd⟩ | ⟨line, console, lines, read, taken, sameEnd⟩ :=
        console_readLine_cases h.smooth.prompts
      · rw [empty, streamLines, eq_comm, List.drop_eq_nil_iff] at left
        rw [failed] at smooth ⊢
        rw [h.inputEnd]
        exact .inr ⟨by omega, _, rfl, h.congr smooth rfl same sameEnd⟩
      · obtain ⟨within, first, -⟩ := first_of_drop (left.symm.trans lines)
        rw [read] at smooth ⊢
        refine .inl ⟨line, r, _, ?_, rfl, smooth, ?_, ?_, sameEnd.trans h.inputEnd, ?_⟩
        · rw [List.getElem?_append_right past, first]
        · rw [args, List.drop_eq_nil_of_le (by omega), List.reverse_nil]
        · rw [taken, h.input, Text.afterLines_add]
          congr 1
          omega
        · rw [List.length_append]
          omega

theorem Supplied.exec_input (h : Supplied inputs stream count r m) :
    (∃ line r' m', (inputs ++ streamLines stream)[count]? = some line ∧
      r.exec .input m = (.ok (), r', m') ∧ m'.queue = m.queue ++ [.string line] ∧
      Supplied inputs stream (count + 1) r' m') ∨
    (count = (inputs ++ streamLines stream).length ∧
      ∃ m', r.exec .input m = (.error (.stream (.ended "end of input".toList)), r, m') ∧
        m'.queue = m.queue ∧ Supplied inputs stream count r m') := by
  have same := queue_readLine r m
  obtain ⟨line, r', m', next, read, later⟩ | ⟨all, m', failed, still⟩ := h.readLine
  · rw [read] at same
    have logged := (m'.push [.string line]).agree_logQueue r'.span
    refine .inl ⟨line, r', (m'.push [.string line]).logQueue r'.span, next, ?_, ?_, ?_⟩
    · simp only [exec, read, settle]
    · exact congrArg (· ++ [.string line]) same
    · have smooth := fun marked => (settle_console (P := Console.Grows r'.interactive) .refl
        Console.grows_debug r' m' (.ok [.string line])).smooth (later.smooth marked)
      exact later.congr smooth rfl logged.console.input logged.console.inputEnd
  · rw [failed] at same
    exact .inr ⟨all, m', by simp only [exec, failed], same, still⟩

/-! ## Runs -/

/-- The instruction that a run executes next, if it goes on. -/
def next? (r : Run) : Option Token :=
  if r.result.isSome then none
  else
    match r.feed.resume with
    | some (.yielded token _, _) => some token
    | _ => none

theorem Supplied.resume_input (h : Supplied inputs stream count r m) (next : r.next? = some .input) :
    (∃ line n r' m', (inputs ++ streamLines stream)[count]? = some line ∧
      r.resume m = some (.yielded .input n, r', m') ∧ m'.queue = m.queue ++ [.string line] ∧
      Supplied inputs stream (count + 1) r' m') ∨
    (count = (inputs ++ streamLines stream).length ∧
      ∃ r' m', r.resume m =
          some (.completed (some (.stream (.ended "end of input".toList))), r', m') ∧
        m'.queue = m.queue ∧ Supplied inputs stream count r' m') := by
  unfold next? at next
  split at next
  · cases next
  · rename_i running
    split at next
    · rename_i token n feed fed
      cases next
      have here : Supplied inputs stream count { r with feed, span := ⟨r.program, r.offset, n⟩ } m :=
        h.congr h.smooth rfl rfl rfl
      unfold Run.resume
      rw [if_neg running, fed]
      obtain ⟨line, r', m', first, done, queue, later⟩ | ⟨all, m', failed, queue, still⟩ :=
        here.exec_input
      · simp only [done]
        exact .inl ⟨line, n, _, m', first, rfl, queue, later.congr later.smooth rfl rfl rfl⟩
      · simp only [failed]
        exact .inr ⟨all, _, m', rfl, queue, still.congr still.smooth rfl rfl rfl⟩
    · cases next

theorem next?_of_yielded {f' : Feed} {token : Token} {n : Nat} (running : r.result = none)
    (fed : r.feed.resume = some (.yielded token n, f')) : r.next? = some token := by
  simp [next?, running, fed]

theorem resume_of_next?_ne (h : r.next? ≠ some .input) {r' : Run} {m' : Machine} {found : Answer}
    (taken : r.resume m = some (found, r', m')) :
    (∀ n, found ≠ .yielded .input n) ∧ r'.args = r.args ∧
      m'.console.input = m.console.input ∧ m'.console.inputEnd = m.console.inputEnd := by
  obtain ⟨running, ⟨f', ending, -, rfl, rfl, rfl⟩ |
    ⟨f', token, n, outcome, args, fed, done, rfl, rfl⟩⟩ := resume_inversion taken
  · have logged := agree_conclude ending r m
    refine ⟨nofun, ?_, logged.console.input, logged.console.inputEnd⟩
    cases ending <;> rfl
  · have other : token ≠ .input := by
      rintro rfl
      exact h (next?_of_yielded running fed)
    have kept := exec_of_ne_input other { r with span := ⟨r.program, r.offset, n⟩ } m
    rw [done] at kept
    have sameArgs : args = r.args := congrArg Run.args kept.1
    refine ⟨?_, sameArgs, kept.2⟩
    intro n' reads
    cases outcome with
    | ok _ =>
        cases reads
        exact other rfl
    | error fault => cases (congrArg Answer.stop reads).symm.trans (answer_error_stop token n fault)

/-- Whether an answer tells of a `<` that succeeded. -/
def isDelivery : Option Answer → Bool
  | some (.yielded .input _) => true
  | _ => false

def delivered (answers : List (Option Answer)) : Nat :=
  answers.countP isDelivery

/-- The value that a `<` has put at the back of the queue. -/
def pushed : Answer → List Value → List Value
  | .yielded .input _, queue => queue.getLast?.toList
  | _, _ => []

/-- The values that the `<` of a run put into the queue when it is resumed a number of times. -/
def received (r : Run) (m : Machine) : Nat → List Value
  | 0 => []
  | k + 1 =>
      match r.resume m with
      | none => r.received m k
      | some (found, r', m') => pushed found m'.queue ++ r'.received m' k

theorem delivered_cons (answer : Option Answer) (answers : List (Option Answer)) :
    delivered (answer :: answers) = delivered [answer] + delivered answers := by
  simp only [delivered, List.countP_cons, List.countP_nil]
  omega

theorem quiet_of_ne_delivery {found : Answer} (h : ∀ n, found ≠ .yielded .input n) (queue : List Value) :
    delivered [some found] = 0 ∧ pushed found queue = [] := by
  cases found with
  | completed | raised => exact ⟨rfl, rfl⟩
  | yielded token n =>
      cases token with
      | input => exact absurd rfl (h n)
      | _ => exact ⟨rfl, rfl⟩

theorem Supplied.resume (h : Supplied inputs stream count r m) {r' : Run} {m' : Machine} {found : Answer}
    (taken : r.resume m = some (found, r', m')) :
    Supplied inputs stream (count + delivered [some found]) r' m' ∧
    pushed found m'.queue =
      (((inputs ++ streamLines stream).drop count).take (delivered [some found])).map .string := by
  by_cases next : r.next? = some .input
  · obtain ⟨line, n, r'', m'', first, resumed, queue, later⟩ | ⟨-, r'', m'', resumed, -, still⟩ :=
      h.resume_input next
    · cases taken.symm.trans resumed
      have one : delivered [some (.yielded .input n)] = 1 := rfl
      rw [one, List.take_one, List.head?_drop, first, queue]
      exact ⟨later, by simp [pushed]⟩
    · cases taken.symm.trans resumed
      exact ⟨still, rfl⟩
  · obtain ⟨other, args, same, sameEnd⟩ := resume_of_next?_ne next taken
    obtain ⟨none, nothing⟩ := quiet_of_ne_delivery other m'.queue
    rw [none, nothing]
    exact ⟨h.congr (h.smooth.resume taken) args same sameEnd, rfl⟩

theorem Supplied.resumeMany (h : Supplied inputs stream count r m) (k : Nat) :
    Supplied inputs stream (count + delivered (r.resumeMany m k).1) (r.resumeMany m k).2.1
      (r.resumeMany m k).2.2 ∧
    r.received m k = (((inputs ++ streamLines stream).drop count).take
      (delivered (r.resumeMany m k).1)).map .string := by
  induction k generalizing count r m with
  | zero => exact ⟨h, rfl⟩
  | succ k ih =>
      cases taken : r.resume m with
      | none =>
          simp only [Run.resumeMany, received, taken]
          have same : delivered (none :: (r.resumeMany m k).1) = delivered (r.resumeMany m k).1 := rfl
          rw [same]
          exact ih h
      | some result =>
          obtain ⟨found, r', m'⟩ := result
          obtain ⟨after, first⟩ := h.resume taken
          obtain ⟨later, others⟩ := ih after
          simp only [Run.resumeMany, received, taken]
          rw [delivered_cons, ← Nat.add_assoc, first, others, List.take_add, List.drop_drop,
            List.map_append]
          exact ⟨later, rfl⟩

end Supplied

/-- How often `<` succeeds in what is left of a run. -/
def deliveries (r : Run) (m : Machine) : Nat :=
  match _next : r.resume m with
  | none => 0
  | some (.completed _, _, _) | some (.raised _, _, _) => 0
  | some (.yielded token n, r', m') => delivered [some (.yielded token n)] + deliveries r' m'
termination_by r.feed.remaining
decreasing_by exact remaining_lt_of_resume _next

theorem deliveries_of_stop {r r' : Run} {m m' : Machine} {found : Answer} {fault : Option Fault}
    (h : r.resume m = some (found, r', m')) (stopped : found.stop = some fault) :
    r.deliveries m = 0 := by
  rw [deliveries]
  cases found with
  | yielded => cases stopped
  | completed | raised => split <;> simp_all

theorem deliveries_of_yielded {r r' : Run} {m m' : Machine} {token : Token} {n : Nat}
    (h : r.resume m = some (.yielded token n, r', m')) :
    r.deliveries m = delivered [some (.yielded token n)] + r'.deliveries m' := by
  rw [deliveries]
  split <;> simp_all

theorem exists_resumeMany_deliveries {r r' : Run} {m m' : Machine} {fault : Option Fault}
    (h : r.finish m = some (fault, r', m')) :
    ∃ k, (r.resumeMany m k).2 = (r', m') ∧ delivered (r.resumeMany m k).1 = r.deliveries m := by
  unfold finish at h
  fun_induction drive (fun _ _ m => m) r m with
  | case1 => cases h
  | case2 r m ending r₁ m₁ next | case3 r m fault r₁ m₁ next =>
      cases h
      refine ⟨1, by simp only [resumeMany, next], ?_⟩
      simp only [resumeMany, next, deliveries_of_stop next rfl]
      rfl
  | case4 r m token n r₁ m₁ next ih =>
      obtain ⟨k, reached, count⟩ := ih h
      refine ⟨k + 1, ?_⟩
      simp only [resumeMany, next, deliveries_of_yielded next]
      rw [delivered_cons, count]
      exact ⟨reached, rfl⟩

end Run

/-! ## Batches -/

/-- A program for a batch run, with the lines given for it. -/
structure Job where
  program : Text
  inputs : List Text
  inAdvance : Bool

def Job.start (job : Job) : Except ParseFault Run :=
  Run.start job.program job.inAdvance
    (if job.inputs.isEmpty then none else some job.inputs.reverse) false

namespace Machine

def runJob (m : Machine) (job : Job) : Machine :=
  (m.runProgram job.program job.inputs job.inAdvance).2

def runAll (m : Machine) (jobs : List Job) : Machine :=
  jobs.foldl runJob m

/-- How many lines of the console a job takes. -/
def linesTakenBy (m : Machine) (job : Job) : Nat :=
  match job.start with
  | .error _ => 0
  | .ok r => r.deliveries m - job.inputs.length

def linesTaken (m : Machine) : List Job → Nat
  | [] => 0
  | job :: jobs => m.linesTakenBy job + (m.runJob job).linesTaken jobs

theorem runJob_of_refused {job : Job} {refusal : ParseFault} (h : job.start = .error refusal)
    (m : Machine) : m.runJob job = m.logUnreadable job.program := by
  unfold Job.start at h
  simp only [runJob, runProgram, h]

theorem runJob_of_finish {job : Job} {r r' : Run} {m m' : Machine} {fault : Option Fault}
    (h : job.start = .ok r) (finished : r.finish m = some (fault, r', m')) : m.runJob job = m' := by
  unfold Job.start at h
  simp only [runJob, runProgram, h, finished]

theorem supplied_start {job : Job} {r : Run} (h : job.start = .ok r) {m : Machine}
    (ends : m.console.inputEnd = .endOfFile) : Run.Supplied job.inputs m.console.input 0 r m := by
  obtain ⟨feed, -, rfl⟩ := Run.start_eq h
  refine ⟨Run.smooth_of_not_interactive rfl m, ?_, ?_, ends, Nat.zero_le _⟩
  · cases job.inputs <;> rfl
  · rw [Nat.zero_sub, afterLines]

theorem runJob_console (m : Machine) (ends : m.console.inputEnd = .endOfFile) (job : Job) :
    (m.runJob job).console.input = afterLines (m.linesTakenBy job) m.console.input ∧
      (m.runJob job).console.inputEnd = .endOfFile := by
  cases begun : job.start with
  | error refusal =>
      have logged := m.agree_logMismatch job.program (readableLength job.program)
      rw [runJob_of_refused begun]
      simp only [linesTakenBy, begun]
      exact ⟨logged.console.input, logged.console.inputEnd.trans ends⟩
  | ok r =>
      obtain ⟨fault, r', m', finished⟩ := Run.exists_finish begun m
      obtain ⟨k, reached, count⟩ := Run.exists_resumeMany_deliveries finished
      have supplied := ((supplied_start begun ends).resumeMany k).1
      rw [reached, count, Nat.zero_add] at supplied
      rw [runJob_of_finish begun finished]
      simp only [linesTakenBy, begun]
      exact ⟨supplied.input, supplied.inputEnd⟩

theorem runAll_console (m : Machine) (ends : m.console.inputEnd = .endOfFile) (jobs : List Job) :
    (m.runAll jobs).console.input = afterLines (m.linesTaken jobs) m.console.input ∧
      (m.runAll jobs).console.inputEnd = .endOfFile := by
  induction jobs generalizing m with
  | nil => exact ⟨rfl, ends⟩
  | cons job jobs ih =>
      obtain ⟨input, stillEnds⟩ := m.runJob_console ends job
      obtain ⟨later, ending⟩ := ih (m.runJob job) stillEnds
      rw [input, Text.afterLines_add] at later
      exact ⟨later, ending⟩

/-- Input arrives in order, and none is lost or comes twice. After any batch runs on a machine whose
    input ends, a job is supplied with its own lines and then with the lines that those runs have left.
    It is refused, and changes nothing but the log, or it stops. However far it has been run, its `<` that
    succeeded have put exactly the first lines of the supply into the queue, its own lines are left in
    reverse but for those delivered, and only deliveries beyond them have taken lines from the console.
    A `<` that is next delivers the next line, or fails at the end of the supply and leaves the queue
    alone. Whatever else is next does not touch the supply. -/
theorem inputs_arrive_in_order (m₀ : Machine) (ends : m₀.console.inputEnd = .endOfFile)
    (jobs : List Job) (job : Job) :
    let m := m₀.runAll jobs
    let taken := m₀.linesTaken jobs
    let supply := job.inputs ++ (streamLines m₀.console.input).drop taken
    m.console.input = afterLines taken m₀.console.input ∧
    (∀ refusal, job.start = .error refusal →
      (m.runJob job).queue = m.queue ∧ m.console.Logs (m.runJob job).console) ∧
    ∀ r, job.start = .ok r →
      (∃ k fault, r.finish m = some (fault, (r.resumeMany m k).2) ∧
        m.runJob job = (r.resumeMany m k).2.2 ∧
        m.linesTakenBy job = Run.delivered (r.resumeMany m k).1 - job.inputs.length) ∧
      ∀ k answers r' m', r.resumeMany m k = (answers, r', m') →
        let count := Run.delivered answers
        count ≤ supply.length ∧
        r.received m k = (supply.take count).map .string ∧
        r'.args.getD [] = (job.inputs.drop count).reverse ∧
        m'.console.input = afterLines (taken + (count - job.inputs.length)) m₀.console.input ∧
        (r'.next? = some .input →
          match supply[count]? with
          | some line => ∃ n r'' m'', r'.resume m' = some (.yielded .input n, r'', m'') ∧
              m''.queue = m'.queue ++ [.string line]
          | none => ∃ r'' m'', r'.resume m' =
                some (.completed (some (.stream (.ended "end of input".toList))), r'', m'') ∧
              m''.queue = m'.queue ∧ m''.console.input = m'.console.input) ∧
        (r'.next? ≠ some .input → ∀ found r'' m'', r'.resume m' = some (found, r'', m'') →
          r''.args = r'.args ∧ m''.console.input = m'.console.input) := by
  intro m taken supply
  obtain ⟨input, stillEnds⟩ := m₀.runAll_console ends jobs
  have lines : job.inputs ++ streamLines m.console.input = supply := by
    rw [input, Text.streamLines_afterLines]
  refine ⟨input, ?_, ?_⟩
  · intro refusal refused
    rw [runJob_of_refused refused]
    exact m.logs_logMismatch ..
  intro r begun
  constructor
  · obtain ⟨fault, r', m', finished⟩ := Run.exists_finish begun m
    obtain ⟨k, reached, count⟩ := Run.exists_resumeMany_deliveries finished
    refine ⟨k, fault, ?_, ?_, ?_⟩
    · rw [reached, finished]
    · rw [reached, runJob_of_finish begun finished]
    · simp only [linesTakenBy, begun, count]
  · intro k answers r' m' reached count
    obtain ⟨supplied, received⟩ := (supplied_start begun stillEnds).resumeMany k
    rw [reached, Nat.zero_add] at supplied
    rw [reached, List.drop_zero, lines] at received
    refine ⟨lines ▸ supplied.le, received, supplied.args, ?_, ?_, ?_⟩
    · rw [supplied.input, input, Text.afterLines_add]
    · intro next
      obtain ⟨line, n, r'', m'', first, resumed, queue, -⟩ | ⟨all, r'', m'', resumed, queue, still⟩ :=
        supplied.resume_input next
      · rw [lines] at first
        rw [first]
        exact ⟨n, r'', m'', resumed, queue⟩
      · rw [lines] at all
        rw [List.getElem?_eq_none (Nat.le_of_eq all.symm)]
        exact ⟨r'', m'', resumed, queue, still.input.trans supplied.input.symm⟩
    · intro other found r'' m'' resumed
      obtain ⟨-, args, same, -⟩ := Run.resume_of_next?_ne other resumed
      exact ⟨args, same⟩

/-- A run takes its own line and one of the console. The next run gets its own line, then the empty line
    and the line without an end that are left, and then fails. -/
theorem inputs_arrive_in_order_unterminated :
    let m₀ : Machine := { console := { input := ['b', '\n', '\n', 'c'] } }
    let jobs : List Job := [⟨['<', '<'], [['a']], false⟩]
    let job : Job := ⟨['<', '<', '<', '<'], [['d']], false⟩
    m₀.console.inputEnd = .endOfFile ∧ m₀.linesTaken jobs = 1 ∧
    ∃ r answers r' m', job.start = .ok r ∧ r.resumeMany (m₀.runAll jobs) 3 = (answers, r', m') ∧
      r.received (m₀.runAll jobs) 3 = [.string ['d'], .string [], .string ['c']] ∧
      ∃ r'' m'', r'.resume m' =
          some (.completed (some (.stream (.ended "end of input".toList))), r'', m'') ∧
        m''.queue = m'.queue := by
  intro m₀ jobs job
  have counted : m₀.linesTaken jobs = 1 := by
    change Run.deliveries _ m₀ - 1 + 0 = 1
    rw [Run.deliveries_of_yielded rfl, Run.deliveries_of_yielded rfl, Run.deliveries_of_stop rfl rfl]
    rfl
  have ran : m₀.runAll jobs =
      ⟨[.string ['a'], .string ['b']], { m₀.console with input := ['\n', 'c'] }⟩ := by
    apply runJob_of_finish rfl
    rw [Run.finish_of_yielded rfl, Run.finish_of_yielded rfl, Run.finish_of_completed rfl]
    rfl
  let begun : Run :=
    ⟨job.program, .cursor ⟨job.program, 0, false⟩, some [['d']], false, 0, ⟨job.program, 0, 0⟩, none⟩
  let waiting : Run :=
    ⟨job.program, .cursor ⟨job.program, 3, false⟩, some [], false, 3, ⟨job.program, 2, 1⟩, none⟩
  have reached : begun.resumeMany (m₀.runAll jobs) 3 =
      (List.replicate 3 (some (.yielded .input 1)), waiting,
        (begun.resumeMany (m₀.runAll jobs) 3).2.2) := by
    rw [ran]
    exact Prod.ext (by decide +kernel) (Prod.ext (by decide +kernel) rfl)
  obtain ⟨-, -, supplied⟩ := inputs_arrive_in_order m₀ rfl jobs job
  obtain ⟨-, received, -, -, next, -⟩ := (supplied begun rfl).2 3 _ _ _ reached
  rw [counted] at received next
  obtain ⟨r'', m'', failed, queue, -⟩ := next rfl
  exact ⟨rfl, counted, begun, _, waiting, _, rfl, reached, received, r'', m'', failed, queue⟩

end Machine

end QueueScript
