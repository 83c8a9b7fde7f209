import QueueScript.Feed
import QueueScript.Console

/-! # Running programs

A `Machine` is what programs share: the queue of values and the console. A `Run` is one program
in execution: where it is, the input lines it was given, and how it ended if it has. `Run.resume`
executes one instruction, and `Run.drive` all that are left. A run that has ended refuses to be
resumed.

Every instruction either succeeds, and then logs the queue, or has a fault. A fault leaves the values
taken by the instruction taken, except that an instruction that finds too few values takes none. It ends
the run, unless it escapes: then the instruction is passed over, and the run can be resumed behind it.
-/

namespace QueueScript

/-- The queue, front first, and the console. -/
structure Machine where
  queue : List Value := []
  console : Console := {}

/-- A program in execution. -/
structure Run where
  program : Text
  feed : Feed
  /-- Input lines given in advance, the next one last. -/
  args : Option (List Text)
  /-- Whether the console marks the program in its prompts. -/
  interactive : Bool
  /-- Where the next instruction begins, blanks included. -/
  offset : Nat
  /-- The instruction that was executed last, blanks included. -/
  span : Span
  /-- How the run ended, if it has. -/
  result : Option (Option Fault)
  deriving Repr, DecidableEq

/-- What resuming a run leads to. -/
inductive Answer where
  /-- An instruction was executed, which takes so many characters. -/
  | yielded (token : Token) (length : Nat)
  /-- The run has ended. -/
  | completed (fault : Option Fault)
  /-- A fault escaped from the run. -/
  | raised (fault : Fault)
  deriving Repr, DecidableEq

namespace Machine

def push (m : Machine) (values : List Value) : Machine :=
  { m with queue := m.queue ++ values }

def logQueue (m : Machine) (span : Span) : Machine :=
  { m with
    console := m.console.debug .queue fun _ =>
      "[".toList ++ span.text ++ "]: queue: ".toList ++ Value.dumpQueue m.queue }

end Machine

/-- The message that no token was found at or after an offset, with the line and column of the
    first character that fits no token, counted from that offset. A number that is only too long
    gives no message. -/
def mismatchMessage? (program : Text) (pos : Nat) : Option Text :=
  let t := program.drop pos
  let body := Text.skipBlanks t
  if body.isEmpty || (Lexeme.scan? body).isSome then none
  else
    let skipped := t.length - body.length
    let (line, col) := Text.lineCol t skipped
    some ("no token at offset ".toList ++ Text.ofNat (program.length - body.length) ++
      ": Syntax error in input text at L".toList ++ Text.ofNat line ++ ":C".toList ++
      Text.ofInt col ++
      " while parsing rule 'instruction': Expected regex matching r\"[<>.~*vc_^]\"".toList)

/-- The message that something which is not a token was to be executed. -/
def notTokenMessage (given : Text) : Text :=
  "not an Eolina token: ".toList ++ Text.cite given

/-- Logs where reading a program stopped. -/
def Machine.logMismatch (m : Machine) (program : Text) (pos : Nat) : Machine :=
  match mismatchMessage? program pos with
  | none => m
  | some message => { m with console := m.console.debug .progress fun _ => message }

/-- How far a program can be read. -/
def readableLength (program : Text) : Nat :=
  match (Feed.cursor (.ofProgram program)).drain with
  | some (tokens, _) => tokens.foldl (fun length (_, n) => length + n) 0
  | none => 0

/-- Logs where reading a program in advance stopped. -/
def Machine.logUnreadable (m : Machine) (program : Text) : Machine :=
  m.logMismatch program (readableLength program)

namespace Run

/-- A run at the start of a program. With `inAdvance` the whole program is read first, which
    can fail. -/
def start (program : Text) (inAdvance : Bool) (args : Option (List Text)) (interactive : Bool) :
    Except ParseFault Run :=
  (Feed.ofProgram inAdvance program).map fun feed =>
    { program, feed, args, interactive, offset := 0, span := ⟨program, 0, 0⟩, result := none }

/-- The marked program for the prompts of an interactive run. -/
def promptSpan (r : Run) : Option Span :=
  if r.interactive then some r.span else none

/-- The next line of input: the last of the lines given in advance, or one from the console. -/
def readLine (r : Run) (m : Machine) : Except StreamFault Text × Run × Machine :=
  match r.args.bind List.getLast? with
  | some line => (.ok line, { r with args := r.args.map List.dropLast }, m)
  | none =>
      let (line, console) := m.console.readLine r.promptSpan
      (line, r, { m with console })

/-- Ends an instruction that took its values from `m`: gives its results, or the fault. -/
def settle (r : Run) (m : Machine) (results : Except Fault (List Value)) :
    Except Fault Unit × Run × Machine :=
  match results with
  | .ok values => (.ok (), r, (m.push values).logQueue r.span)
  | .error fault => (.error fault, r, m)

def exec (r : Run) (token : Token) (m : Machine) : Except Fault Unit × Run × Machine :=
  let tooShort := (.error (.kind (.queueTooShort token.takes m.queue.length)), r, m)
  match token with
  | .input =>
      match r.readLine m with
      | (.ok line, r, m) => r.settle m (.ok [.string line])
      | (.error fault, r, m) => (.error (.stream fault), r, m)
  | .output =>
      match m.queue with
      | [] => tooShort
      | v :: rest =>
          match m.console.output r.promptSpan v with
          | (.ok (), console) => r.settle ⟨rest, console⟩ (.ok [])
          | (.error fault, console) => (.error (.stream fault), r, ⟨rest, console⟩)
  | .concat =>
      match m.queue with
      | left :: right :: rest =>
          r.settle { m with queue := rest } ((left.concat right).map ([·]))
      | _ => tooShort
  | .copy =>
      match m.queue with
      | [] => tooShort
      | v :: rest => r.settle { m with queue := rest } (.ok [v, v])
  | .rotate count => r.settle { m with queue := rotate count m.queue } (.ok [])
  | .apply operator =>
      match m.queue with
      | [] => tooShort
      | v :: rest => r.settle { m with queue := rest } ((operator.apply v).map ([·]))

/-- Executes the next instruction, or finds the end of the program; `none` once the run has
    ended. The offset moves past an instruction whether it succeeds or not. -/
def resume (r : Run) (m : Machine) : Option (Answer × Run × Machine) :=
  if r.result.isSome then none
  else
    match r.feed.resume with
    | none => none
    | some (.completed none, feed) => some (.completed none, { r with feed, result := some none }, m)
    | some (.completed (some fault), feed) =>
        some (.completed (some fault),
          { r with
            feed
            span := ⟨r.program, r.offset, r.program.length - r.offset⟩
            result := some (some fault) },
          m.logMismatch r.program r.offset)
    | some (.yielded token n, feed) =>
        match { r with feed, span := ⟨r.program, r.offset, n⟩ }.exec token m with
        | (.ok (), r, m) => some (.yielded token n, { r with offset := r.offset + n }, m)
        | (.error fault, r, m) =>
            let r := { r with offset := r.offset + n }
            if fault.escapes then some (.raised fault, r, m)
            else some (.completed (some fault), { r with result := some (some fault) }, m)

/-- The program with its last instruction marked; by the console's colours if `styled`. -/
def marked (r : Run) (m : Machine) (styled : Bool) : Text :=
  if styled then m.console.highlight r.span else r.span.text

@[simp]
theorem settle_feed (r : Run) (m : Machine) (results : Except Fault (List Value)) :
    (r.settle m results).2.1.feed = r.feed := by
  cases results <;> rfl

@[simp]
theorem readLine_feed (r : Run) (m : Machine) : (r.readLine m).2.1.feed = r.feed := by
  unfold readLine
  split <;> rfl

@[simp]
theorem exec_feed (r : Run) (token : Token) (m : Machine) :
    (r.exec token m).2.1.feed = r.feed := by
  cases token with
  | input =>
      have := r.readLine_feed m
      simp only [exec]
      split <;> simp_all
  | rotate count => simp [exec]
  | output | concat | copy | apply =>
      simp only [exec]
      split
      all_goals first
        | rfl
        | simp
        | (split <;> simp)

@[simp]
theorem logQueue_input (m : Machine) (span : Span) :
    (m.logQueue span).console.input = m.console.input := by
  simp [Machine.logQueue]

@[simp]
theorem settle_input (r : Run) (m : Machine) (results : Except Fault (List Value)) :
    (r.settle m results).2.2.console.input = m.console.input := by
  cases results <;> simp [settle, Machine.push]

theorem length_input_exec_le (r : Run) (token : Token) (m : Machine) :
    (r.exec token m).2.2.console.input.length ≤ m.console.input.length := by
  cases token with
  | input =>
      have read : (r.readLine m).2.2.console.input.length ≤ m.console.input.length := by
        unfold readLine
        split
        · exact Nat.le_refl _
        · exact m.console.length_input_readLine_le r.promptSpan
      simp only [exec]
      split <;> simp_all
  | output =>
      simp only [exec]
      split
      · exact Nat.le_refl _
      · rename_i v rest _
        have same := m.console.output_input r.promptSpan v
        split <;> simp_all
  | rotate count => simp [exec]
  | concat | copy | apply =>
      simp only [exec]
      split <;> simp

theorem length_input_resume_le {r r' : Run} {m m' : Machine} {answer : Answer}
    (h : r.resume m = some (answer, r', m')) :
    m'.console.input.length ≤ m.console.input.length := by
  unfold resume at h
  split at h
  · simp at h
  · split at h
    · simp at h
    · simp only [Option.some.injEq, Prod.mk.injEq] at h
      obtain ⟨-, -, rfl⟩ := h
      exact Nat.le_refl _
    · simp only [Option.some.injEq, Prod.mk.injEq] at h
      obtain ⟨-, -, rfl⟩ := h
      unfold Machine.logMismatch
      split <;> simp
    · rename_i token n feed _
      have le := length_input_exec_le { r with feed, span := ⟨r.program, r.offset, n⟩ } token m
      split at h
      · simp only [Option.some.injEq, Prod.mk.injEq] at h
        obtain ⟨-, -, rfl⟩ := h
        simp_all
      · split at h
        all_goals
          simp only [Option.some.injEq, Prod.mk.injEq] at h
          obtain ⟨-, -, rfl⟩ := h
          simp_all

theorem remaining_lt_of_resume {r r' : Run} {m m' : Machine} {token : Token} {n : Nat}
    (h : r.resume m = some (.yielded token n, r', m')) :
    r'.feed.remaining < r.feed.remaining := by
  unfold resume at h
  split at h
  · simp at h
  · split at h
    · simp at h
    · simp at h
    · simp at h
    · rename_i token' n' feed next
      have same := exec_feed { r with feed, span := ⟨r.program, r.offset, n'⟩ } token' m
      split at h
      · simp only [Option.some.injEq, Prod.mk.injEq, Answer.yielded.injEq] at h
        obtain ⟨⟨rfl, rfl⟩, rfl, rfl⟩ := h
        simp_all only
        exact Feed.remaining_lt_of_resume next
      · split at h <;> simp at h

/-- Resumes until the run ends or a fault escapes, and gives the fault, if there is one. After each
    instruction that succeeds the machine is handed to `after`. `none` if the run had ended before. -/
def drive (after : Run → Token → Machine → Machine) (r : Run) (m : Machine) :
    Option (Option Fault × Run × Machine) :=
  match _next : r.resume m with
  | none => none
  | some (.completed fault, r', m') => some (fault, r', m')
  | some (.raised fault, r', m') => some (some fault, r', m')
  | some (.yielded token _, r', m') => drive after r' (after r' token m')
termination_by r.feed.remaining
decreasing_by exact remaining_lt_of_resume _next

def finish (r : Run) (m : Machine) : Option (Option Fault × Run × Machine) :=
  r.drive (fun _ _ m => m) m

theorem length_input_drive_le {after : Run → Token → Machine → Machine} {r r' : Run}
    {m m' : Machine} {fault : Option Fault}
    (keeps : ∀ r token m, (after r token m).console.input.length ≤ m.console.input.length)
    (h : r.drive after m = some (fault, r', m')) :
    m'.console.input.length ≤ m.console.input.length := by
  fun_induction drive after r m with
  | case1 => simp at h
  | case2 | case3 =>
      rename_i next
      simp only [Option.some.injEq, Prod.mk.injEq] at h
      obtain ⟨-, -, rfl⟩ := h
      exact length_input_resume_le next
  | case4 =>
      rename_i next ih
      exact Nat.le_trans (ih h) (Nat.le_trans (keeps ..) (length_input_resume_le next))

end Run

end QueueScript
