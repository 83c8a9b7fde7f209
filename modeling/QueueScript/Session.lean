import QueueScript.Run
import QueueScript.Report

/-! # Interactive sessions

A session reads lines until the input ends or the user leaves. A line that begins with an
exclamation mark is a command, and any other line that is not empty is a program, which is read
as a whole before it is executed on the queue that the session keeps.

A line that a program reads is gone for the session, and every turn takes at least one line, so a
session ends (`length_input_respond_le`). What the session itself prints on the output is taken to be
written.
-/

namespace QueueScript.Session

inductive Command where
  | help
  | queue
  | clear
  | level
  | adjustLevel (increase : Bool)
  | tokens
  | examples
  | leave
  | unknown (name : Text)
  deriving Repr, DecidableEq

def commandNames : List (String × Command) :=
  [("help", .help), ("h", .help), ("queue", .queue), ("q", .queue), ("clear", .clear),
    ("c", .clear), ("v", .level), ("v+", .adjustLevel true), ("v-", .adjustLevel false),
    ("tokens", .tokens), ("example", .examples), ("eg", .examples), ("exit", .leave)]

def Command.ofName (name : Text) : Command :=
  (commandNames.lookup (String.ofList name)).getD (.unknown name)

def commandHelp : List String :=
  ["  h |  help    print all commands",
    "  q | queue    display the current queue",
    "  c | clear    clear the current queue",
    "v | v+ | v-    view/increase/decrease logging verbosity",
    "     tokens    display all token descriptions",
    " eg | example  display examples",
    "       exit    exit the program"]

def tokenHelp : List String :=
  ["Token    take:push description",
    "Basic Tokens:",
    "    <    0:1       input",
    "    >    1:0       output",
    "    ~    2:1       concat",
    "    *    1:2       duplicate",
    "   @x    0:0       rotate queue x times",
    "Checks:",
    "    v    1:1       check all ascii vowel",
    "    c    1:1       check all ascii consonant",
    "    _    1:1       check all ascii lower",
    "    ^    1:1       check all ascii upper",
    "Transforms:",
    "    .    1:1       join array elements to string",
    "  /x/    1:1       splits string by literal or into chars if x not given",
    "|x.y|    1:1       slices by abs or rel indices",
    "  |x|    1:1       indexes by abs or rel index",
    "  [x]    1:1       filter all by x: Checks",
    "  \x7bx\x7d    1:1       map all by x: Maps",
    "Maps:",
    "    _    ---       to ascii lower case",
    "    ^    ---       to ascii upper case",
    "    %    ---       to swapped ascii case"]

def exampleHelp : List String :=
  ["        <>    echo program",
    "      <*>>    duplicate echo",
    "<*[^][_]~>    orders by case, upper first",
    "   <|.-3|>    relative slicing like [..len - 3]"]

inductive Closing where
  /-- The input ended, or the user left. -/
  | normal
  /-- A fault escaped from the session. -/
  | raised (fault : Fault)
  deriving Repr, DecidableEq

/-- Whether messages for the log are recorded at a level. -/
def detailAt (level : LogLevel) : Detail :=
  if level = .debug then .everything else .nothing

def withLevel (c : Console) (level : LogLevel) : Console :=
  { c with settings := { c.settings with level }, detail := detailAt level }

def printLines (c : Console) (lines : List String) : Console :=
  lines.foldl (fun c line => c.printLine line.toList) c

/-- What a change of level says. -/
def levelMessage (before after : LogLevel) : Text :=
  if before = after then "log level unchanged [".toList ++ before.name ++ "]".toList
  else
    "changed log level from [".toList ++ before.name ++ "] to [".toList ++ after.name ++ "]".toList

/-- Shows a notice; a fault in this ends the session. -/
def inform (kind : Notice) (message : Text) (m : Machine) : Option Closing × Machine :=
  match m.console.notify kind none message with
  | (.ok (), console) => (none, { m with console })
  | (.error fault, console) => (some (.raised (.stream fault)), { m with console })

/-- Obeys a command; tells whether the session goes on. -/
def obey (command : Command) (m : Machine) : Option Closing × Machine :=
  match command with
  | .help => (none, { m with console := printLines m.console commandHelp })
  | .queue =>
      (none, { m with console := m.console.printLine ("queue: ".toList ++ Value.dumpQueue m.queue) })
  | .clear => inform .info "queue cleared".toList { m with queue := [] }
  | .level => (none, { m with console := m.console.printLine m.console.settings.level.name })
  | .adjustLevel increase =>
      let before := m.console.settings.level
      let after := before.adjust increase
      (none, { m with console := (withLevel m.console after).printLine (levelMessage before after) })
  | .tokens => (none, { m with console := printLines m.console tokenHelp })
  | .examples => (none, { m with console := printLines m.console exampleHelp })
  | .leave => (some .normal, m)
  | .unknown name => inform .warning ("unknown command: '".toList ++ name ++ "'".toList) m

def logExecuted (r : Run) (token : Token) (m : Machine) : Machine :=
  { m with
    console := m.console.debug .progress fun _ =>
      "[".toList ++ r.marked m true ++ "]: executed ".toList ++ token.source }

/-- Executes a line as a program, if all of it can be read. Faults are shown, and the session
    goes on unless one escapes. -/
def execute (line : Text) (m : Machine) : Option Closing × Machine :=
  match Run.start line true none true with
  | .error fault =>
      inform .error ((Problem.fault (.parse fault)).report (some (fault.span line)))
        (m.logUnreadable line)
  | .ok run =>
      match run.drive logExecuted m with
      | none => (none, m)
      | some (none, _, m) => (none, m)
      | some (some fault, run, m) =>
          if fault.escapes then (some (.raised fault), m)
          else inform .error ((Problem.fault fault).report (some run.span)) m

/-- Responds to a line; tells how the session ended, if it has. -/
def respond (line : Text) (m : Machine) : Option Closing × Machine :=
  match line with
  | [] => (none, m)
  | '!' :: name => obey (.ofName name) m
  | line => execute line m

@[simp]
theorem printLines_input (c : Console) (lines : List String) :
    (printLines c lines).input = c.input := by
  induction lines generalizing c with
  | nil => rfl
  | cons line lines ih => exact ih _

@[simp]
theorem logExecuted_input (r : Run) (token : Token) (m : Machine) :
    (logExecuted r token m).console.input = m.console.input := by
  simp [logExecuted]

@[simp]
theorem logMismatch_input (m : Machine) (program : Text) (pos : Nat) :
    (m.logMismatch program pos).console.input = m.console.input := by
  unfold Machine.logMismatch
  split <;> simp

@[simp]
theorem inform_input (kind : Notice) (message : Text) (m : Machine) :
    (inform kind message m).2.console.input = m.console.input := by
  have kept := m.console.notify_input kind none message
  unfold inform
  split <;> simp_all

@[simp]
theorem inform_queue (kind : Notice) (message : Text) (m : Machine) :
    (inform kind message m).2.queue = m.queue := by
  unfold inform
  split <;> rfl

theorem length_input_obey_le (command : Command) (m : Machine) :
    (obey command m).2.console.input.length ≤ m.console.input.length := by
  cases command <;> simp [obey, Console.printLine, Console.record, withLevel]

theorem length_input_execute_le (line : Text) (m : Machine) :
    (execute line m).2.console.input.length ≤ m.console.input.length := by
  have keeps : ∀ r token m, (logExecuted r token m).console.input.length ≤ m.console.input.length :=
    fun r token m => by simp
  unfold execute
  split
  · simp [Machine.logUnreadable]
  · split
    · exact Nat.le_refl _
    · rename_i driven
      exact Run.length_input_drive_le keeps driven
    · rename_i driven
      split <;> simpa using Run.length_input_drive_le keeps driven

theorem length_input_respond_le (line : Text) (m : Machine) :
    (respond line m).2.console.input.length ≤ m.console.input.length := by
  unfold respond
  split
  · exact Nat.le_refl _
  · exact length_input_obey_le ..
  · exact length_input_execute_le ..

/-- The machine after the prompt of a session. -/
def showPrompt (m : Machine) : Machine :=
  { m with console := m.console.record (.print ">>> ".toList) }

/-- Reads and responds to lines until the session ends. -/
def turns (m : Machine) : Closing × Machine :=
  match _taken : (showPrompt m).console.takeLine with
  | (.ok line, console) =>
      match _response : respond line { showPrompt m with console } with
      | (some closing, m') => (closing, m')
      | (none, m') => turns m'
  | (.error (.ended _), console) =>
      (.normal, { showPrompt m with console := console.printLine "\nExiting.".toList })
  | (.error fault, console) => (.raised (.stream fault), { showPrompt m with console })
termination_by m.console.input.length
decreasing_by
  have kept := length_input_respond_le line { showPrompt m with console }
  rw [_response] at kept
  have taken := Console.length_input_lt_of_takeLine _taken
  exact Nat.lt_of_le_of_lt kept taken

def greet (m : Machine) : Machine :=
  { m with
    console := printLines m.console
      ["Eolina REPL v0.1", "Type '!help' for commands, '!exit' or press Ctrl+D to quit."] }

def run (m : Machine) : Closing × Machine :=
  turns (greet m)

end QueueScript.Session
