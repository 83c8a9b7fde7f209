import QueueScript.Settings.Basic
import QueueScript.Span
import QueueScript.Fault
import QueueScript.Text.Lines
import QueueScript.Text.Template

/-! # The console

A console is what a program reads from and writes to: the input that is still to come, what
happens at its end, how many writes the output and the error stream will still take and what happens
then, and a record of everything that was written so far, event by event and in order. `out`, `err` and
`log` are the three views of that record.

Prompts are made from templates. How a template is filled in is a part of the console, and it can fail.
-/

namespace QueueScript

/-- What a read past the end of the input does. -/
inductive InputEnd where
  | endOfFile
  | failure (fault : StreamFault)
  deriving Repr, DecidableEq

/-- Fills in a template with the texts of some names. -/
abbrev Renderer := Text → List (Text × Text) → Except StreamFault Text

/-- Every template can be filled in. -/
def Renderer.standard : Renderer :=
  fun template names => .ok (Text.renderTemplate template names)

/-- Something that was written. -/
inductive Event where
  /-- A program's output, with the prompt in front of it; without one nothing is shown. -/
  | value (lead : Option Text) (value : Value)
  /-- Text on the output that no program wrote. -/
  | print (text : Text)
  /-- Text on the error stream. -/
  | notice (text : Text)
  /-- A message for the log. -/
  | debug (message : Text)
  deriving Repr, DecidableEq

/-- What a message for the log is about. -/
inductive Topic where
  /-- The queue after an instruction. -/
  | queue
  /-- Where reading a program stopped, or which instruction was executed. -/
  | progress
  deriving Repr, DecidableEq

/-- Which messages are recorded for the log. -/
inductive Detail where
  | nothing
  | queueOnly
  | everything
  deriving Repr, DecidableEq

def Detail.covers : Detail → Topic → Bool
  | .nothing, _ => false
  | .queueOnly, topic => topic = .queue
  | .everything, _ => true

structure Console where
  settings : Settings := {}
  render : Renderer := .standard
  detail : Detail := .nothing
  input : Text := []
  inputEnd : InputEnd := .endOfFile
  /-- How many more writes of output succeed; `none` for any number. -/
  room : Option Nat := none
  /-- What a write of output does that does not succeed. -/
  refusal : StreamFault := .device "write failed".toList
  /-- How many more writes to the error stream succeed; `none` for any number. -/
  errRoom : Option Nat := none
  /-- What a write to the error stream does that does not succeed. -/
  errRefusal : StreamFault := .device "write failed".toList
  events : List Event := []

namespace Event

/-- What the event shows on the output. -/
def out : Event → Text
  | .value (some lead) v => lead ++ v.text ++ ['\n']
  | .print t => t
  | _ => []

/-- What the event shows on the error stream. -/
def err : Event → Text
  | .notice t => t
  | _ => []

/-- What the event adds to the log. -/
def log : Event → List Text
  | .debug message => [message]
  | _ => []

/-- What the event shows on the error stream when the log goes there too. -/
def errWithLog (color : Bool) : Event → Text
  | .notice t => t
  | .debug message => "[".toList ++ Ink.cyan.paint color "dbg".toList ++ "] ".toList ++ message ++ ['\n']
  | _ => []

end Event

inductive Notice where
  | info
  | warning
  | error
  deriving Repr, DecidableEq

def Notice.channel : Notice → Channel
  | .info => .info
  | .warning => .warning
  | .error => .error

namespace Console

def out (c : Console) : Text :=
  c.events.flatMap Event.out

def err (c : Console) : Text :=
  c.events.flatMap Event.err

def log (c : Console) : List Text :=
  c.events.flatMap Event.log

def errWithLog (c : Console) : Text :=
  c.events.flatMap (Event.errWithLog c.settings.color)

def record (c : Console) (e : Event) : Console :=
  { c with events := c.events ++ [e] }

/-- A program with the active instruction marked, by colours if there are any. -/
def highlight (c : Console) (span : Span) : Text :=
  if c.settings.color then
    Ink.green.paint true span.before ++ Ink.cyan.paint true span.inside ++
      Ink.dim.paint true span.after
  else span.text

def prompt (c : Console) (channel : Channel) (span : Option Span) : Except StreamFault Text :=
  c.render (c.settings.prompts.get channel)
    [("tag".toList, channel.ink.paint c.settings.color channel.tag),
      ("context".toList, (span.map c.highlight).getD [])]

def writeErr (c : Console) (t : Text) : Except StreamFault Unit × Console :=
  match c.errRoom with
  | none => (.ok (), c.record (.notice t))
  | some 0 => (.error c.errRefusal, c)
  | some (n + 1) => (.ok (), { c.record (.notice t) with errRoom := some n })

/-- Asks for a line of input, if the line is for a marked program and prompts are shown. -/
def ask (c : Console) (span : Option Span) : Except StreamFault Unit × Console :=
  match c.settings.mode, span with
  | .prompted, some span =>
      match c.prompt .input (some span) with
      | .ok prompt => c.writeErr prompt
      | .error fault => (.error fault, c)
  | _, _ => (.ok (), c)

/-- What a read past the end of the input reports. -/
def endFault : InputEnd → StreamFault
  | .endOfFile => .ended "end of input".toList
  | .failure fault => fault

def takeLine (c : Console) : Except StreamFault Text × Console :=
  match Text.readLine? c.input with
  | some (line, rest) => (.ok line, { c with input := rest })
  | none => (.error (endFault c.inputEnd), c)

/-- Asks for a line of input and takes it. -/
def readLine (c : Console) (span : Option Span) : Except StreamFault Text × Console :=
  match c.ask span with
  | (.ok (), c) => c.takeLine
  | (.error fault, c) => (.error fault, c)

/-- The prompt before a line of output, if the line is from a marked program and prompts are
    shown. -/
def lead (c : Console) (span : Option Span) : Except StreamFault Text :=
  match c.settings.mode, span with
  | .prompted, some span => c.prompt .output (some span)
  | _, _ => .ok []

/-- Writes a value behind its prompt as one line of output. -/
def writeValue (c : Console) (lead : Text) (v : Value) : Except StreamFault Unit × Console :=
  match c.room with
  | none => (.ok (), c.record (.value (some lead) v))
  | some 0 => (.error c.refusal, c)
  | some (n + 1) => (.ok (), { c.record (.value (some lead) v) with room := some n })

/-- Writes a value as one line of output, after its prompt. A muted console takes the value and
    shows nothing. -/
def output (c : Console) (span : Option Span) (v : Value) : Except StreamFault Unit × Console :=
  match c.settings.mode with
  | .muted => (.ok (), c.record (.value none v))
  | _ =>
      match c.lead span with
      | .ok lead => c.writeValue lead v
      | .error fault => (.error fault, c)

/-- Shows a notice, if the mode allows notices. -/
def notify (c : Console) (kind : Notice) (span : Option Span) (message : Text) :
    Except StreamFault Unit × Console :=
  match c.settings.mode with
  | .prompted =>
      match c.prompt kind.channel span with
      | .ok prompt => c.writeErr (prompt ++ message ++ ['\n'])
      | .error fault => (.error fault, c)
  | _ => (.ok (), c)

/-- Shows a line on the output that no program wrote. -/
def printLine (c : Console) (line : Text) : Console :=
  c.record (.print (line ++ ['\n']))

/-- Logs a message, if messages of its kind are recorded. -/
def debug (c : Console) (topic : Topic) (message : Unit → Text) : Console :=
  if c.detail.covers topic then c.record (.debug (message ())) else c

@[simp]
theorem writeErr_input (c : Console) (t : Text) : (c.writeErr t).2.input = c.input := by
  unfold writeErr
  split <;> rfl

@[simp]
theorem ask_input (c : Console) (span : Option Span) : (c.ask span).2.input = c.input := by
  unfold ask
  split
  · split <;> simp
  · rfl

@[simp]
theorem writeValue_input (c : Console) (lead : Text) (v : Value) :
    (c.writeValue lead v).2.input = c.input := by
  unfold writeValue
  split <;> rfl

@[simp]
theorem output_input (c : Console) (span : Option Span) (v : Value) :
    (c.output span v).2.input = c.input := by
  unfold output
  split
  · rfl
  · split <;> simp

@[simp]
theorem notify_input (c : Console) (kind : Notice) (span : Option Span) (message : Text) :
    (c.notify kind span message).2.input = c.input := by
  unfold notify
  split
  · split <;> simp
  · rfl

@[simp]
theorem debug_input (c : Console) (topic : Topic) (message : Unit → Text) :
    (c.debug topic message).input = c.input := by
  unfold debug
  split <;> rfl

theorem length_input_takeLine_le (c : Console) : c.takeLine.2.input.length ≤ c.input.length := by
  unfold takeLine
  split
  · rename_i found
    exact Nat.le_of_lt (Text.length_lt_of_readLine? found)
  · exact Nat.le_refl _

theorem length_input_lt_of_takeLine {c c' : Console} {line : Text}
    (h : c.takeLine = (.ok line, c')) : c'.input.length < c.input.length := by
  unfold takeLine at h
  split at h
  · rename_i found
    simp only [Prod.mk.injEq] at h
    obtain ⟨-, rfl⟩ := h
    exact Text.length_lt_of_readLine? found
  · simp at h

theorem length_input_readLine_le (c : Console) (span : Option Span) :
    (c.readLine span).2.input.length ≤ c.input.length := by
  have kept := c.ask_input span
  unfold readLine
  split
  · rename_i asked
    rw [asked] at kept
    rw [← kept]
    exact length_input_takeLine_le _
  · rename_i asked
    rw [asked] at kept
    exact Nat.le_of_eq (congrArg List.length kept)

end Console

end QueueScript
