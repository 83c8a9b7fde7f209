import QueueScript.Batch
import QueueScript.Session
import QueueScript.Settings.Overlay
import QueueScript.Document.Content
import QueueScript.CommandLine.Options
import QueueScript.CommandLine.Directory

/-! # The command line

`run` is the whole command as a function of its arguments, its input, the files it can see, and how
documents are read and templates filled in. It gives the console with everything that was written, and
how the command ended.
-/

namespace QueueScript.CommandLine

/-- What a command is called with. -/
structure Invocation where
  arguments : List Text
  input : Text := []
  inputEnd : InputEnd := .endOfFile
  directory : Directory := .ofFiles []
  reader : Reader := Document.reader
  render : Renderer := .standard
  /-- Whether the error stream is a terminal. -/
  terminal : Bool := false

/-- A failure that the command does not handle. -/
inductive Crash where
  /-- A file is not UTF-8. -/
  | undecodable
  /-- Settings of a shape that is not expected. -/
  | settings (fault : SettingsFault)
  /-- The path of the settings is not a path. -/
  | invalidPath
  /-- A fault that no run ended with. -/
  | fault (fault : Fault)

inductive Ending where
  | exit (code : Nat)
  | interrupted
  | crash (cause : Crash)

/-- Why there are no settings, or no program. -/
inductive Refusal where
  /-- The reason is shown to the user. -/
  | shown (message : Text)
  | crash (cause : Crash)

def refuse (path : Text) (fault : SettingsFault) : Refusal :=
  match fault with
  | .unreadable (.malformed note) =>
      .shown ("invalid config file ".toList ++ path ++ ": ".toList ++ note)
  | .promptsNotMapping _ | .keysNotText _ | .keysNotOrdered .. | .unreadable _ | .unwritable _ =>
      .crash (.settings fault)
  | fault => .shown fault.message

def loadSettings (reader : Reader) (directory : Directory) (path : Text) :
    Except Refusal Settings :=
  match directory.find path with
  | .file content =>
      match decodeFile? content with
      | none => .error (.crash .undecodable)
      | some t => (Settings.overlayDocument reader {} t).mapError (refuse path)
  | .unreadable reason | .absent reason => .error (.shown reason)
  | .invalidPath => .error (.crash .invalidPath)

/-- The settings of the file that the options name, if they do, or the standard ones. -/
def baseSettings (reader : Reader) (directory : Directory) (config : Option Text)
    (interactive : Bool) : Except Refusal Settings :=
  match config with
  | some path => loadSettings reader directory path
  | none => .ok { level := if interactive then .info else .warning }

/-- Whether output is coloured. Without an option, settings from a file decide, and without
    these whether there is a terminal. -/
def chooseColor (choice : Option ColorChoice) (terminal : Bool) (fromFile : Option Bool) :
    Except Refusal Bool :=
  match choice with
  | some .on =>
      if terminal then .ok true
      else .error (.shown "`--color=on` is not allowed if stderr is not a tty".toList)
  | some .off => .ok false
  | some .auto => .ok terminal
  | none => .ok (fromFile.getD terminal)

def chooseLevel (o : Options) (level : LogLevel) : LogLevel :=
  if o.quiet then .off else Nat.repeat LogLevel.raise o.verbose level

def settings (o : Options) (interactive : Bool) (invocation : Invocation) :
    Except Refusal Settings := do
  let config := o.config.filter (!·.isEmpty)
  let base ← baseSettings invocation.reader invocation.directory config interactive
  let color ← chooseColor o.color invocation.terminal (config.map fun _ => base.color)
  return {
    base with
    color
    level := chooseLevel o base.level
    mode := if interactive then .prompted else base.mode }

def console (invocation : Invocation) (settings : Settings) : Console :=
  { settings, render := invocation.render, detail := Session.detailAt settings.level,
    input := invocation.input, inputEnd := invocation.inputEnd }

/-- Ends a command that cannot go on. -/
def giveUp (c : Console) : Refusal → Ending × Console
  | .shown message => (.exit 1, c.record (.notice ("Error: ".toList ++ message ++ ['\n'])))
  | .crash cause => (.crash cause, c)

/-- Ends a command with a fault that no run ended with. -/
def breakOff : Fault → Ending
  | .stream .interrupted => .interrupted
  | fault => .crash (.fault fault)

/-- The source of a program: the text of the file of that name, or the argument itself. -/
def programSource (directory : Directory) (program : Text) : Except Refusal Text :=
  match directory.find program with
  | .file content => (decodeFile? content).elim (.error (.crash .undecodable)) .ok
  | .unreadable reason =>
      .error (.shown ("could not read file '".toList ++ program ++ "': ".toList ++ reason))
  | .absent _ | .invalidPath => .ok program

/-- Runs a program once. A fault is reported on the error stream. -/
def runProgram (source : Text) (inputs : List Text) (c : Console) : Ending × Console :=
  match (Machine.mk [] c).runProgram source inputs false with
  | (.success, m) => (.exit 0, m.console)
  | (.raised fault, m) => (breakOff fault, m.console)
  | (verdict, m) => (.exit 1, m.console.record (.notice (verdict.report ++ ['\n'])))

def runArgument (directory : Directory) (program : Text) (inputs : List Text) (c : Console) :
    Ending × Console :=
  match programSource directory program with
  | .error refusal => giveUp c refusal
  | .ok source => runProgram source inputs c

def runSession (c : Console) : Ending × Console :=
  match Session.run (Machine.mk [] c) with
  | (.normal, m) => (.exit 0, m.console)
  | (.raised fault, m) => (breakOff fault, m.console)

/-- Runs the program, or holds the session, that options ask for. -/
def runOptions (o : Options) (program : Text) (invocation : Invocation) : Ending × Console :=
  let interactive := program = "repl".toList ∧ o.inputs = []
  match settings o interactive invocation with
  | .error refusal => giveUp (console invocation {}) refusal
  | .ok settings =>
      let c := console invocation settings
      if interactive then runSession c else runArgument invocation.directory program o.inputs c

/-- Runs a command up to its end, or to where the user breaks off. -/
def start (invocation : Invocation) : Ending × Console :=
  let bare := console invocation {}
  match Options.parse invocation.arguments with
  | .error .help => (.exit 0, bare.record (.print Options.help.toList))
  | .error (.misuse message) => (.exit 2, bare.record (.notice (Options.complaint message)))
  | .ok o =>
      match o.program with
      | none => (.exit 2, bare.record (.print Options.help.toList))
      | some program => runOptions o program invocation

/-- Runs a command. When the user breaks off, it says goodbye. -/
def run (invocation : Invocation) : Ending × Console :=
  match start invocation with
  | (.interrupted, c) => (.exit 1, c.printLine "\nExiting.".toList)
  | result => result

end QueueScript.CommandLine
