import QueueScript.Ink

/-! # Settings

How a console presents itself: what it writes at all (`Mode`), whether it uses colour, from which
level on it logs, and the templates of the prompts in front of its lines.
-/

namespace QueueScript

/-- How much a console writes. -/
inductive Mode where
  /-- Nothing; input is still read. -/
  | muted
  /-- The values that programs output, and nothing else. -/
  | plain
  /-- Also prompts and notices. -/
  | prompted
  deriving Repr, DecidableEq

namespace Mode

def name : Mode → Text
  | .muted => "MUTED".toList
  | .plain => "LEAN".toList
  | .prompted => "PROMPTED".toList

/-- The mode of a name, in any case. -/
def ofName? (t : Text) : Option Mode :=
  [muted, plain, prompted].find? fun mode => mode.name = t.map Char.toUpper

end Mode

/-- From which level on messages are logged. -/
inductive LogLevel where
  | off
  | error
  | warning
  | info
  | debug
  deriving Repr, DecidableEq

namespace LogLevel

/-- The levels from the most silent to the most talkative. -/
def all : List LogLevel :=
  [off, error, warning, info, debug]

def name : LogLevel → Text
  | .off => "off".toList
  | .error => "error".toList
  | .warning => "warning".toList
  | .info => "info".toList
  | .debug => "debug".toList

/-- The level of a name, in any case. -/
def ofName? (t : Text) : Option LogLevel :=
  all.find? fun level => level.name = t.map Char.toLower

/-- The least severity of a message that is logged. -/
def severity : LogLevel → Nat
  | .off => 60
  | .error => 40
  | .warning => 30
  | .info => 20
  | .debug => 10

/-- One level more talkative, if there is one. -/
def raise : LogLevel → LogLevel
  | .off => .error
  | .error => .warning
  | .warning => .info
  | .info | .debug => .debug

/-- One level more silent, if there is one. -/
def lower : LogLevel → LogLevel
  | .debug => .info
  | .info => .warning
  | .warning => .error
  | .error | .off => .off

/-- One level in either direction, if there is one. -/
def adjust (increase : Bool) (level : LogLevel) : LogLevel :=
  if increase then level.raise else level.lower

end LogLevel

/-- What a line on the console is: input asked for, output, or a notice. -/
inductive Channel where
  | input
  | output
  | info
  | warning
  | error
  deriving Repr, DecidableEq

namespace Channel

def all : List Channel :=
  [input, output, info, warning, error]

def name : Channel → Text
  | .input => "input".toList
  | .output => "output".toList
  | .info => "info".toList
  | .warning => "warning".toList
  | .error => "error".toList

/-- The channel of a name. -/
def ofName? (t : Text) : Option Channel :=
  all.find? fun channel => channel.name = t

/-- The short word for the channel in a prompt. -/
def tag : Channel → Text
  | .input => "inp".toList
  | .output => "out".toList
  | .info => "inf".toList
  | .warning => "wrn".toList
  | .error => "err".toList

def ink : Channel → Ink
  | .input | .output | .info => .green
  | .warning => .yellow
  | .error => .red

end Channel

structure Prompts where
  input : Text
  output : Text
  info : Text
  warning : Text
  error : Text
  deriving Repr, DecidableEq

namespace Prompts

def get (p : Prompts) : Channel → Text
  | .input => p.input
  | .output => p.output
  | .info => p.info
  | .warning => p.warning
  | .error => p.error

def set (p : Prompts) (channel : Channel) (template : Text) : Prompts :=
  match channel with
  | .input => { p with input := template }
  | .output => { p with output := template }
  | .info => { p with info := template }
  | .warning => { p with warning := template }
  | .error => { p with error := template }

/-- The tag in brackets, and the marked program where the line belongs to one. -/
def standard : Prompts :=
  let tagged := "[\x7b\x7btag\x7d\x7d] ".toList
  let located := tagged ++ "[\x7b\x7bcontext\x7d\x7d]: ".toList
  { input := located, output := located, info := tagged, warning := tagged, error := tagged }

end Prompts

structure Settings where
  mode : Mode := .plain
  color : Bool := false
  level : LogLevel := .warning
  prompts : Prompts := .standard
  deriving Repr, DecidableEq

end QueueScript
