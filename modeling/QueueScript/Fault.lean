import QueueScript.Bound
import QueueScript.Value

/-! # Faults

A fault stops an instruction of a program, or the reading of it. Its cause lies in the program's text,
in the values on the queue, in a range that does not fit its sequence, or in a stream. Most faults end
the run of the program. Some escape from it (`Fault.escapes`): whoever has resumed the run gets them,
and the run itself has not ended.

A `Problem` is anything that can be reported: a fault, or a request that an interpreter or its
settings refuse. A report opens with the problem's label and its message.
-/

namespace QueueScript

/-- Why a text does not begin with an instruction. -/
inductive ParseFault where
  /-- Nothing but blanks is left. -/
  | empty
  /-- The text from the first character that is not a blank. -/
  | unknownToken (text : Text)
  deriving Repr, DecidableEq

/-- Why a line could not be read or written. -/
inductive StreamFault where
  /-- The input has ended. -/
  | ended (note : Text)
  /-- The device refused. -/
  | device (note : Text)
  /-- The user broke off. -/
  | interrupted
  /-- Anything else, such as bytes that are no text or a stream that is closed. -/
  | other (name note : Text)
  deriving Repr, DecidableEq

/-- Why an instruction failed, or why there is none. -/
inductive Fault where
  | parse (fault : ParseFault)
  | kind (fault : KindFault)
  | range (fault : RangeFault)
  | stream (fault : StreamFault)
  deriving Repr, DecidableEq

def ParseFault.message : ParseFault → Text
  | .empty => "empty program".toList
  | .unknownToken text => "unknown token at `".toList ++ text ++ "`".toList

namespace StreamFault

def message : StreamFault → Text
  | .ended note | .device note | .other _ note => note
  | .interrupted => []

/-- The word that opens a report. -/
def label : StreamFault → Text
  | .ended _ | .device _ => "IoError".toList
  | .interrupted => "KeyboardInterrupt".toList
  | .other name _ => name

/-- Whether the fault is left to whoever has resumed the run. -/
def escapes : StreamFault → Bool
  | .ended _ | .device _ => false
  | .interrupted | .other .. => true

end StreamFault

namespace Fault

def message : Fault → Text
  | .parse fault => fault.message
  | .kind fault => fault.message
  | .range fault => fault.message
  | .stream fault => fault.message

def label : Fault → Text
  | .parse _ => "ParseError".toList
  | .kind (.queueTooShort ..) => "QueueTooShort".toList
  | .kind (.unexpected ..) => "ArgMismatch".toList
  | .kind (.unequal ..) => "Mismatch".toList
  | .range .unwritable => "ValueError".toList
  | .range _ => "RangeError".toList
  | .stream fault => fault.label

/-- Whether the fault does not end a run, but is left to whoever has resumed it. -/
def escapes : Fault → Bool
  | .stream fault => fault.escapes
  | .range .unwritable => true
  | .parse _ | .kind _ | .range _ => false

end Fault

/-- Anything that can be reported. -/
inductive Problem where
  | fault (fault : Fault)
  /-- Something that has completed was resumed without a reset. -/
  | exhausted (what : Text)
  /-- A grammar leaf that denotes no token. -/
  | malformed (note : Text)
  /-- Anything else. -/
  | other (name note : Text)
  /-- Settings that cannot be used. -/
  | settings (note : Text)
  deriving Repr, DecidableEq

namespace Problem

def message : Problem → Text
  | .fault f => f.message
  | .exhausted what => "resumed ".toList ++ what ++ " after completion without reset".toList
  | .malformed note | .other _ note | .settings note => note

def label : Problem → Text
  | .fault f => f.label
  | .exhausted _ => "GeneratorExhausted".toList
  | .malformed _ => "ValueError".toList
  | .other name _ => name
  | .settings _ => "ConfigError".toList

end Problem

end QueueScript
