import QueueScript.Text.Decimal
import QueueScript.Text.Quoted

/-! # Values

The queue holds strings, lists of strings and booleans. Strings and lists are the sequences:
they have a length and can be cut. Each value has two written forms: `text` is what a program
outputs, and `dump` is what a look at the queue shows, where different values differ.
-/

namespace QueueScript

inductive Kind where
  | string
  | list
  | bool
  deriving Repr, DecidableEq

namespace Kind

def name : Kind → Text
  | .string => "String".toList
  | .list => "StringList".toList
  | .bool => "Bool".toList

def sequences : List Kind :=
  [.string, .list]

end Kind

inductive Value where
  | string (text : Text)
  | list (items : List Text)
  | bool (truth : Bool)
  deriving Repr, DecidableEq

/-- Why an instruction cannot work on the values it finds. Only the number and the kinds of
    the values matter. -/
inductive KindFault where
  /-- The queue holds fewer values than the instruction takes. -/
  | queueTooShort (needed found : Nat)
  /-- A value is of none of the kinds that the instruction takes. -/
  | unexpected (expected : List Kind) (actual : Kind)
  /-- Two sequences that must be of one kind are not. -/
  | unequal (left right : Kind)
  deriving Repr, DecidableEq

namespace KindFault

/-- A kind's name between backticks. -/
def marked (k : Kind) : Text :=
  "`".toList ++ k.name ++ "`".toList

def message : KindFault → Text
  | .queueTooShort needed found =>
      "queue too short: needed ".toList ++ Text.ofNat needed ++ " value(s), found ".toList ++
        Text.ofNat found
  | .unexpected [expected] actual =>
      "arg mismatch: expected ".toList ++ marked expected ++ ", found ".toList ++ marked actual
  | .unexpected expected actual =>
      "arg mismatch: expected any of ".toList ++ Text.commaSeparated (expected.map marked) ++
        ", found ".toList ++ marked actual
  | .unequal left right =>
      "type mismatch: ".toList ++ marked left ++ " != ".toList ++ marked right

end KindFault

namespace Value

def kind : Value → Kind
  | .string _ => .string
  | .list _ => .list
  | .bool _ => .bool

def truthText (truth : Bool) : Text :=
  if truth then "true".toList else "false".toList

/-- The value as a program outputs it. -/
def text : Value → Text
  | .string t => t
  | .list items => ['['] ++ Text.commaSeparated items ++ [']']
  | .bool truth => truthText truth

/-- The value as a dump of the queue shows it. -/
def dump : Value → Text
  | .string t => Text.quote t
  | .list items => ['['] ++ Text.commaSeparated (items.map Text.quote) ++ [']']
  | .bool truth => truthText truth

def dumpQueue (queue : List Value) : Text :=
  ['['] ++ Text.commaSeparated (queue.map dump) ++ [']']

def asString : Value → Except KindFault Text
  | .string t => .ok t
  | v => .error (.unexpected [.string] v.kind)

def asList : Value → Except KindFault (List Text)
  | .list items => .ok items
  | v => .error (.unexpected [.list] v.kind)

def asBool : Value → Except KindFault Bool
  | .bool truth => .ok truth
  | v => .error (.unexpected [.bool] v.kind)

/-- The number of characters of a string, or of elements of a list. -/
def length : Value → Except KindFault Nat
  | .string t => .ok t.length
  | .list items => .ok items.length
  | v => .error (.unexpected Kind.sequences v.kind)

end Value

end QueueScript
