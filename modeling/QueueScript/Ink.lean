import QueueScript.Text.Basic

/-! # Ink

The colours of a terminal, as the sequences that switch them on and off.
-/

namespace QueueScript

inductive Ink where
  | green
  | yellow
  | red
  | cyan
  | dim
  deriving Repr, DecidableEq

namespace Ink

/-- The sequence that switches the colour on. -/
def code : Ink → Text
  | .green => "\x1b[32m".toList
  | .yellow => "\x1b[33m".toList
  | .red => "\x1b[31m".toList
  | .cyan => "\x1b[36m".toList
  | .dim => "\x1b[2m".toList

/-- The sequence that switches every colour off. -/
def off : Text :=
  "\x1b[0m".toList

/-- The text in a colour, or as it is when `color` is off. -/
def paint (color : Bool) (ink : Ink) (t : Text) : Text :=
  if color then ink.code ++ t ++ off else t

end Ink

end QueueScript
