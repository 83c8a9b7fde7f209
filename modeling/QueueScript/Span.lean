import QueueScript.Text.Basic

/-! # Spans

A span marks a stretch of a program. Its positions are signed and clamped to the program, and
its three parts are what stands before, inside and after it.
-/

namespace QueueScript

/-- A stretch of a program. -/
structure Span where
  program : Text
  start : Int
  length : Int
  deriving Repr, DecidableEq

namespace Span

def stop (s : Span) : Int :=
  s.start + s.length

def before (s : Span) : Text :=
  s.program.upTo s.start

def inside (s : Span) : Text :=
  s.program.segment s.start s.stop

def after (s : Span) : Text :=
  s.program.suffixFrom s.stop

/-- The program with the span between quotes. -/
def text (s : Span) : Text :=
  s.before ++ ['\''] ++ s.inside ++ ['\''] ++ s.after

end Span

end QueueScript
