import QueueScript.Fault
import QueueScript.Span
import QueueScript.Text.Lines
import QueueScript.Text.Space

/-! # Reports

A report names a problem and, if its place in the program is known, gives the line and column and
shows the lines around it, with carets below the instruction.
-/

namespace QueueScript

namespace Report

/-- A line of an excerpt, behind its number. -/
def row (marker : Char) (number content : Text) : Text :=
  marker :: ' ' :: number ++ " | ".toList ++ content

/-- The row of carets below a line: as many as `width`, but not beyond the end of the line, and
    at least one. -/
def caretRow (digits : Nat) (content : Text) (col width : Int) : Text :=
  row ' ' (List.replicate digits ' ')
    (List.replicate (col - 1).toNat ' ' ++
      List.replicate (max (min width (content.length - col + 1)) 1).toNat '^')

/-- The lines of a text around one of them, which is marked; `[]` if there is no such line. -/
def excerpt (source : Text) (line : Int) (col : Option Int) (width radius : Int) : Text :=
  let lines := Text.lines source
  if line < 1 ∨ line > lines.length then []
  else
    let first := max 1 (line - radius)
    let last := min (lines.length : Int) (line + radius)
    let digits := (Text.ofInt last).length
    let shown := (lines.zipIdx 1).filter fun (_, i) => first ≤ i ∧ i ≤ last
    List.intercalate ['\n'] <| shown.flatMap fun (content, i) =>
      let number := Text.padLeft digits (Text.ofNat i)
      if (i : Int) = line then
        row '>' number content :: (col.map fun col => caretRow digits content col width).toList
      else [row ' ' number content]

end Report

namespace Problem

def headline (p : Problem) : Text :=
  p.label ++ ": ".toList ++ p.message

/-- The report of a problem. The place is the first character of the span that is not a blank;
    without a span, or without such a character, only the headline is given. -/
def report (p : Problem) (span : Option Span) : Text :=
  match span with
  | none => p.headline
  | some span =>
      let start := span.program.firstNonBlank span.start
      if Text.isAllSpace span.program || span.program.length ≤ start then p.headline
      else
        let width := max (span.stop - start) 1
        let (line, col) := Text.lineCol span.program start
        p.headline ++ " (line ".toList ++ Text.ofNat line ++ ", col ".toList ++ Text.ofInt col ++
          ")\n".toList ++ Report.excerpt span.program line (some col) width 2

end Problem

/-- The part of a program that could not be read: the text that the fault names, if the program
    ends with it, or the whole program. -/
def ParseFault.span (program : Text) (fault : ParseFault) : Span :=
  let whole := ⟨program, 0, program.length⟩
  match fault with
  | .empty => whole
  | .unknownToken text =>
      if text.isSuffixOf program then ⟨program, program.length - text.length, text.length⟩
      else whole

end QueueScript
