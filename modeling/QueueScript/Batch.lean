import QueueScript.Run
import QueueScript.Report

/-! # Batch runs

A batch run executes a whole program, with its input lines given in advance, and tells how it
ended. The queue of the machine is kept from one run to the next. A fault that escapes from the run
escapes from the batch run too.
-/

namespace QueueScript

/-- How a program ended. -/
inductive Verdict where
  | success
  | failure (fault : Fault) (span : Span)
  /-- It did not end: a fault escaped from it. -/
  | raised (fault : Fault)
  deriving Repr, DecidableEq

namespace Verdict

def ofFault (span : Span) : Option Fault → Verdict
  | none => .success
  | some fault => if fault.escapes then .raised fault else .failure fault span

@[simp]
theorem ofFault_eq_success_iff {span : Span} {fault : Option Fault} :
    ofFault span fault = .success ↔ fault = none := by
  cases fault with
  | none => simp [ofFault]
  | some fault =>
      simp only [ofFault]
      split <;> simp

@[simp]
theorem ofFault_eq_failure_iff {span place : Span} {found : Option Fault} {fault : Fault} :
    ofFault span found = .failure fault place ↔
      found = some fault ∧ fault.escapes = false ∧ span = place := by
  cases found with
  | none => simp [ofFault]
  | some found =>
      simp only [ofFault]
      split <;> grind

@[simp]
theorem ofFault_eq_raised_iff {span : Span} {found : Option Fault} {fault : Fault} :
    ofFault span found = .raised fault ↔ found = some fault ∧ fault.escapes = true := by
  cases found with
  | none => simp [ofFault]
  | some found =>
      simp only [ofFault]
      split <;> grind

/-- The report of a failure; nothing otherwise. -/
def report : Verdict → Text
  | .failure fault span => (Problem.fault fault).report (some span)
  | .success | .raised _ => []

end Verdict

namespace Machine

/-- Runs a program with the given input lines; `<` reads from the console once they are used up.
    With `inAdvance` a program that cannot be read is not begun. -/
def runProgram (m : Machine) (program : Text) (inputs : List Text) (inAdvance : Bool) :
    Verdict × Machine :=
  let args := if inputs.isEmpty then none else some inputs.reverse
  match Run.start program inAdvance args false with
  | .error fault => (.failure (.parse fault) (fault.span program), m.logUnreadable program)
  | .ok run =>
      match run.finish m with
      | some (fault, run, m) => (.ofFault run.span fault, m)
      | none => (.success, m)

def clear (m : Machine) : Machine :=
  { m with queue := [] }

end Machine

/-- The text of a file, with every line end made a line feed; `none` if its bytes are not
    UTF-8. -/
def decodeFile? (bytes : ByteArray) : Option Text :=
  (String.fromUTF8? bytes).map fun s => Text.unifyBreaks s.toList

end QueueScript
