import QueueScript.Token
import QueueScript.Span

/-! # Dumps

Anything the interpreter handles can be dumped for inspection: values in the form that tells
them apart, tokens, bounds, ranges and spans as programs write them, and sequences of all of these
in brackets.
-/

namespace QueueScript

/-- Something that can be dumped. -/
inductive Exhibit where
  | value (value : Value)
  | token (token : Token)
  | bound (bound : Bound)
  | range (range : Range)
  | span (span : Span)
  | text (text : Text)
  | bool (truth : Bool)
  | int (n : Int)
  | nothing
  | sequence (exhibits : List Exhibit)
  deriving Repr, Inhabited

namespace Exhibit

mutual
def dump : Exhibit → Text
  | .value v => v.dump
  | .token t => t.source
  | .bound b => b.text
  | .range r => r.text
  | .span s => s.text
  | .text t => Text.quote t
  | .bool truth => Value.truthText truth
  | .int n => Text.ofInt n
  | .nothing => "none".toList
  | .sequence exhibits => ['['] ++ Text.commaSeparated (dumps exhibits) ++ [']']

def dumps : List Exhibit → List Text
  | [] => []
  | e :: es => dump e :: dumps es
end

theorem dump_queue (queue : List Value) :
    dump (.sequence (queue.map .value)) = Value.dumpQueue queue := by
  have each : dumps (queue.map .value) = queue.map Value.dump := by
    induction queue with
    | nil => rfl
    | cons v queue ih => simp [dumps, dump, ih]
  simp [dump, each, Value.dumpQueue]

end Exhibit

end QueueScript
