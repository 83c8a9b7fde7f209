import QueueScript.Letter
import QueueScript.Fault

/-! # Operators

An operator takes one value and gives one back. `Value.concat` is the one operation on two
values, and `rotate` the one operation on the queue as a whole.
-/

namespace QueueScript

/-- An instruction that takes one value and gives one back. -/
inductive Operator where
  /-- Cut a string at a literal, or into its characters. -/
  | split (literal : Option Text)
  /-- Join the elements of a list to a string. -/
  | join
  /-- Ask whether every character belongs to a class. -/
  | check (letters : Check)
  /-- Change the case of every letter. -/
  | mapCase (change : CaseMap)
  /-- Keep the characters of a string, or the elements of a list, that belong to a class. -/
  | filter (letters : Check)
  /-- Keep a stretch of a sequence. -/
  | slice (range : Range)
  /-- Pick one character of a string, or one element of a list. -/
  | index (bound : Bound)
  deriving Repr, DecidableEq

namespace Value

def notSequence (v : Value) : Except Fault Value :=
  .error (.kind (.unexpected Kind.sequences v.kind))

/-- The fragments between the occurrences of a literal, the empty ones dropped. Without a
    literal, or with the empty one, the single characters. -/
def split (literal : Option Text) (v : Value) : Except Fault Value :=
  match v.asString with
  | .error fault => .error (.kind fault)
  | .ok t =>
      match literal with
      | none | some [] => .ok (.list (t.map ([·])))
      | some pattern => .ok (.list ((Text.fragments pattern t).filter (!·.isEmpty)))

def join (v : Value) : Except Fault Value :=
  match v.asList with
  | .error fault => .error (.kind fault)
  | .ok items => .ok (.string items.flatten)

/-- Whether every character of a sequence belongs to the class. -/
def check (letters : Check) : Value → Except Fault Value
  | .string t => .ok (.bool (letters.all t))
  | .list items => .ok (.bool (items.all letters.all))
  | v => v.notSequence

def mapCase (change : CaseMap) : Value → Except Fault Value
  | .string t => .ok (.string (change.onText t))
  | .list items => .ok (.list (items.map change.onText))
  | v => v.notSequence

/-- The characters of a string, or the elements of a list, that belong to the class. -/
def filter (letters : Check) : Value → Except Fault Value
  | .string t => .ok (.string (t.filter letters.holds))
  | .list items => .ok (.list (items.filter letters.all))
  | v => v.notSequence

/-- The items of a list from one position up to another. -/
def cut {α : Type} (lower upper : Int) (xs : List α) : List α :=
  (xs.take upper.toNat).drop lower.toNat

/-- The stretch of a sequence that a range denotes. -/
def slice (range : Range) (v : Value) : Except Fault Value :=
  match v.length with
  | .error fault => .error (.kind fault)
  | .ok length =>
      match range.resolve length with
      | .error fault => .error (.range fault)
      | .ok (lower, upper) =>
          match v with
          | .string t => .ok (.string (cut lower upper t))
          | .list items => .ok (.list (cut lower upper items))
          | v => v.notSequence

/-- The character or element that a bound points at. The position just past the end is a
    valid bound but points at nothing. -/
def index (bound : Bound) (v : Value) : Except Fault Value :=
  match v.length with
  | .error fault => .error (.kind fault)
  | .ok length =>
      match bound.resolve length with
      | .error fault => .error (.range fault)
      | .ok pos =>
          let past : Except Fault Value :=
            .error (.range (.told [bound.places, pos, pos + 1, length]
              (.outside bound.text (pos, pos + 1) (0, length))))
          match v with
          | .string t => (t[pos.toNat]?.map fun c => .ok (.string [c])).getD past
          | .list items => (items[pos.toNat]?.map fun item => .ok (.string item)).getD past
          | v => v.notSequence

/-- The second value appended to the first, if both are strings or both are lists. A boolean
    on the right is reported before one on the left, by the kind of the other value. -/
def concat : Value → Value → Except Fault Value
  | .string left, .string right => .ok (.string (left ++ right))
  | .list left, .list right => .ok (.list (left ++ right))
  | left, .bool _ => .error (.kind (.unexpected Kind.sequences left.kind))
  | .bool _, right => .error (.kind (.unexpected Kind.sequences right.kind))
  | left, right => .error (.kind (.unequal left.kind right.kind))

end Value

def Operator.apply : Operator → Value → Except Fault Value
  | .split literal => Value.split literal
  | .join => Value.join
  | .check letters => Value.check letters
  | .mapCase change => Value.mapCase change
  | .filter letters => Value.filter letters
  | .slice range => Value.slice range
  | .index bound => Value.index bound

/-- The queue with its first `count` values moved to the back, one after the other. The count
    is taken modulo the length, so a negative one moves values from the back to the front. -/
def rotate {α : Type} (count : Int) (queue : List α) : List α :=
  let steps := (count % queue.length).toNat
  queue.drop steps ++ queue.take steps

end QueueScript
