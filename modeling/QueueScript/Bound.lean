import QueueScript.Text.Decimal

/-! # Bounds and ranges

A bound is counted from the front or from the back. The bound `-0` is the length itself and
differs from `0`, which is why a bound is not an integer. A range has two bounds, either of
which may be left out. Resolving never clamps: a bound outside `0..length` is a fault, and so
are two bounds in the wrong order. A fault is told with all its numbers, so one with a number that is
too long to be written cannot be told.
-/

namespace QueueScript

/-- A position relative to one end of a sequence. -/
inductive Bound where
  /-- So many places after the front. -/
  | front (n : Int)
  /-- So many places before the back. -/
  | back (n : Int)
  deriving Repr, DecidableEq

/-- Why a bound or a range cannot be used on a sequence. -/
inductive RangeFault where
  /-- A bound lies outside the sequence. -/
  | outside (given : Text) (resolved valid : Int × Int)
  /-- Both bounds lie inside, the first after the last. -/
  | crossed (resolved valid : Int × Int)
  /-- A number is too long for the fault to be told. -/
  | unwritable
  deriving Repr, DecidableEq

/-- The fault, if all its numbers can be written. -/
def RangeFault.told (numbers : List Int) (fault : RangeFault) : RangeFault :=
  if numbers.all Text.isWritable then fault else .unwritable

namespace Bound

def places : Bound → Int
  | .front n | .back n => n

/-- The absolute position in a sequence of the given length, which need not be inside it. -/
def offset (length : Int) : Bound → Int
  | .front n => n
  | .back n => length - n

def text : Bound → Text
  | .front n => Text.ofInt n
  | .back n => '-' :: Text.ofInt n

/-- The absolute position, if it lies in `0..length`. -/
def resolve (b : Bound) (length : Int) : Except RangeFault Int :=
  let pos := b.offset length
  if 0 ≤ pos ∧ pos ≤ length then .ok pos
  else .error (.told [b.places, pos, length] (.outside b.text (pos, pos) (0, length)))

end Bound

/-- A stretch of a sequence between two bounds, the whole of it by default. -/
structure Range where
  first : Option Bound
  last : Option Bound
  deriving Repr, DecidableEq

namespace Range

/-- The absolute position of the first bound, 0 if it is left out. -/
def lower (r : Range) (length : Int) : Int :=
  (r.first.map (·.offset length)).getD 0

/-- The absolute position of the last bound, the length if it is left out. -/
def upper (r : Range) (length : Int) : Int :=
  (r.last.map (·.offset length)).getD length

def text (r : Range) : Text :=
  ['|'] ++ (r.first.map Bound.text).getD [] ++ ['.'] ++ (r.last.map Bound.text).getD [] ++ ['|']

def places (r : Range) : List Int :=
  (r.first.toList ++ r.last.toList).map Bound.places

/-- The absolute positions of both bounds, if they lie in `0..length` in this order. -/
def resolve (r : Range) (length : Int) : Except RangeFault (Int × Int) :=
  let lower := r.lower length
  let upper := r.upper length
  if (0 ≤ lower ∧ lower ≤ length) ∧ 0 ≤ upper ∧ upper ≤ length then
    if lower ≤ upper then .ok (lower, upper)
    else .error (.told [lower, upper, length] (.crossed (lower, upper) (0, length)))
  else
    .error (.told (r.places ++ [lower, upper, length])
      (.outside r.text (lower, upper) (0, length)))

end Range

namespace RangeFault

/-- Two absolute positions in a message. -/
def boundsText (bounds : Int × Int) : Text :=
  Text.ofInt bounds.1 ++ "..".toList ++ Text.ofInt bounds.2

def message : RangeFault → Text
  | .outside given resolved valid =>
      "out of range: rel ".toList ++ given ++ " => abs ".toList ++ boundsText resolved ++
        " vs valid ".toList ++ boundsText valid
  | .crossed resolved valid =>
      "incompatible bounds: abs ".toList ++ boundsText resolved ++
        " (start > end) vs valid ".toList ++ boundsText valid
  | .unwritable => (Text.digitLimit ++ Text.digitAdvice).toList

end RangeFault

end QueueScript
