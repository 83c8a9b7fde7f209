import QueueScript.Double
import QueueScript.Text.Quoted

/-! # Data

A datum is what a document of settings can hold: scalars, lists and mappings. The keys of a
mapping are scalars, they are distinct, and their order is kept. `plainText` and `cite` are the two
forms in which a datum stands in prompts and in messages; they differ on text, which `cite`
puts in quotes. A datum with an integer that is too long, or with too many levels of nesting, cannot be
written in either form.

A `Reader` finds the datum that a text holds.
-/

namespace QueueScript

/-- A datum without parts. -/
inductive Scalar where
  | null
  | bool (truth : Bool)
  | int (n : Int)
  | real (d : Double)
  | date (year month day : Nat)
  | text (t : Text)
  deriving Repr, DecidableEq

namespace Scalar

def kindName : Scalar → Text
  | .null => "NoneType".toList
  | .bool _ => "bool".toList
  | .int _ => "int".toList
  | .real _ => "float".toList
  | .date .. => "date".toList
  | .text _ => "str".toList

/-- The name of the kind with that of its family, if it has one. -/
def fullName : Scalar → Text
  | .date .. => "datetime.date".toList
  | s => s.kindName

def cite : Scalar → Text
  | .null => "None".toList
  | .bool truth => if truth then "True".toList else "False".toList
  | .int n => Text.ofInt n
  | .real d => d.text
  | .date year month day =>
      "datetime.date(".toList ++ Text.commaSeparated ([year, month, day].map Text.ofNat) ++ [')']
  | .text t => Text.cite t

def plainText : Scalar → Text
  | .text t => t
  | .date year month day =>
      let padded (width n : Nat) :=
        List.replicate (width - (Text.ofNat n).length) '0' ++ Text.ofNat n
      padded 4 year ++ ['-'] ++ padded 2 month ++ ['-'] ++ padded 2 day
  | s => s.cite

/-- Whether the scalar can be written: it is no integer that is too long. -/
def isWritable : Scalar → Bool
  | .int n => Text.isWritable n
  | _ => true

/-- The scalar as a quotient, if it is a number. The truth values count as one and zero. -/
def quotient? : Scalar → Option (Int × Nat)
  | .bool truth => some (if truth then 1 else 0, 1)
  | .int n => some (n, 1)
  | .real d => d.quotient?
  | _ => none

/-- Whether two scalars are the same key: equal, or equal as numbers. -/
def sameKey (a b : Scalar) : Bool :=
  match a.quotient?, b.quotient? with
  | some (m, d), some (n, e) => m * e == n * d
  | _, _ => a == b

end Scalar

/-- Why a datum cannot be written. -/
inductive Obstacle where
  /-- An integer is too long. -/
  | tooLong
  /-- The datum is nested too deeply. -/
  | tooDeep
  deriving Repr, DecidableEq

/-- A document's content. -/
inductive Datum where
  | scalar (scalar : Scalar)
  | list (items : List Datum)
  | map (entries : List (Scalar × Datum))
  deriving Repr, Inhabited

namespace Datum

def kindName : Datum → Text
  | .scalar s => s.kindName
  | .list _ => "list".toList
  | .map _ => "dict".toList

def fullName : Datum → Text
  | .scalar s => s.fullName
  | d => d.kindName

/-- Whether there is nothing in the datum: null, false, zero, or no characters, items or
    entries. -/
def isVoid : Datum → Bool
  | .scalar .null => true
  | .scalar (.bool truth) => !truth
  | .scalar (.int n) => n == 0
  | .scalar (.real d) => d.quotient?.any (·.1 == 0)
  | .scalar (.date ..) => false
  | .scalar (.text t) => t.isEmpty
  | .list items => items.isEmpty
  | .map entries => entries.isEmpty

mutual
/-- The first thing from the left that keeps the datum from being written, where `depth` levels of
    nesting can be. -/
def obstacle? (depth : Nat) : Datum → Option Obstacle
  | .scalar s => if s.isWritable then none else some .tooLong
  | .list items =>
      match depth with
      | 0 => some .tooDeep
      | depth + 1 => itemsObstacle? depth items
  | .map entries =>
      match depth with
      | 0 => some .tooDeep
      | depth + 1 => entriesObstacle? depth entries

def itemsObstacle? (depth : Nat) : List Datum → Option Obstacle
  | [] => none
  | item :: items => (obstacle? depth item).or (itemsObstacle? depth items)

def entriesObstacle? (depth : Nat) : List (Scalar × Datum) → Option Obstacle
  | [] => none
  | (key, value) :: entries =>
      if key.isWritable then (obstacle? depth value).or (entriesObstacle? depth entries)
      else some .tooLong
end

mutual
def cite : Datum → Text
  | .scalar s => s.cite
  | .list items => ['['] ++ Text.commaSeparated (citeItems items) ++ [']']
  | .map entries => ['\x7b'] ++ Text.commaSeparated (citeEntries entries) ++ ['\x7d']

def citeItems : List Datum → List Text
  | [] => []
  | item :: items => cite item :: citeItems items

def citeEntries : List (Scalar × Datum) → List Text
  | [] => []
  | (key, value) :: entries => (key.cite ++ [':', ' '] ++ cite value) :: citeEntries entries
end

def plainText : Datum → Text
  | .scalar s => s.plainText
  | d => d.cite

/-- The entries with one more; the value of the same key is replaced where it stands. -/
def insertEntry (key : Scalar) (value : Datum) : List (Scalar × Datum) → List (Scalar × Datum)
  | [] => [(key, value)]
  | (k, v) :: entries =>
      if k.sameKey key then (k, value) :: entries else (k, v) :: insertEntry key value entries

end Datum

/-- Why no datum could be read from a text. -/
inductive ReadFault where
  /-- The text breaks the rules of its form. -/
  | malformed (note : Text)
  /-- Anything else. -/
  | other (name note : Text)
  deriving Repr, DecidableEq

def ReadFault.message : ReadFault → Text
  | .malformed note | .other _ note => note

/-- How data are read and written. -/
structure Reader where
  /-- The datum that a text holds. -/
  read : Text → Except ReadFault Datum
  /-- How many levels of nesting can be written. -/
  depth : Nat

end QueueScript
