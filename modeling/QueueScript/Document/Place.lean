import QueueScript.Document.Fault

/-! # Places in a document

A place is what is left of a document, together with the index, line and column at which that
begins. The first part of this module says which characters end a line and which separate.
-/

namespace QueueScript.Document

def isBreak (c : Char) : Bool :=
  c == '\n' || c == '\r' || c == '\u0085' || c == '\u2028' || c == '\u2029'

/-- A space or a tab. -/
def isPad (c : Char) : Bool :=
  c == ' ' || c == '\t'

/-- A character that separates. -/
def isGap (c : Char) : Bool :=
  isPad c || isBreak c

/-- Whether a text begins with a gap, or is at its end. -/
def gapFollows (t : Text) : Bool :=
  t.head?.all isGap

/-- Whether a text begins with three dashes or three dots that stand alone: what separates
    documents, at the start of a line. -/
def startsSeparator (t : Text) : Bool :=
  (t.take 3 == ['-', '-', '-'] || t.take 3 == ['.', '.', '.']) && gapFollows (t.drop 3)

/-- The line break at the front of a text, if there is one: the character it counts as, and how
    many characters it has after the first. All but the two Unicode separators count as a line
    feed. -/
def lineBreak? : Text → Option (Char × Nat)
  | '\r' :: '\n' :: _ => some ('\n', 1)
  | c :: _ =>
      if c == '\u2028' || c == '\u2029' then some (c, 0)
      else if isBreak c then some ('\n', 0)
      else none
  | [] => none

/-- What stands for a line break and the empty lines after it inside a scalar: a space for one
    line feed, and the further breaks otherwise. -/
def fold (first : Char) (more : Text) : Text :=
  if first != '\n' then first :: more
  else if more.isEmpty then [' ']
  else more

theorem length_pos_of_lineBreak? {t : Text} {found : Char × Nat} (h : lineBreak? t = some found) :
    0 < t.length := by
  cases t with
  | nil => simp [lineBreak?] at h
  | cons c rest => simp

structure Place where
  rest : Text
  index : Nat
  line : Nat
  column : Nat
  deriving Repr, DecidableEq

namespace Place

/-- The place one character further on. A byte order mark has no width. -/
def next (p : Place) : Place :=
  match p.rest with
  | [] => p
  | c :: rest =>
      if isBreak c && !(c == '\r' && rest.head? == some '\n') then
        ⟨rest, p.index + 1, p.line + 1, 0⟩
      else ⟨rest, p.index + 1, p.line, if c == '\ufeff' then p.column else p.column + 1⟩

def skip (p : Place) : Nat → Place
  | 0 => p
  | n + 1 => p.next.skip n

def skipWhile (p : Place) (f : Char → Bool) : Place :=
  p.skip (p.rest.takeWhile f).length

@[simp]
theorem next_rest (p : Place) : p.next.rest = p.rest.drop 1 := by
  unfold next
  split
  · simp_all
  · split <;> simp_all

@[simp]
theorem skip_rest (p : Place) (n : Nat) : (p.skip n).rest = p.rest.drop n := by
  induction n generalizing p with
  | zero => rfl
  | succ n ih => simp [skip, ih]

theorem length_skipWhile_le (p : Place) (f : Char → Bool) :
    (p.skipWhile f).rest.length ≤ p.rest.length := by
  simp [skipWhile]

def skipSpaces (p : Place) : Place :=
  p.skipWhile (· == ' ')

theorem length_skipSpaces_le (p : Place) : p.skipSpaces.rest.length ≤ p.rest.length :=
  p.length_skipWhile_le (· == ' ')

def skipComment (p : Place) : Place :=
  if p.skipSpaces.rest.head? == some '#' then p.skipSpaces.skipWhile (!isBreak ·)
  else p.skipSpaces

theorem length_skipComment_le (p : Place) : p.skipComment.rest.length ≤ p.rest.length := by
  unfold skipComment
  split
  · exact Nat.le_trans (length_skipWhile_le ..) p.length_skipSpaces_le
  · exact p.length_skipSpaces_le

def skipBreak (p : Place) : Place :=
  match lineBreak? p.rest with
  | some (_, more) => p.skip (more + 1)
  | none => p

end Place

end QueueScript.Document
