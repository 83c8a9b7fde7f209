import QueueScript.Text.Basic

/-! # Lines

Three notions of a line are in use, and each has its own function:

* `lines` cuts at every character that a terminal shows as a line break. Excerpts use it.
* `lineCol` counts line feeds only. Reported locations use it.
* `readLine?` takes one line of an input stream, ended by a line feed only.

`unifyBreaks` is applied to the text of a file: every line end becomes a line feed.
-/

namespace QueueScript.Text

/-- A character that ends a line on a terminal: line feed, vertical tab, form feed, carriage
    return, the three information separators, next line, and the Unicode line and paragraph
    separators. -/
def isLineBreak (c : Char) : Bool :=
  c == '\n' || c == '\x0b' || c == '\x0c' || c == '\r' || c == '\x1c' || c == '\x1d' ||
    c == '\x1e' || c == '\u0085' || c == '\u2028' || c == '\u2029'

/-- The lines of a text. A carriage return with the line feed after it is one break, and a
    break at the end opens no further line. -/
def lines : Text → List Text
  | [] => []
  | '\r' :: '\n' :: rest => [] :: lines rest
  | c :: rest =>
      if isLineBreak c then [] :: lines rest
      else
        match lines rest with
        | [] => [[c]]
        | line :: more => (c :: line) :: more

/-- The line and column of an offset, both counted from 1. Lines end at line feeds; an offset
    past the end keeps counting columns on the last line. -/
def lineCol (t : Text) (offset : Int) : Nat × Int :=
  let before := t.upTo offset
  let lineStart := before.length - (before.reverse.takeWhile (· != '\n')).length
  (before.count '\n' + 1, offset - lineStart + 1)

/-- The first line of a stream, without its line feed, and what follows; `none` at the end. A
    last line needs no line feed. -/
def readLine? : Text → Option (Text × Text)
  | [] => none
  | t => some (t.takeWhile (· != '\n'), (t.dropWhile (· != '\n')).drop 1)

/-- The text with every carriage return, alone or before a line feed, made a line feed. -/
def unifyBreaks : Text → Text
  | [] => []
  | '\r' :: '\n' :: rest => '\n' :: unifyBreaks rest
  | '\r' :: rest => '\n' :: unifyBreaks rest
  | c :: rest => c :: unifyBreaks rest

theorem length_lt_of_readLine? {t line rest : Text} (h : readLine? t = some (line, rest)) :
    rest.length < t.length := by
  cases t with
  | nil => simp [readLine?] at h
  | cons c tail =>
      simp only [readLine?, Option.some.injEq, Prod.mk.injEq] at h
      obtain ⟨-, rfl⟩ := h
      have le := (List.dropWhile_suffix (l := c :: tail) (· != '\n')).length_le
      simp only [List.length_drop, List.length_cons] at le ⊢
      omega

end QueueScript.Text
