import QueueScript.Document.Quoted
import QueueScript.Document.Plain

/-! # The marks of a document

A document is cut into marks: scalars, the signs between them, and marks that indentation alone
brings about. Whether a scalar or a collection is a key shows only at the colon after it, so the
scanner remembers where a key may begin (`Candidate`), and notes at the colon that one did
(`keys`). The marks themselves are only ever added to; `Scanner.finish` puts the key marks in.

Such a key must stand on one line and be at most `maxKeyLength` characters long. Where an entry of
a mapping has to begin, what stands there must turn out to be a key.
-/

namespace QueueScript.Document

inductive Mark where
  /-- A list begins whose items have dashes. -/
  | listStart
  /-- A mapping begins whose entries have lines. -/
  | mapStart
  /-- Such a list or mapping ends. -/
  | blockEnd
  | openList
  | closeList
  | openMap
  | closeMap
  /-- The dash before an item. -/
  | item
  | comma
  | key
  | colon
  | scalar (t : Text) (plain : Bool)
  /-- A name for what follows. -/
  | anchor
  /-- A tag that leaves the kind of what follows open. -/
  | openTag
  /-- Three dashes, before a document. -/
  | start
  /-- Three dots, after a document. -/
  | stop
  deriving Repr, DecidableEq

/-- A place where a key may have begun. -/
structure Candidate where
  /-- The number of marks before it. -/
  before : Nat
  /-- Whether nothing but a key may begin there. -/
  required : Bool
  index : Nat
  line : Nat
  column : Nat
  deriving Repr, DecidableEq

def maxKeyLength : Nat := 1024

/-- A document on the way to its marks. -/
structure Scanner where
  place : Place
  /-- The column of the innermost list or mapping; before the first of them `-1`. -/
  indent : Int := -1
  /-- The columns of the lists and mappings around it, innermost first. -/
  indents : List Int := []
  /-- Whether a key may begin here. -/
  keyAllowed : Bool := true
  candidate : Option Candidate := none
  /-- The candidates outside of each bracket or brace that is open, innermost first. -/
  outer : List (Option Candidate) := []
  /-- The marks so far, the last one first. -/
  marks : List Mark := []
  /-- The numbers of marks before each key, and whether the key begins a mapping. -/
  keys : List (Nat × Bool) := []
  deriving Repr, DecidableEq

namespace Scanner

/-- Whether a bracket or brace is open. -/
def inFlow (s : Scanner) : Bool :=
  !s.outer.isEmpty

def emit (s : Scanner) (mark : Mark) : Scanner :=
  { s with marks := mark :: s.marks }

def skip (s : Scanner) (n : Nat) : Scanner :=
  { s with place := s.place.skip n }

/-- The scanner at the next character that is neither gap nor comment. A new line outside of
    brackets and braces may begin with a key. -/
def toNext (s : Scanner) : Scanner :=
  match _found : lineBreak? s.place.skipComment.rest with
  | none => { s with place := s.place.skipComment }
  | some (_, more) =>
      toNext { s with
        place := s.place.skipComment.skip (more + 1), keyAllowed := s.keyAllowed || !s.inFlow }
termination_by s.place.rest.length
decreasing_by
  have some_left := length_pos_of_lineBreak? _found
  have shorter := s.place.length_skipComment_le
  simp only [Place.skip_rest, List.length_drop]
  omega

/-- Forgets the candidate, unless a key is required there. -/
def dropCandidate (s : Scanner) : Except DocumentFault Scanner :=
  if s.candidate.any (·.required) then .error .malformed else .ok { s with candidate := none }

/-- Whether a candidate can no longer be a key. -/
def isStale (s : Scanner) (c : Candidate) : Bool :=
  c.line != s.place.line || s.place.index - c.index > maxKeyLength

def dropStale (s : Scanner) : Except DocumentFault Scanner :=
  if (s.candidate :: s.outer).any fun c => c.any fun c => s.isStale c && c.required then
    .error .malformed
  else
    .ok { s with
      candidate := s.candidate.filter (!s.isStale ·)
      outer := s.outer.map (·.filter (!s.isStale ·)) }

/-- Notes that a key may begin here. -/
def saveCandidate (s : Scanner) : Except DocumentFault Scanner := do
  if s.keyAllowed then
    let s ← s.dropCandidate
    let p := s.place
    let required := !s.inFlow && s.indent == p.column
    return { s with candidate := some ⟨s.marks.length, required, p.index, p.line, p.column⟩ }
  else return s

/-- Ends the lists and mappings that are indented further than a column. -/
def endBlocks (column : Int) (indent : Int) : List Int → Int × List Int × Nat
  | [] => (indent, [], 0)
  | outer :: indents =>
      if indent > column then
        let (indent, indents, ended) := endBlocks column outer indents
        (indent, indents, ended + 1)
      else (indent, outer :: indents, 0)

/-- Ends the lists and mappings that are indented further than a column; inside of brackets and
    braces indentation means nothing. -/
def unwind (s : Scanner) (column : Int) : Scanner :=
  if s.inFlow then s
  else
    let (indent, indents, ended) := endBlocks column s.indent s.indents
    { s with indent, indents, marks := List.replicate ended .blockEnd ++ s.marks }

/-- The scanner inside a list or mapping at a column, and whether it begins there. -/
def indentTo (s : Scanner) (column : Int) : Scanner × Bool :=
  if s.indent < column then
    ({ s with indent := column, indents := s.indent :: s.indents }, true)
  else (s, false)

/-- Begins a list or mapping at this column with a mark, unless it has begun; outside of brackets
    and braces an item or key must be allowed here. -/
def openBlock (s : Scanner) (mark : Mark) : Except DocumentFault Scanner :=
  if s.inFlow then .ok s
  else if !s.keyAllowed then .error .malformed
  else
    match s.indentTo s.place.column with
    | (s, true) => .ok (s.emit mark)
    | (s, false) => .ok s

def separator (s : Scanner) (mark : Mark) : Except DocumentFault Scanner := do
  let s ← (s.unwind (-1)).dropCandidate
  return { (s.emit mark).skip 3 with keyAllowed := false }

def openFlow (s : Scanner) (mark : Mark) : Except DocumentFault Scanner := do
  let s ← s.saveCandidate
  return { (s.emit mark).skip 1 with
    candidate := none, outer := s.candidate :: s.outer, keyAllowed := true }

def closeFlow (s : Scanner) (mark : Mark) : Except DocumentFault Scanner := do
  let s ← s.dropCandidate
  match s.outer with
  | [] => .error .malformed
  | candidate :: outer => return { (s.emit mark).skip 1 with candidate, outer, keyAllowed := false }

def comma (s : Scanner) : Except DocumentFault Scanner := do
  let s ← s.dropCandidate
  return { (s.emit .comma).skip 1 with keyAllowed := true }

def item (s : Scanner) : Except DocumentFault Scanner := do
  let s ← s.openBlock .listStart
  let s ← { s with keyAllowed := true }.dropCandidate
  return (s.emit .item).skip 1

def questionMark (s : Scanner) : Except DocumentFault Scanner := do
  let s ← s.openBlock .mapStart
  let s ← { s with keyAllowed := !s.inFlow }.dropCandidate
  return (s.emit .key).skip 1

def colon (s : Scanner) : Except DocumentFault Scanner := do
  match s.candidate with
  | some c =>
      let (s, begins) := if s.inFlow then (s, false) else s.indentTo c.column
      return { (s.emit .colon).skip 1 with
        candidate := none, keyAllowed := false, keys := (c.before, begins) :: s.keys }
  | none =>
      let s ← s.openBlock .mapStart
      return { (s.emit .colon).skip 1 with keyAllowed := !s.inFlow }

/-- A letter or digit of ASCII, a dash or an underscore. -/
def isNameChar (c : Char) : Bool :=
  c.isAlphanum || c == '-' || c == '_'

def anchor (s : Scanner) : Except DocumentFault Scanner := do
  let s ← s.saveCandidate
  let name := (s.place.rest.drop 1).takeWhile isNameChar
  let s := (s.emit .anchor).skip (name.length + 1)
  let ends := s.place.rest.head?.all fun c => isGap c || "?:,]\x7d%@`".toList.contains c
  if name.isEmpty || !ends then .error .malformed else return { s with keyAllowed := false }

/-- A tag. Only the one that leaves the kind open has a content. -/
def tag (s : Scanner) : Except DocumentFault Scanner := do
  let s ← s.saveCandidate
  let s := (s.emit .openTag).skip 1
  if s.place.rest.head?.all fun c => c == ' ' || isBreak c then
    return { s with keyAllowed := false }
  else .error .malformed

def blockScalar (s : Scanner) (folded : Bool) : Except DocumentFault Scanner := do
  let s ← s.dropCandidate
  match blockScalar? folded s.indent s.place.next with
  | some (t, place) => return { s.emit (.scalar t false) with place, keyAllowed := true }
  | none => .error .malformed

def quotedScalar (s : Scanner) (mark : Char) : Except DocumentFault Scanner := do
  let s ← s.saveCandidate
  let (t, rest) ← quoted mark (s.place.rest.drop 1)
  return { (s.emit (.scalar t false)).skip (s.place.rest.length - rest.length) with
    keyAllowed := false }

def plainScalar (s : Scanner) : Except DocumentFault Scanner := do
  let s ← s.saveCandidate
  let (t, place, newLine) := plain s.inFlow (s.indent + 1) false s.place
  return { s.emit (.scalar t true) with place, keyAllowed := newLine }

/-- Whether a plain scalar may begin with a character. A dash may begin one if no gap follows,
    and so may a question mark and a colon outside of brackets and braces. -/
def startsPlain (inFlow : Bool) (c : Char) (rest : Text) : Bool :=
  if c == '-' then !gapFollows rest
  else if c == '?' || c == ':' then !gapFollows rest && !inFlow
  else !isGap c && !(",[]\x7b\x7d#&*!|>'\"%@`".toList.contains c)

/-- Reads the mark that begins with a character. -/
def fetch (s : Scanner) (c : Char) (rest : Text) : Except DocumentFault Scanner :=
  let first := s.place.column == 0
  let alone := gapFollows rest
  if first && c == '%' then .error .malformed
  else if first && startsSeparator (c :: rest) then s.separator (if c == '-' then .start else .stop)
  else if c == '[' then s.openFlow .openList
  else if c == '\x7b' then s.openFlow .openMap
  else if c == ']' then s.closeFlow .closeList
  else if c == '\x7d' then s.closeFlow .closeMap
  else if c == ',' then s.comma
  else if c == '-' && alone then s.item
  else if c == '?' && (s.inFlow || alone) then s.questionMark
  else if c == ':' && (s.inFlow || alone) then s.colon
  else if c == '&' then s.anchor
  else if c == '!' then s.tag
  else if (c == '|' || c == '>') && !s.inFlow then s.blockScalar (c == '>')
  else if c == '\'' || c == '"' then s.quotedScalar c
  else if startsPlain s.inFlow c rest then s.plainScalar
  else .error .malformed

/-- The marks with those of the keys put in. -/
def withKeys (marks : List Mark) (keys : List (Nat × Bool)) : List Mark :=
  marks.zipIdx.flatMap fun (mark, i) =>
    match keys.lookup i with
    | some true => [.mapStart, .key, mark]
    | some false => [.key, mark]
    | none => [mark]

/-- All marks, at the end of the document. -/
def finish (s : Scanner) : Except DocumentFault (List Mark) := do
  let s ← (s.unwind (-1)).dropCandidate
  if s.inFlow then .error .malformed else return withKeys s.marks.reverse s.keys

def run (s : Scanner) : Except DocumentFault (List Mark) := do
  let next ← s.toNext.dropStale
  let next := next.unwind next.place.column
  match next.place.rest with
  | [] => next.finish
  | c :: rest =>
      let after ← next.fetch c rest
      if after.place.rest.length < s.place.rest.length then after.run else .error .malformed
termination_by s.place.rest.length

end Scanner

/-- A character that a document may hold: not a control, and not a noncharacter below 10000. -/
def isAllowed (c : Char) : Bool :=
  let n := c.toNat
  n == 0x09 || n == 0x0a || n == 0x0d || (0x20 ≤ n && n ≤ 0x7e) || n == 0x85 ||
    (0xa0 ≤ n && n ≤ 0xfffd) || 0x10000 ≤ n

/-- The marks of a document. A byte order mark in front is skipped. -/
def marks (t : Text) : Except DocumentFault (List Mark) :=
  let place : Place := ⟨t, 0, 0, 0⟩
  if !t.all isAllowed then .error .malformed
  else Scanner.run { place := if t.head? == some '\ufeff' then place.next else place }

end QueueScript.Document
