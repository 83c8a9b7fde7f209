import QueueScript.Document.Place

/-! # Plain scalars and scalars in blocks

A plain scalar stands without quotes. It ends at a comment, at a colon that a gap follows, and,
inside brackets or braces, at the marks of these; it may go on over lines that are indented far
enough. A scalar in a block has the lines below its header, which tells whether they are folded
and what becomes of the breaks at the end.
-/

namespace QueueScript.Document

def isFlowMark (c : Char) : Bool :=
  c == ',' || c == '[' || c == ']' || c == '\x7b' || c == '\x7d'

/-- How many characters at the front of a text belong to a plain scalar. -/
def plainRun (inFlow : Bool) : Text → Nat
  | [] => 0
  | c :: rest =>
      let colonEnds := gapFollows rest || (inFlow && rest.head?.any isFlowMark)
      if isGap c || (c == ':' && colonEnds) || (inFlow && (isFlowMark c || c == '?')) then 0
      else plainRun inFlow rest + 1

/-- The breaks of empty lines and the place of the next text; no breaks are given at a separator
    of documents. -/
def blankLines (p : Place) : Option Text × Place :=
  match _found : lineBreak? p.skipSpaces.rest with
  | none => (some [], p.skipSpaces)
  | some (c, more) =>
      if startsSeparator (p.skipSpaces.skip (more + 1)).rest then
        (none, p.skipSpaces.skip (more + 1))
      else
        let (breaks, place) := blankLines (p.skipSpaces.skip (more + 1))
        (breaks.map (c :: ·), place)
termination_by p.rest.length
decreasing_by
  have some_left := length_pos_of_lineBreak? _found
  have shorter := p.length_skipSpaces_le
  simp only [Place.skip_rest, List.length_drop]
  omega

theorem length_blankLines_le (p : Place) : (blankLines p).2.rest.length ≤ p.rest.length := by
  fun_induction blankLines p with
  | case1 p => exact p.length_skipSpaces_le
  | case2 p =>
      have := p.length_skipSpaces_le
      simp only [Place.skip_rest, List.length_drop]
      omega
  | case3 p =>
      rename_i ih
      have := p.length_skipSpaces_le
      simp_all only [Place.skip_rest, List.length_drop]
      omega

/-- What stands between two runs of a plain scalar. -/
structure PlainGap where
  /-- What it counts as; `none` where the scalar ends. -/
  text : Option Text
  place : Place
  /-- Whether a new line has begun. -/
  newLine : Bool

/-- The gap at a place inside a plain scalar. -/
def plainGap (p : Place) : PlainGap :=
  match lineBreak? p.skipSpaces.rest with
  | none =>
      let pad := p.rest.takeWhile (· == ' ')
      ⟨if pad.isEmpty then none else some pad, p.skipSpaces, false⟩
  | some (c, more) =>
      if startsSeparator (p.skipSpaces.skip (more + 1)).rest then
        ⟨none, p.skipSpaces.skip (more + 1), true⟩
      else
        let (breaks, place) := blankLines (p.skipSpaces.skip (more + 1))
        ⟨breaks.map (fold c), place, true⟩

theorem length_plainGap_le (p : Place) : (plainGap p).place.rest.length ≤ p.rest.length := by
  have first := p.length_skipSpaces_le
  unfold plainGap
  split
  · exact first
  · split
    · simp only [Place.skip_rest, List.length_drop]
      omega
    · refine Nat.le_trans (length_blankLines_le _) ?_
      simp only [Place.skip_rest, List.length_drop]
      omega

/-- A plain scalar from a place on, the place after it, and whether that is on a new line. Outside
    of brackets and braces the lines of the scalar are indented by `indent` at least. `newLine`
    tells whether the place is on a new line itself. -/
def plain (inFlow : Bool) (indent : Int) (newLine : Bool) (p : Place) : Text × Place × Bool :=
  match _run : plainRun inFlow p.rest with
  | 0 => ([], p, newLine)
  | n + 1 =>
      let run := p.rest.take (n + 1)
      match _gap : plainGap (p.skip (n + 1)) with
      | ⟨none, place, newLine⟩ => (run, place, newLine)
      | ⟨some between, place, newLine⟩ =>
          if place.rest.head? == some '#' || (!inFlow && place.column < indent) then
            (run, place, newLine)
          else
            match plain inFlow indent newLine place with
            | ([], place, newLine) => (run, place, newLine)
            | (more, place, newLine) => (run ++ between ++ more, place, newLine)
termination_by p.rest.length
decreasing_by
  have shorter := length_plainGap_le (p.skip (n + 1))
  rw [_gap] at shorter
  simp only [Place.skip_rest, List.length_drop] at shorter
  have some_left : 0 < p.rest.length := by
    rcases List.eq_nil_or_concat p.rest with empty | ⟨_, _, full⟩
    · simp [empty, plainRun] at _run
    · simp [full]
  omega

/-- What becomes of the breaks at the end of a block. -/
inductive Chomping where
  /-- One is kept. -/
  | clip
  /-- None is kept. -/
  | strip
  /-- All are kept. -/
  | keep
  deriving Repr, DecidableEq

/-- A sign for the breaks at the end. -/
def chomping? : Char → Option Chomping
  | '+' => some .keep
  | '-' => some .strip
  | _ => none

/-- A digit for the indentation, which is not zero. -/
def increment? (c : Char) : Option Nat :=
  if '1' ≤ c ∧ c ≤ '9' then some (c.toNat - '0'.toNat) else none

/-- The header of a block, after its first character: the two signs in either order, and how
    many characters they take. -/
def blockHeader (t : Text) : Chomping × Option Nat × Nat :=
  match t.head?.bind chomping?, t.head?.bind increment? with
  | some chomping, _ =>
      match (t.drop 1).head?.bind increment? with
      | some n => (chomping, some n, 2)
      | none => (chomping, none, 1)
  | none, some n =>
      match (t.drop 1).head?.bind chomping? with
      | some chomping => (chomping, some n, 2)
      | none => (.clip, some n, 1)
  | none, none => (.clip, none, 0)

/-- The breaks of empty lines before the first line of a block, the place of that line, and the
    widest indentation on the way. -/
def blockStart (widest : Nat) (p : Place) : Text × Place × Nat :=
  let widest := if p.rest.head? == some ' ' then max widest p.skipSpaces.column else widest
  match _found : lineBreak? p.skipSpaces.rest with
  | none => ([], p.skipSpaces, widest)
  | some (c, more) =>
      let (breaks, place, widest) := blockStart widest (p.skipSpaces.skip (more + 1))
      (c :: breaks, place, widest)
termination_by p.rest.length
decreasing_by
  have some_left := length_pos_of_lineBreak? _found
  have shorter := p.length_skipSpaces_le
  simp only [Place.skip_rest, List.length_drop]
  omega

/-- The place after the indentation of a line, which may be narrower. -/
def skipIndent (indent : Nat) (p : Place) : Place :=
  p.skip (min (indent - p.column) (p.rest.takeWhile (· == ' ')).length)

/-- The breaks of empty lines inside a block, and the place of the next line. -/
def blockBreaks (indent : Nat) (p : Place) : Text × Place :=
  match _found : lineBreak? (skipIndent indent p).rest with
  | none => ([], skipIndent indent p)
  | some (c, more) =>
      let (breaks, place) := blockBreaks indent ((skipIndent indent p).skip (more + 1))
      (c :: breaks, place)
termination_by p.rest.length
decreasing_by
  have some_left := length_pos_of_lineBreak? _found
  simp only [skipIndent, Place.skip_rest, List.length_drop] at some_left ⊢
  omega

theorem length_blockBreaks_le (indent : Nat) (p : Place) :
    (blockBreaks indent p).2.rest.length ≤ p.rest.length := by
  fun_induction blockBreaks indent p with
  | case1 p =>
      simp only [skipIndent, Place.skip_rest, List.length_drop]
      omega
  | case2 p =>
      rename_i ih
      simp_all only [skipIndent, Place.skip_rest, List.length_drop]
      omega

/-- The lines of a block, the break after the last of them, the further breaks, and the place
    after all of these. The breaks before the first line are given. -/
def blockLines (folded : Bool) (indent : Nat) (breaks : Text) (p : Place) :
    Text × Text × Text × Place :=
  if p.column = indent ∧ !p.rest.isEmpty then
    let line := p.rest.takeWhile (!isBreak ·)
    match _found : lineBreak? (p.skip line.length).rest with
    | none => (breaks ++ line, [], [], p.skip line.length)
    | some (c, more) =>
        match _next : blockBreaks indent (p.skip (line.length + more + 1)) with
        | (following, r) =>
            if r.column = indent ∧ !r.rest.isEmpty then
              let joins := folded && c == '\n' && !(line.head?.any isPad) && !(r.rest.head?.any isPad)
              let between := if joins then (if following.isEmpty then [' '] else []) else [c]
              let (t, ending) := blockLines folded indent following r
              (breaks ++ line ++ between ++ t, ending)
            else (breaks ++ line, [c], following, r)
  else ([], [], breaks, p)
termination_by p.rest.length
decreasing_by
  have some_left := length_pos_of_lineBreak? _found
  have shorter := length_blockBreaks_le indent (p.skip (line.length + more + 1))
  rw [_next] at shorter
  simp only [Place.skip_rest, List.length_drop] at some_left shorter
  omega

/-- The place after the header line of a block, if there is nothing else on the line but a
    comment. -/
def afterHeader? (p : Place) : Option Place :=
  if p.rest.head?.all fun c => c == ' ' || isBreak c then
    if p.skipComment.rest.head?.all isBreak then some p.skipComment.skipBreak else none
  else none

/-- A scalar in a block, from its header on without the first character; the collection around
    it is indented by `outer`. -/
def blockScalar? (folded : Bool) (outer : Int) (p : Place) : Option (Text × Place) := do
  let (chomping, increment, taken) := blockHeader p.rest
  let p ← afterHeader? (p.skip taken)
  let least := max (outer + 1) 1 |>.toNat
  let (breaks, indent, p) :=
    match increment with
    | none =>
        let (breaks, p, widest) := blockStart 0 p
        (breaks, max least widest, p)
    | some n =>
        let indent := least + n - 1
        let (breaks, p) := blockBreaks indent p
        (breaks, indent, p)
  let (t, last, following, p) := blockLines folded indent breaks p
  match chomping with
  | .strip => return (t, p)
  | .clip => return (t ++ last, p)
  | .keep => return (t ++ last ++ following, p)

end QueueScript.Document
