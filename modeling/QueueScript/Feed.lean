import QueueScript.Token.Lexer

/-! # Feeds

A feed hands out the tokens of a program one at a time. A `Cursor` reads the program as it
goes, and a `Tape` plays back tokens that were all read in advance. Once a feed has completed
it refuses to be resumed until it is reset.

`remaining` counts down with every token (`remaining_lt_of_resume`), so draining a feed ends.
-/

namespace QueueScript

/-- What resuming leads to: a token with the number of characters it takes, or the end. -/
inductive Step where
  | yielded (token : Token) (length : Nat)
  | completed (fault : Option Fault)
  deriving Repr, DecidableEq

/-- A feed that reads its program on demand. -/
structure Cursor where
  program : Text
  pos : Nat
  done : Bool
  deriving Repr, DecidableEq

/-- A feed that plays back tokens read in advance. -/
structure Tape where
  tokens : List (Token × Nat)
  pos : Nat
  done : Bool
  deriving Repr, DecidableEq

namespace Cursor

def ofProgram (program : Text) : Cursor :=
  ⟨program, 0, false⟩

def resume (c : Cursor) : Option (Step × Cursor) :=
  if c.done then none
  else
    match scan (c.program.drop c.pos) with
    | .ok (token, n) => some (.yielded token n, { c with pos := c.pos + n })
    | .error .empty => some (.completed none, { c with pos := c.program.length, done := true })
    | .error fault => some (.completed (some (.parse fault)), { c with done := true })

def reset (c : Cursor) : Cursor :=
  ofProgram c.program

end Cursor

namespace Tape

def ofProgram (program : Text) : Except ParseFault Tape :=
  (tokenize program).map fun tokens => ⟨tokens, 0, false⟩

def resume (t : Tape) : Option (Step × Tape) :=
  if t.done then none
  else
    match t.tokens[t.pos]? with
    | some (token, n) => some (.yielded token n, { t with pos := t.pos + 1 })
    | none => some (.completed none, { t with done := true })

def reset (t : Tape) : Tape :=
  { t with pos := 0, done := false }

end Tape

/-- A source of tokens. -/
inductive Feed where
  | cursor (cursor : Cursor)
  | tape (tape : Tape)
  deriving Repr, DecidableEq

namespace Feed

/-- A feed of a program, reading it in advance or on demand. Only reading in advance can
    fail here. -/
def ofProgram (inAdvance : Bool) (program : Text) : Except ParseFault Feed :=
  if inAdvance then (Tape.ofProgram program).map .tape
  else .ok (.cursor (.ofProgram program))

/-- The next step, or `none` after completion. -/
def resume : Feed → Option (Step × Feed)
  | .cursor c => c.resume.map fun (step, c) => (step, .cursor c)
  | .tape t => t.resume.map fun (step, t) => (step, .tape t)

def reset : Feed → Feed
  | .cursor c => .cursor c.reset
  | .tape t => .tape t.reset

/-- How far the feed has come: in characters for a cursor, in tokens for a tape. -/
def pos : Feed → Nat
  | .cursor c => c.pos
  | .tape t => t.pos

def done : Feed → Bool
  | .cursor c => c.done
  | .tape t => t.done

/-- An upper bound on the tokens still to come. -/
def remaining : Feed → Nat
  | .cursor c => c.program.length - c.pos
  | .tape t => t.tokens.length - t.pos

theorem remaining_lt_of_resume {f f' : Feed} {token : Token} {n : Nat}
    (h : f.resume = some (.yielded token n, f')) : f'.remaining < f.remaining := by
  cases f with
  | cursor c =>
      obtain ⟨⟨step, c'⟩, next, eq⟩ := Option.map_eq_some_iff.mp h
      simp only [Prod.mk.injEq] at eq
      obtain ⟨rfl, rfl⟩ := eq
      unfold Cursor.resume at next
      split at next
      · simp at next
      · split at next
        · rename_i found
          simp only [Option.some.injEq, Prod.mk.injEq, Step.yielded.injEq] at next
          obtain ⟨⟨rfl, rfl⟩, rfl⟩ := next
          have := pos_of_scan found
          have := le_length_of_scan found
          simp only [List.length_drop] at this
          simp only [remaining]
          omega
        · simp at next
        · simp at next
  | tape t =>
      obtain ⟨⟨step, t'⟩, next, eq⟩ := Option.map_eq_some_iff.mp h
      simp only [Prod.mk.injEq] at eq
      obtain ⟨rfl, rfl⟩ := eq
      unfold Tape.resume at next
      split at next
      · simp at next
      · split at next
        · rename_i found
          simp only [Option.some.injEq, Prod.mk.injEq, Step.yielded.injEq] at next
          obtain ⟨⟨rfl, rfl⟩, rfl⟩ := next
          obtain ⟨inside, -⟩ := List.getElem?_eq_some_iff.mp found
          simp only [remaining]
          omega
        · simp at next

/-- All tokens still to come, the fault after them if there is one, and the feed afterwards;
    `none` if the feed has completed before. -/
def drain (f : Feed) : Option (List (Token × Nat) × Option Fault × Feed) :=
  match _next : f.resume with
  | none => none
  | some (.completed fault, f') => some ([], fault, f')
  | some (.yielded token n, f') =>
      f'.drain.map fun (tokens, fault, f'') => ((token, n) :: tokens, fault, f'')
termination_by f.remaining
decreasing_by exact remaining_lt_of_resume _next

end Feed

end QueueScript
