import QueueScript.Feed

/-! # What a feed still hands out

The script of a feed is the list of tokens it will hand out until it completes, and the fault it
completes with. Resuming a feed takes the first token off its script, so two feeds with one script
cannot be told apart by resuming them. All feeds of a program begin with one script, whether they
read it in advance or on demand.
-/

namespace QueueScript

theorem tokenize_of_scan {t : Text} {token : Token} {n : Nat} (h : scan t = .ok (token, n)) :
    tokenize t = (tokenize (t.drop n)).map ((token, n) :: ·) := by
  rw [tokenize]
  split <;> simp_all

theorem tokenize_of_empty {t : Text} (h : scan t = .error .empty) : tokenize t = .ok [] := by
  rw [tokenize]
  split <;> simp_all

theorem tokenize_of_unknown {t text : Text} (h : scan t = .error (.unknownToken text)) :
    tokenize t = .error (.unknownToken text) := by
  rw [tokenize]
  split <;> simp_all

/-- A text of which the tokens can be read, and then no more: what is left of it fits no token. -/
inductive Unreadable : Text → List (Token × Nat) → Text → Prop where
  | here {t left : Text} : scan t = .error (.unknownToken left) → Unreadable t [] left
  | later {t left : Text} {token : Token} {n : Nat} {tokens : List (Token × Nat)} :
      scan t = .ok (token, n) → Unreadable (t.drop n) tokens left →
      Unreadable t ((token, n) :: tokens) left

theorem Unreadable.tokenize {t left : Text} {tokens : List (Token × Nat)}
    (h : Unreadable t tokens left) : tokenize t = .error (.unknownToken left) := by
  induction h with
  | here found => exact tokenize_of_unknown found
  | later found _ ih => rw [tokenize_of_scan found, ih, Except.map]

namespace Feed

/-- The tokens still to come and the fault after them; `none` once the feed has completed. -/
def script (f : Feed) : Option (List (Token × Nat) × Option Fault) :=
  f.drain.map fun (tokens, fault, _) => (tokens, fault)

/-- A feed that was made of a program, and then resumed and reset any number of times. -/
inductive Reachable (program : Text) : Feed → Prop where
  | start {inAdvance : Bool} {f : Feed} : ofProgram inAdvance program = .ok f → Reachable program f
  | resume {f f' : Feed} {step : Step} : Reachable program f → f.resume = some (step, f') →
      Reachable program f'
  | reset {f : Feed} : Reachable program f → Reachable program f.reset

theorem resume_cursor_cases {c : Cursor} {f' : Feed} {step : Step}
    (h : (cursor c).resume = some (step, f')) :
    c.done = false ∧
    ((∃ token n, scan (c.program.drop c.pos) = .ok (token, n) ∧
        step = .yielded token n ∧ f' = cursor { c with pos := c.pos + n }) ∨
      (scan (c.program.drop c.pos) = .error .empty ∧
        step = .completed none ∧ f' = cursor { c with pos := c.program.length, done := true }) ∨
      ∃ text, scan (c.program.drop c.pos) = .error (.unknownToken text) ∧
        step = .completed (some (.parse (.unknownToken text))) ∧
        f' = cursor { c with done := true }) := by
  obtain ⟨⟨step', c'⟩, next, same⟩ := Option.map_eq_some_iff.mp h
  cases same
  unfold Cursor.resume at next
  split at next
  · cases next
  · rename_i running
    refine ⟨by simpa using running, ?_⟩
    split at next
    · rename_i token n found
      cases next
      exact .inl ⟨token, n, found, rfl, rfl⟩
    · rename_i found
      cases next
      exact .inr (.inl ⟨found, rfl, rfl⟩)
    · rename_i fault notEmpty found
      cases next
      cases fault with
      | empty => exact absurd rfl notEmpty
      | unknownToken text => exact .inr (.inr ⟨text, found, rfl, rfl⟩)

theorem resume_tape_cases {t : Tape} {f' : Feed} {step : Step}
    (h : (tape t).resume = some (step, f')) :
    t.done = false ∧
    ((∃ token n, t.tokens[t.pos]? = some (token, n) ∧
        step = .yielded token n ∧ f' = tape { t with pos := t.pos + 1 }) ∨
      (t.tokens[t.pos]? = none ∧ step = .completed none ∧ f' = tape { t with done := true })) := by
  obtain ⟨⟨step', t'⟩, next, same⟩ := Option.map_eq_some_iff.mp h
  cases same
  unfold Tape.resume at next
  split at next
  · cases next
  · rename_i running
    refine ⟨by simpa using running, ?_⟩
    split at next
    · rename_i token n found
      cases next
      exact .inl ⟨token, n, found, rfl, rfl⟩
    · rename_i found
      cases next
      exact .inr ⟨found, rfl, rfl⟩

section Script

variable {f f' : Feed} {token : Token} {n : Nat} {tokens : List (Token × Nat)}
  {fault : Option Fault}

theorem script_of_exhausted (h : f.resume = none) : f.script = none := by
  rw [script, drain]
  split <;> simp_all

theorem script_of_completed (h : f.resume = some (.completed fault, f')) :
    f.script = some ([], fault) := by
  rw [script, drain]
  split <;> simp_all

theorem script_of_yielded (h : f.resume = some (.yielded token n, f')) :
    f.script = f'.script.map fun (tokens, fault) => ((token, n) :: tokens, fault) := by
  rw [script, drain]
  split
  · simp_all
  · simp_all
  · rename_i next
    rw [h] at next
    cases next
    simp only [script, Option.map_map]
    rfl

theorem resume_eq_none_iff : f.resume = none ↔ f.done = true := by
  cases f with
  | cursor c =>
      simp only [resume, Option.map_eq_none_iff, Cursor.resume, done]
      split
      · simp_all
      · split <;> simp_all
  | tape t =>
      simp only [resume, Option.map_eq_none_iff, Tape.resume, done]
      split
      · simp_all
      · split <;> simp_all

theorem done_of_completed (h : f.resume = some (.completed fault, f')) : f'.done = true := by
  cases f with
  | cursor c =>
      obtain ⟨-, ⟨_, _, _, ended, _⟩ | ⟨_, _, rfl⟩ | ⟨_, _, _, rfl⟩⟩ := resume_cursor_cases h
      · cases ended
      · rfl
      · rfl
  | tape t =>
      obtain ⟨-, ⟨_, _, _, ended, _⟩ | ⟨_, _, rfl⟩⟩ := resume_tape_cases h
      · cases ended
      · rfl

theorem done_of_yielded (h : f.resume = some (.yielded token n, f')) : f'.done = false := by
  cases f with
  | cursor c =>
      obtain ⟨running, ⟨_, _, _, _, rfl⟩ | ⟨_, ended, _⟩ | ⟨_, _, ended, _⟩⟩ :=
        resume_cursor_cases h
      · exact running
      · cases ended
      · cases ended
  | tape t =>
      obtain ⟨running, ⟨_, _, _, _, rfl⟩ | ⟨_, ended, _⟩⟩ := resume_tape_cases h
      · exact running
      · cases ended

theorem parse_of_completed {fault : Fault} (h : f.resume = some (.completed (some fault), f')) :
    ∃ text, fault = .parse (.unknownToken text) := by
  cases f with
  | cursor c =>
      obtain ⟨-, ⟨_, _, _, ended, _⟩ | ⟨_, ended, _⟩ | ⟨text, _, ended, _⟩⟩ := resume_cursor_cases h
      · cases ended
      · cases ended
      · cases ended
        exact ⟨text, rfl⟩
  | tape t =>
      obtain ⟨-, ⟨_, _, _, ended, _⟩ | ⟨_, ended, _⟩⟩ := resume_tape_cases h
      · cases ended
      · cases ended

theorem exists_script (running : f.done = false) :
    ∃ tokens fault, f.script = some (tokens, fault) := by
  fun_induction drain f with
  | case1 f exhausted => simp [resume_eq_none_iff.mp exhausted] at running
  | case2 f fault f' next => exact ⟨[], fault, script_of_completed next⟩
  | case3 f token n f' next ih =>
      obtain ⟨tokens, fault, later⟩ := ih (done_of_yielded next)
      exact ⟨_, _, by rw [script_of_yielded next, later]; rfl⟩

theorem script_eq_none_iff : f.script = none ↔ f.done = true := by
  constructor
  · intro h
    cases running : f.done with
    | true => rfl
    | false =>
        obtain ⟨tokens, fault, some⟩ := exists_script running
        rw [h] at some
        cases some
  · intro ended
    exact script_of_exhausted (resume_eq_none_iff.mpr ended)

theorem resume_of_script_nil (h : f.script = some ([], fault)) :
    ∃ f', f.resume = some (.completed fault, f') ∧ f'.script = none := by
  cases next : f.resume with
  | none => simp [script_of_exhausted next] at h
  | some result =>
      obtain ⟨step, f'⟩ := result
      cases step with
      | completed fault' =>
          rw [script_of_completed next] at h
          cases h
          exact ⟨f', rfl, script_eq_none_iff.mpr (done_of_completed next)⟩
      | yielded token n => simp [script_of_yielded next] at h

theorem resume_of_script_cons (h : f.script = some ((token, n) :: tokens, fault)) :
    ∃ f', f.resume = some (.yielded token n, f') ∧ f'.script = some (tokens, fault) := by
  cases next : f.resume with
  | none => simp [script_of_exhausted next] at h
  | some result =>
      obtain ⟨step, f'⟩ := result
      cases step with
      | completed fault' => simp [script_of_completed next] at h
      | yielded token' n' =>
          rw [script_of_yielded next] at h
          obtain ⟨⟨tokens', fault'⟩, later, same⟩ := Option.map_eq_some_iff.mp h
          cases same
          exact ⟨f', rfl, later⟩

/-- Feeds with one script take the same step, and have one script again. -/
theorem resume_of_same_script {g : Feed} {step : Step} (same : g.script = f.script)
    (next : f.resume = some (step, f')) :
    ∃ g', g.resume = some (step, g') ∧ g'.script = f'.script := by
  cases step with
  | completed fault =>
      rw [script_of_completed next] at same
      obtain ⟨g', next', ended⟩ := resume_of_script_nil same
      exact ⟨g', next', by rw [ended, script_eq_none_iff.mpr (done_of_completed next)]⟩
  | yielded token n =>
      obtain ⟨tokens, fault, later⟩ := exists_script (done_of_yielded next)
      rw [script_of_yielded next, later] at same
      obtain ⟨g', next', later'⟩ := resume_of_script_cons same
      exact ⟨g', next', by rw [later', later]⟩

end Script

/-! ## The script of a program -/

/-- The script of a cursor spells out the text in front of it: all of it if the script ends
    without a fault, or else what can be read before a text that fits no token. -/
theorem tokenize_of_script {tokens : List (Token × Nat)} {ending : Option Fault} {c : Cursor}
    (h : (cursor c).script = some (tokens, ending)) :
    (ending = none ∧ tokenize (c.program.drop c.pos) = .ok tokens) ∨
    ∃ left, ending = some (.parse (.unknownToken left)) ∧
      Unreadable (c.program.drop c.pos) tokens left := by
  induction tokens generalizing c with
  | nil =>
      obtain ⟨f', next, -⟩ := resume_of_script_nil h
      obtain ⟨-, ⟨_, _, _, ended, _⟩ | ⟨found, ended, _⟩ | ⟨left, found, ended, _⟩⟩ :=
        resume_cursor_cases next
      · cases ended
      · cases ended
        exact .inl ⟨rfl, tokenize_of_empty found⟩
      · cases ended
        exact .inr ⟨left, rfl, .here found⟩
  | cons first tokens ih =>
      obtain ⟨token, n⟩ := first
      obtain ⟨f', next, later⟩ := resume_of_script_cons h
      obtain ⟨-, ⟨_, _, found, yielded, rfl⟩ | ⟨_, yielded, _⟩ | ⟨_, _, yielded, _⟩⟩ :=
        resume_cursor_cases next
      · cases yielded
        have rest := ih later
        rw [← List.drop_drop] at rest
        obtain ⟨rfl, rest⟩ | ⟨left, rfl, rest⟩ := rest
        · exact .inl ⟨rfl, by rw [tokenize_of_scan found, rest]; rfl⟩
        · exact .inr ⟨left, rfl, .later found rest⟩
      · cases yielded
      · cases yielded

theorem script_tape {t : Tape} (running : t.done = false) :
    (tape t).script = some (t.tokens.drop t.pos, none) := by
  obtain ⟨tokens, ending, h⟩ := exists_script (f := tape t) running
  rw [h]
  induction tokens generalizing t with
  | nil =>
      obtain ⟨f', next, -⟩ := resume_of_script_nil h
      obtain ⟨-, ⟨_, _, _, ended, _⟩ | ⟨found, ended, _⟩⟩ := resume_tape_cases next
      · cases ended
      · cases ended
        rw [List.drop_eq_nil_of_le (List.getElem?_eq_none_iff.mp found)]
  | cons first tokens ih =>
      obtain ⟨token, n⟩ := first
      obtain ⟨f', next, later⟩ := resume_of_script_cons h
      obtain ⟨-, ⟨_, _, found, yielded, rfl⟩ | ⟨_, yielded, _⟩⟩ := resume_tape_cases next
      · cases yielded
        obtain ⟨inside, here⟩ := List.getElem?_eq_some_iff.mp found
        have rest := ih (t := { t with pos := t.pos + 1 }) running later
        simp only [Option.some.injEq, Prod.mk.injEq] at rest ⊢
        rw [List.drop_eq_getElem_cons inside, here, ← rest.1]
        exact ⟨rfl, rest.2⟩
      · cases yielded

theorem ofProgram_inAdvance {program : Text} {f : Feed} (h : ofProgram true program = .ok f) :
    ∃ tokens, tokenize program = .ok tokens ∧ f = tape ⟨tokens, 0, false⟩ := by
  cases read : tokenize program with
  | error fault => simp [ofProgram, Tape.ofProgram, read, Except.map] at h
  | ok tokens =>
      simp only [ofProgram, Tape.ofProgram, read, Except.map, if_true] at h
      cases h
      exact ⟨tokens, rfl, rfl⟩

theorem exists_ofProgram {program : Text} {tokens : List (Token × Nat)}
    (h : tokenize program = .ok tokens) (inAdvance : Bool) :
    ∃ f, ofProgram inAdvance program = .ok f := by
  cases inAdvance with
  | false => exact ⟨_, rfl⟩
  | true => exact ⟨tape ⟨tokens, 0, false⟩, by simp [ofProgram, Tape.ofProgram, h, Except.map]⟩

/-- A cursor over the program, or a tape of its tokens. -/
def Plays (program : Text) : Feed → Prop
  | .cursor c => c.program = program
  | .tape t => tokenize program = .ok t.tokens

theorem Reachable.plays {program : Text} {f : Feed} (h : Reachable program f) :
    f.Plays program := by
  induction h with
  | @start inAdvance f made =>
      cases inAdvance with
      | false =>
          cases made
          rfl
      | true =>
          obtain ⟨tokens, read, rfl⟩ := ofProgram_inAdvance made
          exact read
  | @resume f f' step _ next ih =>
      cases f with
      | cursor c =>
          obtain ⟨-, ⟨_, _, _, _, rfl⟩ | ⟨_, _, rfl⟩ | ⟨_, _, _, rfl⟩⟩ := resume_cursor_cases next
          all_goals exact ih
      | tape t =>
          obtain ⟨-, ⟨_, _, _, _, rfl⟩ | ⟨_, _, rfl⟩⟩ := resume_tape_cases next
          all_goals exact ih
  | @reset f _ ih => cases f <;> exact ih

theorem script_ofProgram_of_ok {program : Text} {tokens : List (Token × Nat)}
    (h : tokenize program = .ok tokens) :
    (cursor (.ofProgram program)).script = some (tokens, none) := by
  obtain ⟨tokens', ending, script⟩ := exists_script (f := cursor (.ofProgram program)) rfl
  obtain ⟨rfl, same⟩ | ⟨left, -, unreadable⟩ := tokenize_of_script script
  · rw [Cursor.ofProgram, List.drop_zero, h] at same
    cases same
    exact script
  · have same := unreadable.tokenize
    rw [Cursor.ofProgram, List.drop_zero, h] at same
    cases same

/-- Reading a program on demand hands out the tokens in front of what cannot be read. -/
theorem script_ofProgram_of_error {program : Text} {fault : ParseFault}
    (h : tokenize program = .error fault) :
    ∃ tokens left, fault = .unknownToken left ∧ Unreadable program tokens left ∧
      (cursor (.ofProgram program)).script = some (tokens, some (.parse fault)) := by
  obtain ⟨tokens, ending, script⟩ := exists_script (f := cursor (.ofProgram program)) rfl
  obtain ⟨-, same⟩ | ⟨left, rfl, unreadable⟩ := tokenize_of_script script
  · rw [Cursor.ofProgram, List.drop_zero, h] at same
    cases same
  · rw [Cursor.ofProgram, List.drop_zero] at unreadable
    have same := unreadable.tokenize
    rw [h] at same
    cases same
    exact ⟨tokens, left, rfl, unreadable, script⟩

theorem script_ofProgram {inAdvance : Bool} {program : Text} {f : Feed}
    (h : ofProgram inAdvance program = .ok f) :
    f.script = (cursor (.ofProgram program)).script := by
  cases inAdvance with
  | false =>
      cases h
      rfl
  | true =>
      obtain ⟨tokens, read, rfl⟩ := ofProgram_inAdvance h
      rw [script_tape rfl, script_ofProgram_of_ok read, List.drop_zero]

theorem drain_ofProgram_of_ok {program : Text} {tokens : List (Token × Nat)}
    (h : tokenize program = .ok tokens) (inAdvance : Bool) :
    ∃ f f', ofProgram inAdvance program = .ok f ∧ f.drain = some (tokens, none, f') := by
  obtain ⟨f, made⟩ := exists_ofProgram h inAdvance
  have script := script_ofProgram made
  rw [script_ofProgram_of_ok h] at script
  obtain ⟨⟨_, _, f'⟩, drained, same⟩ := Option.map_eq_some_iff.mp script
  cases same
  exact ⟨f, f', made, drained⟩

end Feed

end QueueScript
