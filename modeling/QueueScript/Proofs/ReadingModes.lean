import QueueScript.Batch
import QueueScript.Proofs.Kinds

/-! # Reading in advance and reading on demand

A program that can be read runs the same way in both modes: two runs that differ in their feeds only
stay so as long as the feeds have one script, and they answer every step alike. A program that
cannot be read to its end is refused at once in the one mode. In the other its readable tokens are
executed first, so that a fault of theirs may come before the one of the text.
-/

namespace QueueScript.Run

/-- The second run is the first one with another feed, which has the same script. -/
def Alike (r s : Run) : Prop :=
  ∃ g : Feed, s = { r with feed := g } ∧ g.script = r.feed.script

/-- Resumes a run a number of times. The answers are in order, with `none` where the run refused,
    which changes nothing. -/
def resumeMany (r : Run) (m : Machine) : Nat → List (Option Answer) × Run × Machine
  | 0 => ([], r, m)
  | k + 1 =>
      match r.resume m with
      | none =>
          let (answers, r, m) := r.resumeMany m k
          (none :: answers, r, m)
      | some (found, r, m) =>
          let (answers, r, m) := r.resumeMany m k
          (some found :: answers, r, m)

theorem Alike.resume {r s : Run} (h : r.Alike s) (m : Machine) :
    (r.resume m = none ∧ s.resume m = none) ∨
    ∃ found r' s' m', r.resume m = some (found, r', m') ∧ s.resume m = some (found, s', m') ∧
      r'.Alike s' := by
  obtain ⟨g, rfl, script⟩ := h
  by_cases ended : r.result.isSome = true
  · exact .inl ⟨resume_of_ended ended m, resume_of_ended (r := { r with feed := g }) ended m⟩
  · have running : r.result = none := by simpa using ended
    cases next : r.feed.resume with
    | none =>
        have done : g.resume = none := by
          rw [Feed.resume_eq_none_iff, ← Feed.script_eq_none_iff, script]
          exact Feed.script_of_exhausted next
        exact .inl ⟨by simp [Run.resume, next], by simp [Run.resume, done]⟩
    | some result =>
        obtain ⟨step, f'⟩ := result
        obtain ⟨g', next', later⟩ := Feed.resume_of_same_script script next
        right
        cases step with
        | completed fault =>
            have first := resume_of_completed running next m
            have second := resume_of_completed (r := { r with feed := g }) running next' m
            cases fault with
            | none => exact ⟨_, _, _, _, first, second, g', rfl, later⟩
            | some fault => exact ⟨_, _, _, _, first, second, g', rfl, later⟩
        | yielded token n =>
            obtain ⟨outcome, args, m', effect, first⟩ := resume_of_yielded running next m
            obtain ⟨outcome', args', m'', effect', second⟩ :=
              resume_of_yielded (r := { r with feed := g }) running next' m
            -- Over a common feed, both runs execute the token in one and the same way.
            have same := (effect f').symm.trans (effect' f')
            simp only [Prod.mk.injEq, Run.mk.injEq, true_and, and_true] at same
            obtain ⟨rfl, rfl, rfl⟩ := same
            exact ⟨_, _, _, _, first, second, g', rfl, later⟩

theorem Alike.resumeMany {r s : Run} (h : r.Alike s) (m : Machine) (k : Nat) :
    ∃ answers r' s' m', r.resumeMany m k = (answers, r', m') ∧
      s.resumeMany m k = (answers, s', m') ∧ r'.Alike s' := by
  induction k generalizing r s m with
  | zero => exact ⟨[], r, s, m, rfl, rfl, h⟩
  | succ k ih =>
      obtain ⟨first, second⟩ | ⟨found, r', s', m', first, second, later⟩ := h.resume m
      · obtain ⟨answers, r', s', m', left, right, alike⟩ := ih h m
        refine ⟨none :: answers, r', s', m', ?_, ?_, alike⟩
        · simp only [Run.resumeMany, first, left]
        · simp only [Run.resumeMany, second, right]
      · obtain ⟨answers, r'', s'', m'', left, right, alike⟩ := ih later m'
        refine ⟨some found :: answers, r'', s'', m'', ?_, ?_, alike⟩
        · simp only [Run.resumeMany, first, left]
        · simp only [Run.resumeMany, second, right]

theorem start_of_feed {program : Text} {inAdvance : Bool} {feed : Feed}
    (made : Feed.ofProgram inAdvance program = .ok feed) (args : Option (List Text))
    (interactive : Bool) :
    start program inAdvance args interactive =
      .ok ⟨program, feed, args, interactive, 0, ⟨program, 0, 0⟩, none⟩ := by
  simp [start, made, Except.map]

theorem start_inAdvance_of_error {program : Text} {fault : ParseFault}
    (h : tokenize program = .error fault) (args : Option (List Text)) (interactive : Bool) :
    start program true args interactive = .error fault := by
  simp [start, Feed.ofProgram, Tape.ofProgram, h, Except.map]

theorem runProgram_inAdvance_of_error {program : Text} {fault : ParseFault}
    (h : tokenize program = .error fault) (m : Machine) (inputs : List Text) :
    m.runProgram program inputs true =
      (.failure (.parse fault) (fault.span program), m.logUnreadable program) := by
  simp only [Machine.runProgram, start_inAdvance_of_error h]

theorem exists_start {program : Text} {tokens : List (Token × Nat)}
    (h : tokenize program = .ok tokens) (args : Option (List Text)) (interactive : Bool) :
    ∃ lazy eager, start program false args interactive = .ok lazy ∧
      start program true args interactive = .ok eager ∧ lazy.Alike eager := by
  obtain ⟨feed, made⟩ := Feed.exists_ofProgram h true
  exact ⟨_, _, start_of_feed rfl args interactive, start_of_feed made args interactive,
    feed, rfl, Feed.script_ofProgram made⟩

theorem runProgram_inAdvance {program : Text} {tokens : List (Token × Nat)}
    (h : tokenize program = .ok tokens) (m : Machine) (inputs : List Text) :
    m.runProgram program inputs true = m.runProgram program inputs false := by
  obtain ⟨feed, made⟩ := Feed.exists_ofProgram h true
  have onDemand : Feed.ofProgram false program = .ok (.cursor (.ofProgram program)) := rfl
  have script := Feed.script_ofProgram_of_ok h
  simp only [Machine.runProgram, start_of_feed made, start_of_feed onDemand]
  generalize (if inputs.isEmpty = true then none else some inputs.reverse) = args
  -- Both runs perform the same tokens, so they end alike up to the feed.
  let begun : Run := ⟨program, feed, args, false, 0, ⟨program, 0, 0⟩, none⟩
  obtain ⟨f₁, eager⟩ := finish_of_script ((Feed.script_ofProgram made).trans script) begun rfl m
  obtain ⟨f₂, lazy⟩ := finish_of_script script begun rfl m
  simp only [begun] at eager lazy
  rw [eager, lazy]

theorem perform_kept (r : Run) (m : Machine) (tokens : List (Token × Nat)) :
    (r.perform m tokens).2.1.program = r.program ∧
      (r.perform m tokens).2.1.interactive = r.interactive := by
  induction tokens generalizing r m with
  | nil => exact ⟨rfl, rfl⟩
  | cons first tokens ih =>
      obtain ⟨token, n⟩ := first
      obtain ⟨outcome, args, m', effect⟩ :=
        exec_effect { r with span := ⟨r.program, r.offset, n⟩ } token m
      have here := effect r.feed
      simp only at here
      simp only [perform, here]
      cases outcome with
      | ok _ => exact ih _ m'
      | error fault => exact ⟨rfl, rfl⟩

/-- A run whose script ends with a fault gives the fault of a token if there is one, and the fault
    of its script only if all its tokens succeed. -/
theorem finish_of_unreadable {r : Run} {tokens : List (Token × Nat)} {fault : Fault}
    (script : r.feed.script = some (tokens, some fault)) (running : r.result = none) (m : Machine) :
    ∃ feed, r.finish m =
      match r.perform m tokens with
      | (some early, s, m') =>
          some (some early, { s with feed := feed, result := resultOf (.error early) }, m')
      | (none, s, m') =>
          some (some fault,
            { s with
              feed := feed
              span := ⟨r.program, s.offset, r.program.length - s.offset⟩
              result := some (some fault) },
            m'.logMismatch r.program s.offset) := by
  obtain ⟨feed, ended⟩ := finish_of_script script r running m
  obtain ⟨kept, -⟩ := perform_kept r m tokens
  refine ⟨feed, ended.trans ?_⟩
  cases performed : r.perform m tokens with
  | mk outcome rest =>
      obtain ⟨s, m'⟩ := rest
      rw [performed] at kept
      simp only at kept
      cases outcome with
      | some early => rfl
      | none => simp only [conclude, kept]

/-- A text without tokens is never reported as empty: it ends a run without a fault. -/
theorem resume_ne_empty {r r' : Run} {m m' : Machine} {found : Answer}
    (h : r.resume m = some (found, r', m')) : found.stop ≠ some (some (.parse .empty)) := by
  intro stopped
  obtain ⟨_, same⟩ | ⟨_, _, _, ⟨_, same, _⟩ | unseen⟩ := fault_cases h stopped
  · cases same
  · cases same
  · exact unseen

theorem start_ne_empty {program : Text} {inAdvance interactive : Bool} {args : Option (List Text)} :
    start program inAdvance args interactive ≠ .error .empty := by
  intro h
  cases inAdvance with
  | false => cases h
  | true =>
      cases read : tokenize program with
      | ok tokens =>
          obtain ⟨lazy, eager, -, begun, -⟩ := exists_start read args interactive
          rw [begun] at h
          cases h
      | error fault =>
          obtain ⟨tokens, left, rfl, -, -⟩ := Feed.script_ofProgram_of_error read
          rw [start_inAdvance_of_error read] at h
          cases h

/-- Reading in advance and reading on demand agree. If the program can be read, the runs of both
    modes give the same answers and differ in nothing but their feeds, however often they are
    resumed. If it cannot, reading in advance refuses it and leaves the machine alone up to the log,
    while reading on demand performs the tokens before the unreadable text and only then gives the same
    fault. In neither mode is a program ever reported as empty. -/
theorem reading_modes_agree (program : Text) :
    (∀ (tokens : List (Token × Nat)) (args : Option (List Text)) (interactive : Bool),
      tokenize program = .ok tokens →
      ∃ lazy eager, start program false args interactive = .ok lazy ∧
        start program true args interactive = .ok eager ∧
        ∀ (m : Machine) (k : Nat), ∃ answers r feed m',
          lazy.resumeMany m k = (answers, r, m') ∧
          eager.resumeMany m k = (answers, { r with feed := feed }, m')) ∧
    (∀ (tokens : List (Token × Nat)) (m : Machine) (inputs : List Text),
      tokenize program = .ok tokens →
      m.runProgram program inputs true = m.runProgram program inputs false) ∧
    (∀ fault : ParseFault, tokenize program = .error fault →
      ∃ tokens left, fault = .unknownToken left ∧ Unreadable program tokens left ∧
        ∀ (args : Option (List Text)) (interactive : Bool) (m : Machine) (inputs : List Text),
          start program true args interactive = .error fault ∧
          m.runProgram program inputs true =
            (.failure (.parse fault) (fault.span program), m.logUnreadable program) ∧
          (m.logUnreadable program).queue = m.queue ∧
          m.console.Logs (m.logUnreadable program).console ∧
          ∃ lazy feed, start program false args interactive = .ok lazy ∧
            lazy.finish m =
              match lazy.perform m tokens with
              | (some early, r, m') =>
                  some (some early, { r with feed := feed, result := resultOf (.error early) }, m')
              | (none, r, m') =>
                  some (some (.parse fault),
                    { r with
                      feed := feed
                      span := ⟨program, r.offset, program.length - r.offset⟩
                      result := some (some (.parse fault)) },
                    m'.logMismatch program r.offset)) ∧
    (∀ (inAdvance interactive : Bool) (args : Option (List Text)),
      start program inAdvance args interactive ≠ .error .empty) ∧
    ∀ (r r' : Run) (m m' : Machine) (found : Answer),
      r.resume m = some (found, r', m') → found.stop ≠ some (some (.parse .empty)) := by
  refine ⟨?_, fun _ m inputs read => runProgram_inAdvance read m inputs, ?_,
    fun _ _ _ => start_ne_empty, fun _ _ _ _ _ => resume_ne_empty⟩
  · intro tokens args interactive read
    obtain ⟨lazy, eager, lazyStart, eagerStart, alike⟩ := exists_start read args interactive
    refine ⟨lazy, eager, lazyStart, eagerStart, ?_⟩
    intro m k
    obtain ⟨answers, r, s, m', left, right, feed, rfl, -⟩ := alike.resumeMany m k
    exact ⟨answers, r, feed, m', left, right⟩
  · intro fault read
    obtain ⟨tokens, left, unknown, unreadable, script⟩ := Feed.script_ofProgram_of_error read
    refine ⟨tokens, left, unknown, unreadable, ?_⟩
    intro args interactive m inputs
    obtain ⟨queue, logs⟩ := m.logs_logMismatch program (readableLength program)
    refine ⟨start_inAdvance_of_error read args interactive,
      runProgram_inAdvance_of_error read m inputs, queue, logs, ?_⟩
    · let lazy : Run :=
        ⟨program, .cursor (.ofProgram program), args, interactive, 0, ⟨program, 0, 0⟩, none⟩
      obtain ⟨feed, ended⟩ := finish_of_unreadable (r := lazy) script rfl m
      exact ⟨lazy, feed, rfl, ended⟩

theorem reading_modes_agree_copy :
    tokenize ['*', ' '] = .ok [(.copy, 1)] ∧
    (∀ m : Machine, m.runProgram ['*', ' '] [] true = m.runProgram ['*', ' '] [] false) ∧
    tokenize ['*', '?'] = .error (.unknownToken ['?']) ∧
    start ['*', '?'] true none false = .error (.unknownToken ['?']) := by
  have readable : tokenize ['*', ' '] = .ok [(.copy, 1)] := by
    rw [tokenize_of_scan rfl, tokenize_of_empty rfl]
    rfl
  have unreadable : tokenize ['*', '?'] = .error (.unknownToken ['?']) := by
    rw [tokenize_of_scan rfl, tokenize_of_unknown rfl]
    rfl
  obtain ⟨_, _, _, _, refused⟩ := (reading_modes_agree ['*', '?']).2.2.1 _ unreadable
  exact ⟨readable, fun m => (reading_modes_agree ['*', ' ']).2.1 _ m [] readable, unreadable,
    (refused none false {} []).1⟩

end QueueScript.Run
