import QueueScript.Proofs.Escapes
import QueueScript.Proofs.Schedules

/-! # Progress

Every token that is read takes at least one character that is not a blank, and these are used up
(`Reads.length_add_solid_le`). So a program has no more tokens than such characters. A feed of it completes
after one more step than that at the latest, and so does a run of it that is resumed that often, whatever
the program, the queue and the streams are. To finish a run takes no more steps, but it leads to the end of
the run only if no fault escapes. No step leads beyond the end of the program.
-/

namespace QueueScript

namespace Text

/-- How many characters of a text are not blanks. -/
def solid (t : Text) : Nat :=
  t.countP (!isBlank ·)

theorem solid_take_add_solid_drop (t : Text) (n : Nat) :
    solid (t.take n) + solid (t.drop n) = solid t := by
  rw [solid, solid, ← List.countP_append, List.take_append_drop, solid]

theorem solid_drop_le (t : Text) (n : Nat) : solid (t.drop n) ≤ solid t := by
  have parts := solid_take_add_solid_drop t n
  omega

theorem solid_le_length (t : Text) : solid t ≤ t.length :=
  List.countP_le_length

theorem solid_pos_iff {t : Text} : 0 < solid t ↔ ∃ c ∈ t, isBlank c = false := by
  simp only [solid, List.countP_pos_iff, Bool.not_eq_true']

end Text

/-! ## Tokens -/

theorem exists_solid_of_scan_ok {t : Text} {token : Token} {n : Nat} (h : scan t = .ok (token, n)) :
    ∃ c ∈ t.take n, Text.isBlank c = false := by
  obtain ⟨front, c, taken, notBlank⟩ := (scan_take h).1.last
  refine ⟨c, by rw [taken]; exact List.mem_append_right front (List.mem_singleton_self c), ?_⟩
  rw [Bool.eq_false_iff]
  exact fun isBlank => notBlank (Grammar.isBlank_iff.mp isBlank)

theorem scanAt_progress {program : Text} {pos n : Nat} {token : Token}
    (h : scanAt program pos = .ok (token, n)) :
    1 ≤ n ∧ n ≤ program.length - pos ∧ ∃ c ∈ (program.drop pos).take n, Text.isBlank c = false := by
  rw [scanAt, Text.suffixFrom_ofNat] at h
  have inside := le_length_of_scan h
  rw [List.length_drop] at inside
  exact ⟨pos_of_scan h, inside, exists_solid_of_scan_ok h⟩

/-- Each token uses up a character that is not a blank. -/
theorem Reads.length_add_solid_le {t rest : Text} {tokens : List (Token × Nat)}
    (h : Reads t tokens rest) : tokens.length + rest.solid ≤ t.solid := by
  induction h with
  | stop t => simp
  | @next t rest token n tokens found _ ih =>
      have parts := t.solid_take_add_solid_drop n
      have first : 0 < Text.solid (t.take n) := Text.solid_pos_iff.mpr (exists_solid_of_scan_ok found)
      rw [List.length_cons]
      omega

theorem length_le_of_tokenize {t : Text} {tokens : List (Token × Nat)} (h : tokenize t = .ok tokens) :
    tokens.length ≤ t.solid := by
  obtain ⟨rest, reads, -⟩ := reads_of_tokenize h
  have used := reads.length_add_solid_le
  omega

/-- The steps that hand out the tokens and then complete. -/
def Step.untilEnd (fault : Option Fault) : List (Token × Nat) → List Step
  | [] => [.completed fault]
  | (token, n) :: tokens => .yielded token n :: untilEnd fault tokens

theorem Step.length_untilEnd (fault : Option Fault) (tokens : List (Token × Nat)) :
    (untilEnd fault tokens).length = tokens.length + 1 := by
  induction tokens with
  | nil => rfl
  | cons first tokens ih => rw [untilEnd, List.length_cons, ih, List.length_cons]

/-- The answers of a run that executes the tokens and then stops. -/
def Answer.untilStop (found : Answer) : List (Token × Nat) → List Answer
  | [] => [found]
  | (token, n) :: tokens => .yielded token n :: untilStop found tokens

/-! ## Feeds -/

namespace Feed

variable {program : Text} {f f' : Feed}

/-- A feed that is not beyond what it hands out. -/
def Within : Feed → Prop
  | .cursor c => c.pos ≤ c.program.length
  | .tape t => t.pos ≤ t.tokens.length

theorem Within.resume {step : Step} (h : f.Within) (next : f.resume = some (step, f')) : f'.Within := by
  cases f with
  | cursor c =>
      obtain ⟨-, ⟨token, n, found, -, rfl⟩ | ⟨-, -, rfl⟩ | ⟨_, -, -, rfl⟩⟩ := resume_cursor_cases next
      · have taken := le_length_of_scan found
        simp only [Within] at h ⊢
        rw [List.length_drop] at taken
        omega
      · exact Nat.le_refl _
      · exact h
  | tape t =>
      obtain ⟨-, ⟨token, n, found, -, rfl⟩ | ⟨-, -, rfl⟩⟩ := resume_tape_cases next
      · exact (List.getElem?_eq_some_iff.mp found).1
      · exact h

theorem Reachable.within (h : Reachable program f) : f.Within := by
  induction h with
  | @start inAdvance f made =>
      cases inAdvance with
      | false =>
          cases made
          exact Nat.zero_le _
      | true =>
          obtain ⟨tokens, -, rfl⟩ := ofProgram_inAdvance made
          exact Nat.zero_le _
  | resume _ next ih => exact ih.resume next
  | @reset f _ _ => cases f <;> exact Nat.zero_le _

theorem Reachable.pos_le (h : Reachable program f) : f.pos ≤ program.length := by
  have within := h.within
  have plays := h.plays
  cases f with
  | cursor c =>
      cases plays
      exact within
  | tape t =>
      have few := length_le_of_tokenize plays
      have short := program.solid_le_length
      simp only [Within] at within
      simp only [pos]
      omega

/-- What a feed still hands out is no longer than the program has characters other than blanks. -/
theorem Reachable.length_script_le (h : Reachable program f) {tokens : List (Token × Nat)}
    {ending : Option Fault} (script : f.script = some (tokens, ending)) :
    tokens.length ≤ program.solid := by
  have plays := h.plays
  cases f with
  | cursor c =>
      cases plays
      have left : tokens.length ≤ Text.solid (c.program.drop c.pos) := by
        obtain ⟨-, read⟩ | ⟨_, -, unreadable⟩ := tokenize_of_script script
        · exact length_le_of_tokenize read
        · obtain ⟨rest, reads, -⟩ := unreadable.reads
          have used := reads.length_add_solid_le
          omega
      exact Nat.le_trans left (Text.solid_drop_le ..)
  | tape t =>
      have running : t.done = false := by
        cases ended : t.done with
        | false => rfl
        | true =>
            have none : (tape t).script = none := script_eq_none_iff.mpr ended
            cases none.symm.trans script
      rw [script_tape running] at script
      cases script
      have few := length_le_of_tokenize plays
      rw [List.length_drop]
      omega

theorem exists_script_within {inAdvance : Bool} (made : ofProgram inAdvance program = .ok f) :
    ∃ all ending, f.script = some (all, ending) ∧ all.length ≤ program.solid := by
  obtain ⟨all, ending, script⟩ := exists_script (f := cursor (.ofProgram program)) rfl
  rw [← script_ofProgram made] at script
  exact ⟨all, ending, script, (Reachable.start made).length_script_le script⟩

theorem serveAll_of_drain {tokens : List (Token × Nat)} {fault : Option Fault}
    (h : f.drain = some (tokens, fault, f')) :
    f.serveAll (List.replicate (Step.untilEnd fault tokens).length .resume) =
      ((Step.untilEnd fault tokens).map .stepped, f') := by
  fun_induction drain f generalizing tokens with
  | case1 => cases h
  | case2 f ending f' next =>
      cases h
      simp only [Step.untilEnd, List.length_singleton, List.replicate_one, serveAll, serve, next,
        List.map_cons, List.map_nil]
  | case3 f token n f₁ next ih =>
      obtain ⟨⟨collected, ending, last⟩, drained, same⟩ := Option.map_eq_some_iff.mp h
      cases same
      simp only [Step.untilEnd, List.length_cons, List.replicate_succ, serveAll, serve, next,
        List.map_cons, ih drained]

theorem Reachable.exists_drain (h : Reachable program f) (running : f.done = false) :
    ∃ tokens fault f', f.drain = some (tokens, fault, f') ∧ f'.done = true ∧
      (Step.untilEnd fault tokens).length ≤ program.solid + 1 ∧
      f.serveAll (List.replicate (Step.untilEnd fault tokens).length .resume) =
        ((Step.untilEnd fault tokens).map .stepped, f') := by
  obtain ⟨tokens, fault, script⟩ := exists_script running
  have few := h.length_script_le script
  obtain ⟨⟨_, _, f'⟩, drained, same⟩ := Option.map_eq_some_iff.mp script
  cases same
  refine ⟨tokens, fault, f', drained, done_of_drain drained, ?_, serveAll_of_drain drained⟩
  rw [Step.length_untilEnd]
  omega

theorem tape_of_drain {tokens : List (Token × Nat)} {fault : Option Fault}
    (h : (cursor (.ofProgram program)).drain = some (tokens, fault, f')) :
    (fault = none ∧ Tape.ofProgram program = .ok ⟨tokens, 0, false⟩) ∨
      ∃ refusal, fault = some (.parse refusal) ∧ Tape.ofProgram program = .error refusal := by
  cases fault with
  | some cause =>
      obtain ⟨refusal, refused, rfl⟩ := drain_fails_iff.mp ⟨tokens, f', h⟩
      exact .inr ⟨refusal, rfl, refused⟩
  | none =>
      have script : (cursor (.ofProgram program)).script = some (tokens, none) := by rw [script, h]; rfl
      obtain ⟨-, read⟩ | ⟨_, impossible, -⟩ := tokenize_of_script script
      · rw [Cursor.ofProgram, List.drop_zero] at read
        exact .inl ⟨rfl, by rw [Tape.ofProgram, read]; rfl⟩
      · cases impossible

end Feed

/-! ## Runs -/

namespace Run

theorem reachable_resumeMany {program : Text} {r : Run} (h : Feed.Reachable program r.feed) (m : Machine)
    (k : Nat) : Feed.Reachable program (r.resumeMany m k).2.1.feed := by
  induction k generalizing r m with
  | zero => exact h
  | succ k ih =>
      cases taken : r.resume m with
      | none =>
          simp only [resumeMany, taken]
          exact ih h m
      | some result =>
          obtain ⟨step, r', m'⟩ := result
          simp only [resumeMany, taken]
          obtain ⟨-, ⟨_, next, -⟩ | ⟨_, _, next, -⟩⟩ := resume_cases taken
          all_goals exact ih (h.resume next) m'

theorem offset_resumeMany_le {program : Text} {inAdvance interactive : Bool} {args : Option (List Text)}
    {r : Run} (begun : start program inAdvance args interactive = .ok r) (m : Machine) (k : Nat) :
    (r.resumeMany m k).2.1.offset ≤ program.length := by
  obtain ⟨tokens, -, tracked⟩ := (tracked_start begun).resumeMany m k
  rw [tracked.offset_eq]
  exact tracked.reads.rest_eq.1

theorem resumeMany_of_resume {r r' : Run} {m m' : Machine} {found : Answer}
    (h : r.resume m = some (found, r', m')) (k : Nat) :
    r.resumeMany m (k + 1) = (some found :: (r'.resumeMany m' k).1, (r'.resumeMany m' k).2) := by
  simp only [Run.resumeMany, h]

theorem Reaches.resumeMany {r s r' : Run} {m mₛ m' : Machine} {tokens : List (Token × Nat)}
    {found : Answer} (h : Reaches r m tokens s mₛ) (last : s.resume mₛ = some (found, r', m')) :
    r.resumeMany m (tokens.length + 1) = ((Answer.untilStop found tokens).map some, r', m') := by
  induction h with
  | refl => rw [resumeMany_of_resume last]; rfl
  | step taken _ ih => rw [List.length_cons, resumeMany_of_resume taken, ih last]; rfl

theorem result_of_stop {r r' : Run} {m m' : Machine} {found : Answer} {fault : Option Fault}
    (h : r.resume m = some (found, r', m')) (stopped : found.stop = some fault) :
    (found = .completed fault ∧ r'.result = some fault) ∨
    ∃ cause, fault = some cause ∧ cause.escapes = true ∧ found = .raised cause ∧ r'.result = none := by
  obtain ⟨-, ⟨_, ending, -, rfl, rfl, -⟩ | ⟨_, token, n, outcome, _, -, -, rfl, rfl⟩⟩ := resume_inversion h
  · cases stopped
    exact .inl ⟨rfl, by cases fault <;> rfl⟩
  · cases outcome with
    | ok _ => cases stopped
    | error cause =>
        rw [answer_error_stop] at stopped
        cases stopped
        cases escapes : cause.escapes with
        | true => exact .inr ⟨cause, rfl, escapes, by simp [answer, escapes], by simp [resultOf, escapes]⟩
        | false => exact .inl ⟨answer_of_not_escapes token n escapes, resultOf_of_not_escapes escapes⟩

theorem exists_finish_within {program : Text} {inAdvance interactive : Bool} {args : Option (List Text)}
    {r : Run} (begun : start program inAdvance args interactive = .ok r) (m : Machine) :
    ∃ tokens found fault r' m', r.finish m = some (fault, r', m') ∧ found.stop = some fault ∧
      tokens.length ≤ program.solid ∧
      r.resumeMany m (tokens.length + 1) = ((Answer.untilStop found tokens).map some, r', m') ∧
      ((found = .completed fault ∧ r'.result = some fault) ∨
        ∃ cause, fault = some cause ∧ cause.escapes = true ∧ found = .raised cause ∧ r'.result = none) := by
  obtain ⟨fault, r', m', finished⟩ := exists_finish begun m
  obtain ⟨tokens, s, mₛ, found, reached, last, stopped⟩ := exists_reaches_of_finish finished
  obtain ⟨feed, made, rfl⟩ := start_eq begun
  obtain ⟨all, ending, script, few⟩ := Feed.exists_script_within made
  -- The tokens that were executed are the first ones of those that the feed hands out.
  obtain ⟨late, rfl, -⟩ := reached.exists_late rfl script
  rw [List.length_append] at few
  exact ⟨tokens, found, fault, r', m', finished, stopped, by omega, reached.resumeMany last,
    result_of_stop last stopped⟩

theorem answer_of_resultOf (token : Token) (n : Nat) {outcome : Except Fault Unit} {fault : Option Fault}
    (h : resultOf outcome = some fault) : answer token n outcome = .completed fault := by
  cases outcome with
  | ok _ => cases h
  | error cause =>
      simp only [resultOf] at h
      split at h
      · cases h
      · rename_i stays
        cases h
        exact answer_of_not_escapes token n (Bool.eq_false_iff.mpr stays)

/-- A run that is resumed again and again, also behind faults that escape, ends as soon as its script
    does. -/
theorem exists_completion {r : Run} {all : List (Token × Nat)} {ending : Option Fault}
    (running : r.result = none) (script : r.feed.script = some (all, ending)) (m : Machine) :
    ∃ early fault r' m', early.length ≤ all.length ∧ r'.result = some fault ∧
      r.resumeMany m (early.length + 1) = ((early ++ [Answer.completed fault]).map some, r', m') := by
  -- On the script and not on the tokens that succeed: behind a fault that escapes the run goes on.
  induction all generalizing r m with
  | nil =>
      obtain ⟨f', next, -⟩ := Feed.resume_of_script_nil script
      have taken := resume_of_completed running next m
      refine ⟨[], ending, { (conclude ending (none, r, m)).2.1 with feed := f' },
        (conclude ending (none, r, m)).2.2, Nat.le_refl 0, by cases ending <;> rfl, ?_⟩
      rw [resumeMany_of_resume taken]
      rfl
  | cons first all ih =>
      obtain ⟨token, n⟩ := first
      obtain ⟨f', next, later⟩ := Feed.resume_of_script_cons script
      obtain ⟨outcome, args, m₁, -, taken⟩ := resume_of_yielded running next m
      let s : Run :=
        { r with feed := f', span := ⟨r.program, r.offset, n⟩, args := args, offset := r.offset + n }
      cases result : resultOf outcome with
      | none =>
          rw [result, ← running] at taken
          obtain ⟨early, fault, r', m', few, ended, answers⟩ := ih (r := s) running later m₁
          refine ⟨answer token n outcome :: early, fault, r', m', by simpa using few, ended, ?_⟩
          rw [List.length_cons, resumeMany_of_resume taken, answers]
          rfl
      | some fault =>
          rw [result] at taken
          refine ⟨[], fault, { s with result := some fault }, m₁, Nat.zero_le _, rfl, ?_⟩
          rw [resumeMany_of_resume taken, answer_of_resultOf token n result]
          rfl

theorem exists_completion_within {program : Text} {inAdvance interactive : Bool}
    {args : Option (List Text)} {r : Run} (begun : start program inAdvance args interactive = .ok r)
    (m : Machine) :
    ∃ early fault r' m', early.length ≤ program.solid ∧ r'.result = some fault ∧
      r.resumeMany m (early.length + 1) = ((early ++ [Answer.completed fault]).map some, r', m') := by
  obtain ⟨feed, made, rfl⟩ := start_eq begun
  obtain ⟨all, ending, script, few⟩ := Feed.exists_script_within made
  obtain ⟨early, fault, r', m', fewer, ended, answers⟩ :=
    exists_completion (r := ⟨program, feed, args, interactive, 0, ⟨program, 0, 0⟩, none⟩) rfl script m
  exact ⟨early, fault, r', m', Nat.le_trans fewer few, ended, answers⟩

end Run

/-- Programs end within their characters. A scan that succeeds takes at least one character and no more
    than there are, and not only blanks. A feed of the program, whatever was asked of it, is never beyond
    the end of the program. If it has not completed, it does so when it is resumed, after one more step at
    the latest than the program has characters that are not blanks. Reading in advance gives the tokens of
    a new cursor, or the fault with which it completes.

    A run that is resumed again and again, on any queue and any streams, has ended after as many steps. To
    finish it takes no more steps either. This ends the run, or a fault escapes before its end, which does
    not happen where the streams and the prompts have no such faults and the values fit into a memory. -/
theorem programs_end_within_their_characters (program : Text) :
    (∀ (pos n : Nat) (token : Token), scanAt program pos = .ok (token, n) →
      1 ≤ n ∧ n ≤ program.length - pos ∧ ∃ c ∈ (program.drop pos).take n, Text.isBlank c = false) ∧
    (∀ f, Feed.Reachable program f →
      f.pos ≤ program.length ∧
      (f.done = false →
        ∃ tokens fault f', f.drain = some (tokens, fault, f') ∧ f'.done = true ∧
          (Step.untilEnd fault tokens).length ≤ program.solid + 1 ∧
          f.serveAll (List.replicate (Step.untilEnd fault tokens).length .resume) =
            ((Step.untilEnd fault tokens).map .stepped, f'))) ∧
    (∃ tokens fault f', (Feed.cursor (.ofProgram program)).drain = some (tokens, fault, f') ∧
      (Step.untilEnd fault tokens).length ≤ program.solid + 1 ∧
      ((fault = none ∧ Tape.ofProgram program = .ok ⟨tokens, 0, false⟩) ∨
        ∃ refusal, fault = some (.parse refusal) ∧ Tape.ofProgram program = .error refusal)) ∧
    ∀ (inAdvance interactive : Bool) (args : Option (List Text)) (r : Run) (m : Machine),
      Run.start program inAdvance args interactive = .ok r →
      (∀ k, (r.resumeMany m k).2.1.offset ≤ program.length ∧
        (r.resumeMany m k).2.1.feed.pos ≤ program.length) ∧
      (∃ early fault r' m', early.length ≤ program.solid ∧ r'.result = some fault ∧
        r.resumeMany m (early.length + 1) = ((early ++ [Answer.completed fault]).map some, r', m')) ∧
      ∃ tokens found fault r' m', r.finish m = some (fault, r', m') ∧ found.stop = some fault ∧
        tokens.length ≤ program.solid ∧
        r.resumeMany m (tokens.length + 1) = ((Answer.untilStop found tokens).map some, r', m') ∧
        ((found = .completed fault ∧ r'.result = some fault) ∨
          ∃ cause, fault = some cause ∧ cause.escapes = true ∧ found = .raised cause ∧
            r'.result = none) ∧
        (m.console.Tame interactive → r.Fits m → found = .completed fault ∧ r'.result = some fault) := by
  refine ⟨fun _ _ _ => scanAt_progress, ?_, ?_, ?_⟩
  · intro f reachable
    exact ⟨reachable.pos_le, reachable.exists_drain⟩
  · have reachable : Feed.Reachable program (.cursor (.ofProgram program)) :=
      @Feed.Reachable.start program false _ rfl
    obtain ⟨tokens, fault, f', drained, -, few, -⟩ := reachable.exists_drain rfl
    exact ⟨tokens, fault, f', drained, few, Feed.tape_of_drain drained⟩
  · intro inAdvance interactive args r m begun
    have reachable : Feed.Reachable program r.feed := by
      obtain ⟨feed, made, rfl⟩ := Run.start_eq begun
      exact .start made
    obtain ⟨tokens, found, fault, r', m', finished, stopped, few, answers, ended⟩ :=
      Run.exists_finish_within begun m
    refine ⟨fun k => ?_, Run.exists_completion_within begun m, tokens, found, fault, r', m', finished,
      stopped, few, answers, ended, fun tame fits => ?_⟩
    · exact ⟨Run.offset_resumeMany_le begun m k, (Run.reachable_resumeMany reachable m k).pos_le⟩
    · obtain completed | ⟨cause, rfl, escapes, -⟩ := ended
      · exact completed
      · cases escapes.symm.trans (Run.not_escapes_of_finish begun tame fits finished)

/-- A program that cannot be read to its end, scanned and drained behind its first token, and run on an
    empty queue, where its second token fails. -/
theorem programs_end_within_their_characters_unreadable :
    let program : Text := ['@', '1', ' ', '*', '?']
    let f : Feed := .cursor ⟨program, 2, false⟩
    program.solid = 4 ∧ scanAt program (2 : Nat) = .ok (.copy, 2) ∧
      (∃ c ∈ (program.drop 2).take 2, Text.isBlank c = false) ∧
      Feed.Reachable program f ∧ f.done = false ∧
      (∃ tokens fault f', f.drain = some (tokens, fault, f') ∧ (Step.untilEnd fault tokens).length ≤ 5) ∧
      ∃ r, Run.start program false none false = .ok r ∧ Console.Tame false {} ∧ r.Fits {} ∧
        ∃ r' m', r.finish {} = some (some (.kind (.queueTooShort 1 0)), r', m') ∧
          r'.result = some (some (.kind (.queueTooShort 1 0))) := by
  intro program f
  have scanned : scanAt program (2 : Nat) = .ok (.copy, 2) := rfl
  have new : Feed.Reachable program (.cursor (.ofProgram program)) :=
    @Feed.Reachable.start program false _ rfl
  have first : (Feed.cursor (.ofProgram program)).resume = some (.yielded (.rotate 1) 2, f) := rfl
  have reachable : Feed.Reachable program f := .resume new first
  have script : (Feed.cursor (.ofProgram program)).script =
      some ([(.rotate 1, 2), (.copy, 2)], some (.parse (.unknownToken ['?']))) := by
    rw [Feed.script_of_yielded first, Feed.script_of_yielded rfl, Feed.script_of_completed rfl]
    rfl
  let r : Run := ⟨program, .cursor (.ofProgram program), none, false, 0, ⟨program, 0, 0⟩, none⟩
  have fits : r.Fits {} := Run.fits_of_script rfl script (by decide)
  have tame : Console.Tame false {} := ⟨rfl, .inl rfl, nofun, nofun⟩
  obtain ⟨scans, feeds, -, runs⟩ := programs_end_within_their_characters program
  obtain ⟨tokens, fault, f', drained, -, few, -⟩ := (feeds f reachable).2 rfl
  obtain ⟨-, -, executed, found, ending, r', m', finished, -, -, -, -, completes⟩ :=
    runs false false none r {} rfl
  have ends : ending = some (.kind (.queueTooShort 1 0)) := by
    rw [Run.finish_of_yielded rfl, Run.finish_of_completed rfl] at finished
    cases finished
    rfl
  subst ends
  exact ⟨rfl, scanned, (scans 2 2 .copy scanned).2.2, reachable, rfl, ⟨tokens, fault, f', drained, few⟩,
    r, rfl, tame, fits, r', m', finished, (completes tame fits).2⟩

/-- Where the user breaks off, a run is left before its end. -/
theorem interrupted_run_does_not_complete :
    let m : Machine := { console := { inputEnd := .failure .interrupted } }
    ∃ r r', Run.start ['<'] false none false = .ok r ∧
      r.resume m = some (.raised (.stream .interrupted), r', m) ∧
      r.finish m = some (some (.stream .interrupted), r', m) ∧ r'.result = none := by
  intro m
  exact ⟨_, _, rfl, rfl, Run.finish_of_stop rfl rfl, rfl⟩

end QueueScript
