import QueueScript.Proofs.Reading
import QueueScript.Proofs.ReadingModes

/-! # Where a run is in its program

A run keeps the offset of its next token and the span of its last one. `Run.Tracked` ties both to the
tokens that were attempted so far: these are the tokens read off the front of the program, the
offset is their extent, and the span is the piece of the last of them. When the text cannot be read
any further, the span is all the text that is left.

How the feed reads does not matter here: as long as a run goes on, its feed has the script of a
cursor at the offset, so the next token is the one that the text at the offset begins with.
-/

namespace QueueScript

namespace Text

/-! Places counted from the front need no clamping. -/

theorem clamp_ofNat (length k : Nat) : clamp length k = min k length := by
  simp only [clamp]
  rw [if_neg (by omega), Int.toNat_natCast]

theorem upTo_ofNat (t : Text) (k : Nat) : t.upTo k = t.take k := by
  rw [upTo, clamp_ofNat, List.take_eq_take_iff]
  omega

theorem suffixFrom_ofNat (t : Text) (k : Nat) : t.suffixFrom k = t.drop k := by
  rw [suffixFrom, clamp_ofNat, List.drop_eq_drop_iff]
  omega

theorem segment_ofNat (t : Text) (pos n : Nat) :
    t.segment pos (pos + n : Nat) = (t.drop pos).take n := by
  have cut : (t.take (pos + n)).drop (min pos t.length) = (t.take (pos + n)).drop pos := by
    rw [List.drop_eq_drop_iff, List.length_take]
    omega
  rw [segment, upTo_ofNat, clamp_ofNat, cut, List.drop_take, Nat.add_sub_cancel_left]

end Text

theorem Span.inside_ofNat (program : Text) (pos n : Nat) :
    inside ⟨program, pos, n⟩ = (program.drop pos).take n :=
  program.segment_ofNat pos n

theorem Span.parts_append (program : Text) (pos n : Nat) :
    before ⟨program, pos, n⟩ ++ inside ⟨program, pos, n⟩ ++ after ⟨program, pos, n⟩ = program := by
  have front : before ⟨program, pos, n⟩ = program.take pos := program.upTo_ofNat pos
  have back : after ⟨program, pos, n⟩ = program.drop (pos + n) := program.suffixFrom_ofNat (pos + n)
  rw [front, inside_ofNat, back, ← List.drop_drop, List.append_assoc, List.take_append_drop,
    List.take_append_drop]

/-- Tokens with their spans, which lie side by side in the program from a place on. -/
def sideBySide (program : Text) (pos : Nat) : List (Token × Nat) → List (Token × Span)
  | [] => []
  | (token, n) :: tokens => (token, ⟨program, pos, n⟩) :: sideBySide program (pos + n) tokens

theorem sideBySide_append (program : Text) (pos : Nat) (early late : List (Token × Nat)) :
    sideBySide program pos (early ++ late) =
      sideBySide program pos early ++ sideBySide program (pos + extent early) late := by
  induction early generalizing pos with
  | nil => rfl
  | cons first early ih =>
      obtain ⟨token, n⟩ := first
      simp only [List.cons_append, sideBySide, extent, ih, Nat.add_assoc]

theorem Reads.piece_of_mem {program rest : Text} {pos : Nat} {tokens : List (Token × Nat)}
    (h : Reads (program.drop pos) tokens rest) {token : Token} {span : Span}
    (member : (token, span) ∈ sideBySide program pos tokens) :
    Piece span.inside token ∧ span.length = span.inside.length ∧
      scan span.inside = .ok (token, span.inside.length) := by
  induction tokens generalizing pos with
  | nil => cases member
  | cons first tokens ih =>
      obtain ⟨token', n⟩ := first
      cases h with
      | next found later =>
          rcases List.mem_cons.mp member with same | member
          · cases same
            obtain ⟨isPiece, alone⟩ := scan_take found
            have long : ((program.drop pos).take n).length = n := by
              rw [List.length_take]
              exact Nat.min_eq_left (le_length_of_scan found)
            rw [Span.inside_ofNat, long]
            exact ⟨isPiece, rfl, alone⟩
          · rw [List.drop_drop] at later
            exact ih later member

namespace Run

/-- The tokens that a run attempts when it is resumed a number of times, each with the span that the
    run has then. -/
def attempts (r : Run) (m : Machine) : Nat → List (Token × Span)
  | 0 => []
  | k + 1 =>
      match r.resume m with
      | none => r.attempts m k
      | some (_, r', m') =>
          match r.feed.resume with
          | some (.yielded token _, _) => (token, r'.span) :: r'.attempts m' k
          | _ => r'.attempts m' k

/-- The span of the last token, or the empty one in front of the program. -/
def lastSpan (program : Text) (tokens : List (Token × Nat)) : Span :=
  ((sideBySide program 0 tokens).getLast?.map Prod.snd).getD ⟨program, 0, 0⟩

/-- What the end of a run, if it has come, says about the text behind its last token. -/
def Halted (r : Run) (tokens : List (Token × Nat)) : Prop :=
  match r.result with
  | none =>
      r.span = lastSpan r.program tokens ∧
        r.feed.script = (Feed.cursor ⟨r.program, r.offset, false⟩).script
  | some none =>
      r.span = lastSpan r.program tokens ∧ scan (r.program.drop r.offset) = .error .empty
  | some (some (.parse fault)) =>
      r.span = ⟨r.program, r.offset, r.program.length - r.offset⟩ ∧
        scan (r.program.drop r.offset) = .error fault ∧ fault ≠ .empty
  | some (some _) => r.span = lastSpan r.program tokens ∧ tokens ≠ []

/-- A run of the program that has attempted the tokens. -/
structure Tracked (program : Text) (tokens : List (Token × Nat)) (r : Run) : Prop where
  program_eq : r.program = program
  reads : Reads program tokens (program.drop r.offset)
  offset_eq : r.offset = extent tokens
  halted : r.Halted tokens

theorem lastSpan_concat (program : Text) (tokens : List (Token × Nat)) (token : Token) (n : Nat) :
    lastSpan program (tokens ++ [(token, n)]) = ⟨program, extent tokens, n⟩ := by
  rw [lastSpan, sideBySide_append, Nat.zero_add]
  simp [sideBySide]

theorem exists_lastSpan (program : Text) (tokens : List (Token × Nat)) :
    ∃ pos n : Nat, lastSpan program tokens = ⟨program, pos, n⟩ ∧ pos + n = extent tokens := by
  obtain rfl | ⟨early, ⟨token, n⟩, rfl⟩ := List.eq_nil_or_concat tokens
  · exact ⟨0, 0, rfl, rfl⟩
  · rw [List.concat_eq_append]
    exact ⟨extent early, n, lastSpan_concat .., by simp [extent_append, extent]⟩

theorem tracked_start {program : Text} {inAdvance interactive : Bool} {args : Option (List Text)}
    {r : Run} (h : start program inAdvance args interactive = .ok r) : Tracked program [] r := by
  obtain ⟨feed, made, rfl⟩ := start_eq h
  exact ⟨rfl, .stop program, rfl, rfl, Feed.script_ofProgram made⟩

theorem exec_ne_parse {r : Run} {token : Token} {m : Machine} {fault : Fault}
    (h : (r.exec token m).1 = .error fault) (refusal : ParseFault) : fault ≠ .parse refusal := by
  rintro rfl
  have predicted := exec_predicted r token m
  rw [h] at predicted
  cases predicted with
  | hidden unseen _ => exact unseen

theorem Tracked.cursor_resume {program : Text} {tokens : List (Token × Nat)} {r : Run} {step : Step}
    {f' : Feed} (h : Tracked program tokens r) (running : r.result = none)
    (next : r.feed.resume = some (step, f')) :
    ∃ g', (Feed.cursor ⟨program, r.offset, false⟩).resume = some (step, g') ∧
      g'.script = f'.script := by
  have halted := h.halted
  rw [Halted, running, h.program_eq] at halted
  exact Feed.resume_of_same_script halted.2.symm next

/-- One step: the run attempts the token at its offset, or finds the end of what can be read. -/
theorem Tracked.resume {program : Text} {tokens : List (Token × Nat)} {r r' : Run} {m m' : Machine}
    {found : Answer} (h : Tracked program tokens r) (taken : r.resume m = some (found, r', m')) :
    (∃ token n f', r.feed.resume = some (.yielded token n, f') ∧
      r'.span = ⟨program, r.offset, n⟩ ∧ r'.offset = r.offset + n ∧
      Tracked program (tokens ++ [(token, n)]) r') ∨
    ∃ ending f', r.feed.resume = some (.completed ending, f') ∧ r'.offset = r.offset ∧
      Tracked program tokens r' := by
  obtain ⟨running, -⟩ := resume_cases taken
  have tracked := h
  obtain ⟨rfl, reads, offset, halted⟩ := h
  rw [Halted, running] at halted
  obtain ⟨here, -⟩ := halted
  cases next : r.feed.resume with
  | none => simp [Run.resume, next] at taken
  | some result =>
      obtain ⟨step, f'⟩ := result
      obtain ⟨g', atOffset, same⟩ := tracked.cursor_resume running next
      cases step with
      | completed ending =>
          right
          rw [resume_of_completed running next m] at taken
          cases taken
          obtain ⟨-, ⟨_, _, _, ended, _⟩ | ⟨blank, ended, _⟩ | ⟨left, unknown, ended, _⟩⟩ :=
            Feed.resume_cursor_cases atOffset
          · cases ended
          · cases ended
            exact ⟨none, f', rfl, rfl, rfl, reads, offset, here, blank⟩
          · cases ended
            exact ⟨_, f', rfl, rfl, rfl, reads, offset, rfl, unknown, by simp⟩
      | yielded token n =>
          left
          obtain ⟨-, ⟨_, _, scanned, yielded, rfl⟩ | ⟨_, yielded, _⟩ | ⟨_, _, yielded, _⟩⟩ :=
            Feed.resume_cursor_cases atOffset
          · cases yielded
            have further : Reads r.program (tokens ++ [(token, n)]) (r.program.drop (r.offset + n)) := by
              refine reads.trans (.next scanned ?_)
              rw [List.drop_drop]
              exact .stop _
            have extended : r.offset + n = extent (tokens ++ [(token, n)]) := by
              simp [extent_append, extent, offset]
            have span : (⟨r.program, r.offset, n⟩ : Span) =
                lastSpan r.program (tokens ++ [(token, n)]) := by
              rw [lastSpan_concat, offset]
            obtain ⟨outcome, args, m'', effect, stepped⟩ := resume_of_yielded running next m
            rw [stepped] at taken
            cases taken
            refine ⟨token, n, f', rfl, rfl, rfl, rfl, further, extended, ?_⟩
            cases outcome with
            | ok _ => exact ⟨span, same.symm⟩
            | error fault =>
                have notParse := exec_ne_parse (congrArg Prod.fst (effect f'))
                cases escapes : fault.escapes with
                | true =>
                    simp only [Halted, resultOf, escapes, if_true]
                    exact ⟨span, same.symm⟩
                | false =>
                    simp only [Halted, resultOf_of_not_escapes escapes]
                    cases fault with
                    | parse refusal => exact absurd rfl (notParse refusal)
                    | kind | range | stream => exact ⟨span, by simp⟩
          · cases yielded
          · cases yielded

theorem Tracked.resumeMany {program : Text} {tokens : List (Token × Nat)} {r : Run}
    (h : Tracked program tokens r) (m : Machine) (k : Nat) :
    ∃ more, r.attempts m k = sideBySide program r.offset more ∧
      Tracked program (tokens ++ more) (r.resumeMany m k).2.1 := by
  induction k generalizing r m tokens with
  | zero => exact ⟨[], rfl, by rwa [List.append_nil]⟩
  | succ k ih =>
      cases taken : r.resume m with
      | none =>
          obtain ⟨more, attempted, later⟩ := ih h m
          refine ⟨more, ?_, ?_⟩
          · simpa only [attempts, taken] using attempted
          · simpa only [Run.resumeMany, taken] using later
      | some result =>
          obtain ⟨found, r', m'⟩ := result
          obtain ⟨token, n, f', next, span, moved, tracked⟩ | ⟨ending, f', next, moved, tracked⟩ :=
            h.resume taken
          · obtain ⟨more, attempted, later⟩ := ih tracked m'
            refine ⟨(token, n) :: more, ?_, ?_⟩
            · simp only [attempts, taken, next, attempted, span, moved, sideBySide]
            · rw [List.append_assoc, List.singleton_append] at later
              simpa only [Run.resumeMany, taken] using later
          · obtain ⟨more, attempted, later⟩ := ih tracked m'
            refine ⟨more, ?_, ?_⟩
            · simpa only [attempts, taken, next, moved] using attempted
            · simpa only [Run.resumeMany, taken] using later

section Ended

variable {program : Text} {tokens : List (Token × Nat)} {r : Run}

theorem Tracked.span_cases (h : Tracked program tokens r) :
    r.span = lastSpan program tokens ∨
    ∃ refusal, r.result = some (some (.parse refusal)) ∧
      r.span = ⟨program, r.offset, program.length - r.offset⟩ := by
  obtain ⟨rfl, -, -, halted⟩ := h
  unfold Halted at halted
  split at halted
  · exact .inl halted.1
  · exact .inl halted.1
  · rename_i refusal ended
    exact .inr ⟨refusal, ended, halted.1⟩
  · exact .inl halted.1

theorem Tracked.of_success (h : Tracked program tokens r) (ended : r.result = some none) :
    r.offset = (program.reverse.dropWhile Text.isBlank).length := by
  obtain ⟨rfl, reads, offset, halted⟩ := h
  rw [Halted, ended] at halted
  rw [offset]
  apply extent_of_tokenize
  rw [reads.tokenize, tokenize_of_empty halted.2]
  simp [Except.map]

theorem Tracked.of_fault (h : Tracked program tokens r) {fault : Fault}
    (ended : r.result = some (some fault)) (notParse : ∀ refusal, fault ≠ .parse refusal) :
    ∃ token, (sideBySide program 0 tokens).getLast? = some (token, r.span) := by
  obtain ⟨rfl, -, -, halted⟩ := h
  have last : r.span = lastSpan r.program tokens ∧ tokens ≠ [] := by
    cases fault with
    | parse refusal => exact absurd rfl (notParse refusal)
    | kind | range | stream =>
        rw [Halted, ended] at halted
        exact halted
  obtain ⟨span, nonempty⟩ := last
  obtain rfl | ⟨early, ⟨token, n⟩, rfl⟩ := List.eq_nil_or_concat tokens
  · exact absurd rfl nonempty
  · rw [List.concat_eq_append, lastSpan_concat] at span
    rw [span, List.concat_eq_append, sideBySide_append, Nat.zero_add]
    exact ⟨token, by simp [sideBySide]⟩

theorem Tracked.of_refusal (h : Tracked program tokens r) {refusal : ParseFault}
    (ended : r.result = some (some (.parse refusal))) :
    r.span = ⟨program, r.offset, program.length - r.offset⟩ ∧
      refusal = .unknownToken (Text.skipBlanks r.span.inside) := by
  obtain ⟨rfl, reads, offset, halted⟩ := h
  rw [Halted, ended] at halted
  obtain ⟨span, unknown, notEmpty⟩ := halted
  refine ⟨span, ?_⟩
  have inside : r.offset ≤ r.program.length := offset ▸ reads.rest_eq.1
  have left : r.span.inside = r.program.drop r.offset := by
    rw [span, ← Int.ofNat_sub inside]
    exact (Span.inside_ofNat ..).trans (List.take_of_length_le (by simp))
  rw [left]
  exact unknown_of_scan unknown notEmpty

end Ended

/-- Where runs are in their programs. However often a run is resumed, the tokens it has attempted lie
    side by side in the program from its front, each in a span that holds its piece and is read back
    as that token. The offset is the extent of the tokens. The span ends at the offset; only if the
    text cannot be read it is all that is left of it, and the fault names this text without the
    blanks in front. A fault of a token leaves its span. A run that succeeds has come to the end of
    the program, less the blanks there. The parts of the span always make up the program. -/
theorem spans_track_runs (program : Text) (inAdvance interactive : Bool)
    (args : Option (List Text)) (r₀ r : Run) (m₀ m : Machine) (k : Nat)
    (answers : List (Option Answer)) (begun : start program inAdvance args interactive = .ok r₀)
    (reached : r₀.resumeMany m₀ k = (answers, r, m)) :
    ∃ tokens : List (Token × Nat),
      r₀.attempts m₀ k = sideBySide program 0 tokens ∧
      (∀ token span, (token, span) ∈ r₀.attempts m₀ k →
        Piece span.inside token ∧ span.length = span.inside.length ∧
          scan span.inside = .ok (token, span.inside.length)) ∧
      r.offset = extent tokens ∧ r.offset ≤ program.length ∧
      ((∀ refusal, r.result ≠ some (some (.parse refusal))) → r.span.stop = r.offset) ∧
      (∀ fault, r.result = some (some fault) → (∀ refusal, fault ≠ .parse refusal) →
        ∃ token, (r₀.attempts m₀ k).getLast? = some (token, r.span)) ∧
      (∀ refusal, r.result = some (some (.parse refusal)) →
        r.span = ⟨program, r.offset, program.length - r.offset⟩ ∧
          refusal = .unknownToken (Text.skipBlanks r.span.inside)) ∧
      (r.result = some none → r.offset = (program.reverse.dropWhile Text.isBlank).length) ∧
      r.span.before ++ r.span.inside ++ r.span.after = program := by
  obtain ⟨tokens, attempted, tracked⟩ := (tracked_start begun).resumeMany m₀ k
  rw [reached, List.nil_append] at tracked
  have front : r₀.offset = 0 := by
    obtain ⟨feed, -, rfl⟩ := start_eq begun
    rfl
  rw [front] at attempted
  have inside : r.offset ≤ program.length := tracked.offset_eq ▸ tracked.reads.rest_eq.1
  refine ⟨tokens, attempted, ?_, tracked.offset_eq, inside, ?_, ?_, fun _ => tracked.of_refusal,
    tracked.of_success, ?_⟩
  · intro token span member
    rw [attempted] at member
    have reads : Reads (program.drop 0) tokens (program.drop r.offset) := tracked.reads
    exact reads.piece_of_mem member
  · intro readable
    obtain span | ⟨refusal, ended, -⟩ := tracked.span_cases
    · obtain ⟨pos, n, last, stop⟩ := exists_lastSpan program tokens
      rw [span, last, tracked.offset_eq, ← stop]
      exact (Int.natCast_add pos n).symm
    · exact absurd ended (readable refusal)
  · intro fault ended notParse
    rw [attempted]
    exact tracked.of_fault ended notParse
  · obtain span | ⟨refusal, -, span⟩ := tracked.span_cases
    · obtain ⟨pos, n, last, -⟩ := exists_lastSpan program tokens
      rw [span, last]
      exact Span.parts_append program pos n
    · rw [span, ← Int.ofNat_sub inside]
      exact Span.parts_append program r.offset (program.length - r.offset)

/-- The second token has no ninth character to pick. Its span is left behind, and the concatenation
    after it is not attempted. -/
theorem spans_track_runs_index :
    ∃ r₀ r m answers, start [' ', '*', '\t', '|', '9', '|', '~'] false none false = .ok r₀ ∧
      r₀.resumeMany ⟨[.string ['a', 'b']], {}⟩ 3 = (answers, r, m) ∧
      (∃ fault, r.result = some (some (.range fault))) ∧ r.span.stop = r.offset ∧
      ∃ token, (r₀.attempts ⟨[.string ['a', 'b']], {}⟩ 3).getLast? = some (token, r.span) := by
  obtain ⟨tokens, -, -, -, -, stops, failed, -⟩ :=
    spans_track_runs [' ', '*', '\t', '|', '9', '|', '~'] false false none _ _
      ⟨[.string ['a', 'b']], {}⟩ _ 3 _ rfl rfl
  refine ⟨_, _, _, _, rfl, rfl, ⟨_, rfl⟩, stops ?_, failed _ rfl ?_⟩
  · intro refusal same
    cases same
  · intro refusal same
    cases same

end Run

end QueueScript
