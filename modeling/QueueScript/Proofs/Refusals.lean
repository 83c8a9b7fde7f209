import QueueScript.Proofs.Locations

/-! # How unreadable programs are reported

That a program cannot be read is found in two places. Reading in advance looks for the text of the fault
at the end of the program, and its span begins with that text. A run that reads on demand has executed
the tokens before it, and its span begins where they end, with the blanks that are still to be skipped.
A report skips blanks at the front of a span and both spans go to the end of the program, so the reports
are the same (`Problem.report_congr`).
-/

namespace QueueScript

/-- A report depends on the place of its span and on where the span ends. -/
theorem Problem.report_congr (p : Problem) {a b : Span} (program : b.program = a.program)
    (place : b.program.firstNonBlank b.start = a.program.firstNonBlank a.start)
    (stop : b.stop = a.stop) : p.report (some b) = p.report (some a) := by
  simp only [report, place, stop]
  rw [program]

theorem Unreadable.span_eq {program left : Text} {tokens : List (Token × Nat)}
    (h : Unreadable program tokens left) :
    let place := program.firstNonBlank (extent tokens)
    left.isSuffixOf program = true ∧ place < program.length ∧
      (ParseFault.unknownToken left).span program = ⟨program, place, program.length - place⟩ := by
  obtain ⟨front, gap, c, rest, rfl, long, blank, solid, rfl, -⟩ := h.exists_parts
  intro place
  have found : place = front.length + gap.length := by
    rw [← Text.firstNonBlank_of_gap blank solid, long]
  have span := ParseFault.span_append (front ++ gap) (c :: rest)
  rw [List.append_assoc] at span
  rw [span, found]
  refine ⟨?_, ?_, ?_⟩
  · rw [List.isSuffixOf_iff_suffix, ← List.append_assoc]
    exact List.suffix_append ..
  · simp only [List.length_append, List.length_cons]
    omega
  · simp only [List.length_append, Span.mk.injEq, true_and]
    omega

theorem Unreadable.report_eq {program left : Text} {tokens : List (Token × Nat)}
    (h : Unreadable program tokens left) (p : Problem) :
    p.report (some ⟨program, extent tokens, program.length - extent tokens⟩) =
      p.report (some ((ParseFault.unknownToken left).span program)) := by
  obtain ⟨-, -, span⟩ := h.span_eq
  obtain ⟨front, gap, c, rest, rfl, long, blank, solid, rfl, -⟩ := h.exists_parts
  have place := @Text.firstNonBlank_of_gap front gap rest c blank solid
  have again := @Text.firstNonBlank_of_gap (front ++ gap) [] rest c nofun solid
  rw [List.append_assoc, List.length_append] at again
  rw [long] at place again
  rw [span]
  apply Problem.report_congr
  · rfl
  · rw [place]
    exact again.symm
  · simp only [Span.stop]
    omega

namespace Run

variable {program : Text} {refusal : ParseFault} {tokens : List (Token × Nat)} {inAdvance : Bool}
  {args : Option (List Text)} {interactive : Bool} {r : Run} {m : Machine}

theorem finish_of_unreadable_reached {s : Run} {mₛ : Machine}
    (script : (Feed.cursor (.ofProgram program)).script = some (tokens, some (.parse refusal)))
    (begun : start program inAdvance args interactive = .ok r) (reached : r.Reaches m tokens s mₛ) :
    ∃ r' m', r.finish m = some (some (.parse refusal), r', m') ∧
      r'.span = ⟨program, extent tokens, program.length - extent tokens⟩ := by
  have tracked := (tracked_start begun).reaches reached
  obtain ⟨feed, made, rfl⟩ := start_eq begun
  obtain ⟨late, same, left, running⟩ :=
    reached.exists_late rfl ((Feed.script_ofProgram made).trans script)
  cases List.self_eq_append_right.mp same
  obtain ⟨f', next, -⟩ := Feed.resume_of_script_nil left
  refine ⟨_, _, reached.finish.trans (finish_of_completed (resume_of_completed running next mₛ)), ?_⟩
  simp only [conclude, tracked.program_eq, tracked.offset_eq, List.nil_append]

theorem reaches_of_refused {fault : ParseFault} {r' : Run} {m' : Machine}
    (script : (Feed.cursor (.ofProgram program)).script = some (tokens, some (.parse refusal)))
    (begun : start program inAdvance args interactive = .ok r)
    (finished : r.finish m = some (some (.parse fault), r', m')) :
    fault = refusal ∧ ∃ s mₛ, r.Reaches m tokens s mₛ := by
  obtain ⟨early, s, mₛ, found, reached, last, stopped⟩ := exists_reaches_of_finish finished
  obtain ⟨feed, made, rfl⟩ := start_eq begun
  obtain ⟨late, rfl, left, -⟩ := reached.exists_late rfl ((Feed.script_ofProgram made).trans script)
  obtain ⟨-, ⟨f', ending, next, rfl, -⟩ | ⟨_, token, n, outcome, _, -, done, rfl, -⟩⟩ :=
    resume_inversion last
  · cases stopped
    cases left.symm.trans (Feed.script_of_completed next)
    rw [List.append_nil]
    exact ⟨rfl, s, mₛ, reached⟩
  · cases outcome with
    | ok _ => cases stopped
    | error fault =>
        rw [answer_error_stop] at stopped
        cases stopped
        exact absurd rfl (exec_ne_parse (congrArg Prod.fst done) _)

end Run

namespace Machine

/-- Both ways to find that a program cannot be read report the same. If the tokens can be read and then no
    more, the text of the fault ends the program, so its span is found: it goes from the first character
    behind the tokens that is not a blank to the end, and is the whole program only if it begins there.
    A run that reads on demand ends with this fault if and only if it gets through the tokens, on
    whatever machine and with whatever lines. Its span has the blanks in front, and its report is that of
    any run that reads in advance. -/
theorem refusals_are_reported_alike (program : Text) (refusal : ParseFault)
    (unread : tokenize program = .error refusal) :
    ∃ (tokens : List (Token × Nat)) (left : Text),
      refusal = .unknownToken left ∧ Unreadable program tokens left ∧
      left.isSuffixOf program = true ∧
      (let place := program.firstNonBlank (extent tokens);
        refusal.span program = ⟨program, place, program.length - place⟩ ∧
        (refusal.span program = ⟨program, 0, program.length⟩ ↔ place = 0)) ∧
      ∀ (m other : Machine) (inputs others : List Text),
        other.runProgram program others true =
          (.failure (.parse refusal) (refusal.span program), other.logUnreadable program) ∧
        ((∃ r s mₛ, (⟨program, inputs, false⟩ : Job).start = .ok r ∧ r.Reaches m tokens s mₛ) ↔
          ∃ fault span m', m.runProgram program inputs false = (.failure (.parse fault) span, m')) ∧
        ∀ fault span m', m.runProgram program inputs false = (.failure (.parse fault) span, m') →
          fault = refusal ∧ span = ⟨program, extent tokens, program.length - extent tokens⟩ ∧
          (Verdict.failure (.parse fault) span).report =
            (other.runProgram program others true).1.report := by
  obtain ⟨tokens, left, rfl, unreadable, script⟩ := Feed.script_ofProgram_of_error unread
  obtain ⟨suffix, inside, span⟩ := unreadable.span_eq
  refine ⟨tokens, left, rfl, unreadable, suffix, ⟨span, ?_⟩, ?_⟩
  · rw [span]
    simp only [Span.mk.injEq, true_and]
    omega
  · intro m other inputs others
    obtain ⟨r, begun⟩ : ∃ r, (⟨program, inputs, false⟩ : Job).start = .ok r := ⟨_, rfl⟩
    have refused := Run.runProgram_inAdvance_of_error unread other others
    refine ⟨refused, ⟨?_, ?_⟩, ?_⟩
    · rintro ⟨r₁, s, mₛ, begun₁, reached⟩
      obtain ⟨r', m', finished, -⟩ := Run.finish_of_unreadable_reached script begun₁ reached
      exact ⟨_, _, _, runProgram_of_finish begun₁ finished⟩
    · rintro ⟨fault, span, m', failed⟩
      obtain ⟨r', finished, -⟩ := finish_of_failure begun failed
      obtain ⟨-, s, mₛ, reached⟩ := Run.reaches_of_refused script begun finished
      exact ⟨r, s, mₛ, begun, reached⟩
    · intro fault span m' failed
      obtain ⟨r', finished, rfl⟩ := finish_of_failure begun failed
      obtain ⟨rfl, s, mₛ, reached⟩ := Run.reaches_of_refused script begun finished
      obtain ⟨r₁, m₁, again, spanned⟩ := Run.finish_of_unreadable_reached script begun reached
      cases finished.symm.trans again
      rw [refused, spanned]
      exact ⟨rfl, rfl, unreadable.report_eq _⟩

/-- The text `?*?` is found at the end, although it begins with what it ends with. The run on demand has
    copied its value before, and its span begins with the line feed. -/
theorem refusals_are_reported_alike_second_line :
    let program : Text := ['*', '\n', '?', '*', '?']
    let refusal : ParseFault := .unknownToken ['?', '*', '?']
    let m : Machine := { queue := [.string ['a']] }
    let m' : Machine := { queue := [.string ['a'], .string ['a']] }
    tokenize program = .error refusal ∧
    m.runProgram program [] false = (.failure (.parse refusal) ⟨program, 1, 4⟩, m') ∧
    ({} : Machine).runProgram program [] true =
      (.failure (.parse refusal) ⟨program, 2, 3⟩, ({} : Machine).logUnreadable program) ∧
    (Verdict.failure (.parse refusal) ⟨program, 1, 4⟩).report =
      (Verdict.failure (.parse refusal) ⟨program, 2, 3⟩).report := by
  intro program refusal m m'
  have first : scan program = .ok (.copy, 1) := rfl
  have unreadable : Unreadable program [(.copy, 1)] ['?', '*', '?'] := .later first (.here rfl)
  have script : (Feed.cursor (.ofProgram program)).script =
      some ([(.copy, 1)], some (.parse refusal)) := by
    rw [Feed.script_of_yielded rfl, Feed.script_of_completed rfl]
    rfl
  have onDemand : m.runProgram program [] false = (.failure (.parse refusal) ⟨program, 1, 4⟩, m') := by
    rw [Run.runProgram_of_script script]
    rfl
  obtain ⟨tokens, left, -, -, -, -, alike⟩ :=
    refusals_are_reported_alike program refusal unreadable.tokenize
  obtain ⟨inAdvance, -, report⟩ := alike m {} [] []
  have same := (report _ _ _ onDemand).2.2
  rw [inAdvance] at same
  exact ⟨unreadable.tokenize, onDemand, inAdvance, same⟩

end Machine

end QueueScript
