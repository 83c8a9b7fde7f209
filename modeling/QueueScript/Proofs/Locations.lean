import QueueScript.Proofs.Spans
import QueueScript.Proofs.Supply

/-! # Where a failure is reported

The report of a failure gives the line and the column of its place, which is the first character of
the failing instruction, or of what cannot be read, that is not a blank. Lines end at line feeds here,
so the line counts the line feeds before the place, and the column counts from the last of them. Places
are told apart by their lines and columns, and come in the same order (`lineCol_lt`).

A program that is all white space has no place in its report, even where it fails.
-/

namespace QueueScript

namespace Text

/-- What stands behind the last line feed, or the whole text. -/
def lastLine (t : Text) : Text :=
  (t.reverse.takeWhile (· != '\n')).reverse

theorem lastLine_append_of_mem {a b : Text} (h : '\n' ∈ b) : lastLine (a ++ b) = lastLine b := by
  have stops : ¬ ((b.reverse.takeWhile (· != '\n')).length = b.reverse.length) := by
    intro all
    have same := (List.takeWhile_prefix (l := b.reverse) (· != '\n')).eq_of_length all
    have member := List.mem_reverse.mpr h
    rw [← same] at member
    have kept := List.all_eq_true.mp List.all_takeWhile '\n' member
    cases kept
  rw [lastLine, List.reverse_append, List.takeWhile_append, if_neg stops, lastLine]

theorem lastLine_append_of_not_mem {a b : Text} (h : '\n' ∉ b) :
    lastLine (a ++ b) = lastLine a ++ b := by
  have all : ∀ c ∈ b.reverse, (c != '\n') = true := by
    intro c member
    rw [bne_iff_ne]
    rintro rfl
    exact h (List.mem_reverse.mp member)
  rw [lastLine, List.reverse_append, List.takeWhile_append_of_pos all, List.reverse_append,
    List.reverse_reverse, lastLine]

theorem not_mem_lastLine (t : Text) : '\n' ∉ lastLine t := by
  intro member
  have kept := List.all_eq_true.mp List.all_takeWhile '\n' (List.mem_reverse.mp member)
  cases kept

theorem exists_ended_lines (t : Text) :
    ∃ ended, t = ended ++ lastLine t ∧ ∀ c ∈ ended.getLast?, c = '\n' := by
  refine ⟨(t.reverse.dropWhile (· != '\n')).reverse, ?_, ?_⟩
  · rw [lastLine, ← List.reverse_append, List.takeWhile_append_dropWhile, List.reverse_reverse]
  · intro c member
    have stops := List.head?_dropWhile_not (· != '\n') t.reverse
    rw [List.getLast?_reverse] at member
    rw [Option.mem_def.mp member] at stops
    simpa using stops

/-- The place behind a text is on this line and at this column: as many line feeds come before, and
    so many characters stand behind the last of them. -/
structure PlacedAt (before : Text) (line col : Nat) : Prop where
  line_eq : line = before.count '\n' + 1
  col_eq : ∃ ended current, before = ended ++ current ∧ (∀ c ∈ ended.getLast?, c = '\n') ∧
    '\n' ∉ current ∧ col = current.length + 1

theorem placedAt (before : Text) :
    PlacedAt before (before.count '\n' + 1) (before.lastLine.length + 1) := by
  obtain ⟨ended, whole, ends⟩ := exists_ended_lines before
  exact ⟨rfl, ended, before.lastLine, whole, ends, not_mem_lastLine before, rfl⟩

theorem lineCol_length (before after : Text) :
    lineCol (before ++ after) before.length =
      (before.count '\n' + 1, ((before.lastLine.length + 1 : Nat) : Int)) := by
  have short : (before.reverse.takeWhile (· != '\n')).length ≤ before.length := by
    calc (before.reverse.takeWhile (· != '\n')).length
      _ ≤ before.reverse.length := (List.takeWhile_prefix _).length_le
      _ = before.length := List.length_reverse
  simp only [lineCol, upTo_ofNat, List.take_left, lastLine, List.length_reverse, Prod.mk.injEq,
    true_and]
  omega

theorem lineCol_lt {t : Text} {p q : Nat} (less : p < q) (inside : q ≤ t.length) :
    Prod.Lex (· < ·) (· < ·) (lineCol t p) (lineCol t q) := by
  obtain ⟨a, b, c, rfl, rfl, rfl⟩ :
      ∃ a b c : Text, t = a ++ b ++ c ∧ p = a.length ∧ q = (a ++ b).length := by
    refine ⟨t.take p, (t.drop p).take (q - p), t.drop q, ?_, ?_, ?_⟩
    · rw [← List.take_add, Nat.add_sub_cancel' (Nat.le_of_lt less), List.take_append_drop]
    · rw [List.length_take]
      omega
    · simp only [List.length_append, List.length_take, List.length_drop]
      omega
  have first := lineCol_length a (b ++ c)
  rw [← List.append_assoc] at first
  rw [first, lineCol_length (a ++ b) c, List.count_append]
  by_cases feed : '\n' ∈ b
  · have ends : 0 < b.count '\n' := List.count_pos_iff.mpr feed
    exact .left _ _ (by omega)
  · rw [lastLine_append_of_not_mem feed, List.count_eq_zero_of_not_mem feed]
    rw [List.length_append] at less ⊢
    exact .right _ (by omega)

theorem lineCol_injective {t : Text} {p q : Nat} (hp : p ≤ t.length) (hq : q ≤ t.length)
    (same : lineCol t p = lineCol t q) : p = q := by
  have irrefl (x : Nat × Int) : ¬ Prod.Lex (· < ·) (· < ·) x x := by
    intro h
    cases h with
    | left _ _ less => exact Nat.lt_irrefl _ less
    | right _ less => exact Int.lt_irrefl _ less
  rcases Nat.lt_trichotomy p q with less | rfl | less
  · have strict := lineCol_lt less hq
    rw [same] at strict
    exact absurd strict (irrefl _)
  · rfl
  · have strict := lineCol_lt less hp
    rw [same] at strict
    exact absurd strict (irrefl _)

theorem skipBlanks_of_gap {gap rest : Text} {c : Char} (blank : ∀ d ∈ gap, isBlank d = true)
    (solid : isBlank c = false) : skipBlanks (gap ++ c :: rest) = c :: rest := by
  rw [skipBlanks, List.dropWhile_append_of_pos blank, List.dropWhile_cons_of_neg (by simp [solid])]

theorem firstNonBlank_of_gap {front gap rest : Text} {c : Char} (blank : ∀ d ∈ gap, isBlank d = true)
    (solid : isBlank c = false) :
    (front ++ (gap ++ c :: rest)).firstNonBlank front.length = front.length + gap.length := by
  rw [firstNonBlank, suffixFrom_ofNat, List.drop_left, skipBlanks_of_gap blank solid]
  simp only [List.length_append]
  omega

end Text

/-! ## Reports -/

def Problem.locatedHeadline (p : Problem) (line col : Nat) : Text :=
  p.headline ++ " (line ".toList ++ Text.ofNat line ++ ", col ".toList ++ Text.ofNat col ++ ")\n".toList

theorem Problem.report_of_place (p : Problem) {span : Span} {before rest : Text} {c : Char}
    (whole : span.program = before ++ c :: rest)
    (start : span.program.firstNonBlank span.start = before.length) :
    p.report (some span) =
      if Text.isAllSpace span.program then p.headline
      else
        p.locatedHeadline (before.count '\n' + 1) (before.lastLine.length + 1) ++
          Report.excerpt span.program (before.count '\n' + 1 : Nat)
            (some (before.lastLine.length + 1 : Nat)) (max (span.stop - before.length) 1) 2 := by
  have inside : ¬ span.program.length ≤ before.length := by
    rw [whole, List.length_append, List.length_cons]
    omega
  have place := Text.lineCol_length before (c :: rest)
  rw [← whole] at place
  simp only [report, start, decide_eq_false inside, Bool.or_false, place]
  rfl

theorem Problem.headline_ne_located (p : Problem) (line col : Nat) (excerpt : Text) :
    p.headline ≠ p.locatedHeadline line col ++ excerpt := by
  intro same
  have longer := congrArg List.length same
  simp [locatedHeadline] at longer

/-! ## Failing runs -/

namespace Run

theorem exists_reaches_of_finish {r r' : Run} {m m' : Machine} {ending : Option Fault}
    (h : r.finish m = some (ending, r', m')) :
    ∃ tokens s mₛ found, Reaches r m tokens s mₛ ∧ s.resume mₛ = some (found, r', m') ∧
      found.stop = some ending := by
  unfold finish at h
  fun_induction drive (fun _ _ m => m) r m with
  | case1 => cases h
  | case2 r m ending r' m' next | case3 r m fault r' m' next =>
      cases h
      exact ⟨[], r, m, _, .refl r m, next, rfl⟩
  | case4 r m token n r₁ m₁ next ih =>
      obtain ⟨tokens, s, mₛ, found, reached, last⟩ := ih h
      exact ⟨(token, n) :: tokens, s, mₛ, found, .step next reached, last⟩

theorem tokenize_of_refused {program : Text} {inAdvance interactive : Bool} {args : Option (List Text)}
    {refusal : ParseFault} (h : start program inAdvance args interactive = .error refusal) :
    tokenize program = .error refusal := by
  cases inAdvance with
  | false => cases h
  | true =>
      cases read : tokenize program with
      | error fault =>
          rw [start_inAdvance_of_error read] at h
          cases h
          rfl
      | ok tokens =>
          obtain ⟨_, _, -, begun, -⟩ := exists_start read args interactive
          cases begun.symm.trans h

theorem Tracked.reaches {program : Text} {early tokens : List (Token × Nat)} {r s : Run}
    {m mₛ : Machine} (h : Tracked program early r) (reached : Reaches r m tokens s mₛ) :
    Tracked program (early ++ tokens) s := by
  induction reached generalizing early with
  | refl r m =>
      rw [List.append_nil]
      exact h
  | @step r r' s m m' mₛ token n tokens taken _ ih =>
      obtain ⟨-, -, fed⟩ := feed_of_yielded taken
      obtain ⟨_, _, _, fed', -, -, tracked⟩ | ⟨_, _, ended, -⟩ := h.resume taken
      · cases fed.symm.trans fed'
        have later := ih tracked
        rw [List.append_assoc] at later
        exact later
      · cases fed.symm.trans ended

/-- A failing step leaves its span at the offset, and there is something to be read. -/
theorem Tracked.place_of_failure {program : Text} {tokens : List (Token × Nat)} {r r' : Run}
    {m m' : Machine} {found : Answer} {fault : Fault} (h : Tracked program tokens r)
    (failed : r.resume m = some (found, r', m')) (stopped : found.stop = some (some fault)) :
    r'.span.program = program ∧ r'.span.start = extent tokens ∧
      scan (program.drop (extent tokens)) ≠ .error .empty := by
  obtain ⟨running, ⟨f', ending, next, same, rfl, rfl⟩ |
    ⟨f', token, n, outcome, args, next, done, same, rfl⟩⟩ := resume_inversion failed
  · rw [same] at stopped
    cases stopped
    obtain ⟨g', atOffset, -⟩ := h.cursor_resume running next
    refine ⟨h.program_eq, congrArg Nat.cast h.offset_eq, ?_⟩
    rw [← h.offset_eq]
    obtain ⟨-, ⟨_, _, _, ended, _⟩ | ⟨_, ended, _⟩ | ⟨left, unknown, _, _⟩⟩ :=
      Feed.resume_cursor_cases atOffset
    · cases ended
    · cases ended
    · simp only at unknown
      rw [unknown]
      nofun
  · obtain ⟨g', atOffset, -⟩ := h.cursor_resume running next
    refine ⟨h.program_eq, congrArg Nat.cast h.offset_eq, ?_⟩
    rw [← h.offset_eq]
    obtain ⟨-, ⟨_, _, scanned, _, _⟩ | ⟨_, ended, _⟩ | ⟨_, _, ended, _⟩⟩ :=
      Feed.resume_cursor_cases atOffset
    · simp only at scanned
      rw [scanned]
      nofun
    · cases ended
    · cases ended

end Run

theorem Reads.exists_front {t rest : Text} {tokens : List (Token × Nat)} (h : Reads t tokens rest) :
    ∃ front, t = front ++ rest ∧ front.length = extent tokens := by
  obtain ⟨inside, rfl⟩ := h.rest_eq
  refine ⟨t.take (extent tokens), (List.take_append_drop ..).symm, ?_⟩
  rw [List.length_take]
  omega

theorem exists_solid_of_scan {t : Text} (h : scan t ≠ .error .empty) :
    ∃ gap c rest, t = gap ++ c :: rest ∧ (∀ d ∈ gap, Text.isBlank d = true) ∧
      Text.isBlank c = false := by
  obtain ⟨gap, body, rfl, blank, head⟩ := Grammar.exists_gap t
  cases body with
  | nil => exact absurd (Grammar.scan_of_empty blank) h
  | cons c rest =>
      refine ⟨gap, c, rest, rfl, fun d member => Grammar.isBlank_iff.mpr (blank d member), ?_⟩
      rw [Bool.eq_false_iff]
      exact fun isBlank => head c rfl (Grammar.isBlank_iff.mp isBlank)

theorem Unreadable.reads {t left : Text} {tokens : List (Token × Nat)} (h : Unreadable t tokens left) :
    ∃ rest, Reads t tokens rest ∧ scan rest = .error (.unknownToken left) := by
  induction h with
  | @here t left found => exact ⟨t, .stop t, found⟩
  | later found _ ih =>
      obtain ⟨rest, reads, unknown⟩ := ih
      exact ⟨rest, .next found reads, unknown⟩

theorem Unreadable.exists_parts {t left : Text} {tokens : List (Token × Nat)}
    (h : Unreadable t tokens left) :
    ∃ front gap c rest, t = front ++ (gap ++ c :: rest) ∧ front.length = extent tokens ∧
      (∀ d ∈ gap, Text.isBlank d = true) ∧ Text.isBlank c = false ∧ left = c :: rest ∧
      Reads t tokens (gap ++ c :: rest) := by
  obtain ⟨behind, reads, unknown⟩ := h.reads
  have more : scan behind ≠ .error .empty := by
    rw [unknown]
    intro empty
    cases empty
  obtain ⟨gap, c, rest, rfl, blank, solid⟩ := exists_solid_of_scan more
  obtain ⟨front, whole, long⟩ := reads.exists_front
  have same := unknown_of_scan unknown (by intro empty; cases empty)
  rw [Text.skipBlanks_of_gap blank solid] at same
  exact ⟨front, gap, c, rest, whole, long, blank, solid, ParseFault.unknownToken.inj same, reads⟩

theorem ParseFault.span_append (before left : Text) :
    (unknownToken left).span (before ++ left) = ⟨before ++ left, before.length, left.length⟩ := by
  have suffix : left.isSuffixOf (before ++ left) = true :=
    List.isSuffixOf_iff_suffix.mpr (List.suffix_append ..)
  simp only [span, suffix, if_true, List.length_append, Span.mk.injEq, true_and, and_true]
  omega

namespace Machine

/-- A batch run fails behind the tokens: it is refused because no more of the program can be read, or
    it executes them with success and then ends with the fault. -/
def FailsBehind (m : Machine) (job : Job) (tokens : List (Token × Nat)) (fault : Fault) : Prop :=
  match job.start with
  | .error refusal => fault = .parse refusal ∧ ∃ left, Unreadable job.program tokens left
  | .ok r => r.Fails m tokens fault

theorem place_of_refusal {program : Text} {refusal : ParseFault}
    (read : tokenize program = .error refusal) :
    ∃ tokens left gap c rest, Unreadable program tokens left ∧
      Reads program tokens (gap ++ c :: rest) ∧ (∀ d ∈ gap, Text.isBlank d = true) ∧
      Text.isBlank c = false ∧ (refusal.span program).program = program ∧
      program.firstNonBlank (refusal.span program).start = extent tokens + gap.length := by
  obtain ⟨tokens, left, rfl, unreadable, -⟩ := Feed.script_ofProgram_of_error read
  obtain ⟨front, gap, c, rest, rfl, long, blank, solid, rfl, reads⟩ := unreadable.exists_parts
  have place := @Text.firstNonBlank_of_gap (front ++ gap) [] rest c nofun solid
  have span := ParseFault.span_append (front ++ gap) (c :: rest)
  rw [List.append_assoc] at span
  rw [List.nil_append, List.append_assoc, List.length_append, long] at place
  rw [List.length_append, long] at span
  refine ⟨tokens, _, gap, c, rest, unreadable, reads, blank, solid, ?_⟩
  rw [span]
  exact ⟨rfl, place⟩

theorem place_of_fault {program : Text} {inAdvance interactive : Bool} {args : Option (List Text)}
    {r r' : Run} {m m' : Machine} {fault : Fault}
    (begun : Run.start program inAdvance args interactive = .ok r)
    (finished : r.finish m = some (some fault, r', m')) :
    ∃ tokens gap c rest, r.Fails m tokens fault ∧
      Reads program tokens (gap ++ c :: rest) ∧ (∀ d ∈ gap, Text.isBlank d = true) ∧
      Text.isBlank c = false ∧ r'.span.program = program ∧
      program.firstNonBlank r'.span.start = extent tokens + gap.length := by
  obtain ⟨tokens, s, mₛ, found, reached, last, stopped⟩ := Run.exists_reaches_of_finish finished
  have tracked := (Run.tracked_start begun).reaches reached
  rw [List.nil_append] at tracked
  obtain ⟨sameProgram, start, more⟩ := tracked.place_of_failure last stopped
  have reads := tracked.reads
  rw [tracked.offset_eq] at reads
  obtain ⟨gap, c, rest, left, blank, solid⟩ := exists_solid_of_scan more
  rw [left] at reads
  obtain ⟨front, rfl, long⟩ := reads.exists_front
  refine ⟨tokens, gap, c, rest, ⟨s, mₛ, found, r', m', reached, last, stopped⟩, reads, blank, solid,
    sameProgram, ?_⟩
  rw [start, ← long]
  exact Text.firstNonBlank_of_gap blank solid

theorem runProgram_of_refused {program : Text} {inputs : List Text} {inAdvance : Bool}
    {refusal : ParseFault} (h : (⟨program, inputs, inAdvance⟩ : Job).start = .error refusal)
    (m : Machine) :
    m.runProgram program inputs inAdvance =
      (.failure (.parse refusal) (refusal.span program), m.logUnreadable program) := by
  unfold Job.start at h
  simp only [runProgram, h]

theorem runProgram_of_finish {m m' : Machine} {program : Text} {inputs : List Text} {inAdvance : Bool}
    {r r' : Run} {ending : Option Fault} (begun : (⟨program, inputs, inAdvance⟩ : Job).start = .ok r)
    (finished : r.finish m = some (ending, r', m')) :
    m.runProgram program inputs inAdvance = (.ofFault r'.span ending, m') := by
  unfold Job.start at begun
  simp only [runProgram, begun, finished]

theorem finish_of_failure {m m' : Machine} {program : Text} {inputs : List Text} {inAdvance : Bool}
    {r : Run} {fault : Fault} {span : Span} (begun : (⟨program, inputs, inAdvance⟩ : Job).start = .ok r)
    (failed : m.runProgram program inputs inAdvance = (.failure fault span, m')) :
    ∃ r', r.finish m = some (some fault, r', m') ∧ r'.span = span := by
  obtain ⟨ending, r', mₑ, finished⟩ := Run.exists_finish begun m
  rw [runProgram_of_finish begun finished] at failed
  obtain ⟨failure, rfl⟩ := Prod.mk.inj failed
  obtain ⟨rfl, -, rfl⟩ := Verdict.ofFault_eq_failure_iff.mp failure
  exact ⟨r', finished, rfl⟩

theorem place_of_failure {m m' : Machine} {program : Text} {inputs : List Text} {inAdvance : Bool}
    {fault : Fault} {span : Span}
    (h : m.runProgram program inputs inAdvance = (.failure fault span, m')) :
    ∃ tokens gap c rest, m.FailsBehind ⟨program, inputs, inAdvance⟩ tokens fault ∧
      Reads program tokens (gap ++ c :: rest) ∧ (∀ d ∈ gap, Text.isBlank d = true) ∧
      Text.isBlank c = false ∧ span.program = program ∧
      program.firstNonBlank span.start = extent tokens + gap.length := by
  cases begun : (⟨program, inputs, inAdvance⟩ : Job).start with
  | error refusal =>
      rw [runProgram_of_refused begun] at h
      cases h
      obtain ⟨tokens, left, gap, c, rest, unreadable, place⟩ :=
        place_of_refusal (Run.tokenize_of_refused begun)
      refine ⟨tokens, gap, c, rest, ?_, place⟩
      rw [FailsBehind, begun]
      exact ⟨rfl, left, unreadable⟩
  | ok r =>
      obtain ⟨r', finished, rfl⟩ := finish_of_failure begun h
      obtain ⟨tokens, gap, c, rest, fails, place⟩ := place_of_fault begun finished
      refine ⟨tokens, gap, c, rest, ?_, place⟩
      rw [FailsBehind, begun]
      exact fails

/-- Failures are located exactly. A batch run that fails does so behind some tokens of its program, and
    the first character from there on that is not a blank is its place. Unless the program is all white
    space, the report gives the line and the column of this place: the line counts the line feeds
    before it, and the column the characters behind the last of them. A program that is all white
    space has nothing but the headline. Places are told apart by line and column, and are in their
    order. -/
theorem failures_are_located (m m' : Machine) (program : Text) (inputs : List Text) (inAdvance : Bool)
    (fault : Fault) (span : Span)
    (failed : m.runProgram program inputs inAdvance = (.failure fault span, m')) :
    (∃ (tokens : List (Token × Nat)) (before gap rest : Text) (c : Char) (line col : Nat),
      m.FailsBehind ⟨program, inputs, inAdvance⟩ tokens fault ∧
      program = before ++ c :: rest ∧ Reads program tokens (gap ++ c :: rest) ∧
      (∀ d ∈ gap, Text.isBlank d = true) ∧ Text.isBlank c = false ∧
      Text.PlacedAt before line col ∧ Text.lineCol program before.length = (line, (col : Int)) ∧
      (Text.isAllSpace program = false ↔ ∃ excerpt, (Verdict.failure fault span).report =
        (Problem.fault fault).locatedHeadline line col ++ excerpt) ∧
      (Text.isAllSpace program = true →
        (Verdict.failure fault span).report = (Problem.fault fault).headline)) ∧
    ∀ p q : Nat, p ≤ program.length → q ≤ program.length →
      (Text.lineCol program p = Text.lineCol program q → p = q) ∧
      (p < q → Prod.Lex (· < ·) (· < ·) (Text.lineCol program p) (Text.lineCol program q)) := by
  constructor
  · obtain ⟨tokens, gap, c, rest, behind, reads, blank, solid, same, start⟩ := place_of_failure failed
    obtain ⟨front, whole, long⟩ := reads.exists_front
    rw [← List.append_assoc] at whole
    rw [← long, ← List.length_append, ← same] at start
    have report := (Problem.fault fault).report_of_place (same.trans whole) start
    rw [same] at report
    refine ⟨tokens, front ++ gap, gap, rest, c, _, _, behind, whole, reads, blank, solid,
      Text.placedAt _, ?_, ⟨?_, ?_⟩, ?_⟩
    · rw [whole]
      exact Text.lineCol_length ..
    · intro visible
      rw [visible] at report
      exact ⟨_, report⟩
    · rintro ⟨excerpt, located⟩
      rw [Bool.eq_false_iff]
      intro unseen
      rw [if_pos unseen] at report
      exact Problem.headline_ne_located _ _ _ _ (report.symm.trans located)
    · intro unseen
      rw [if_pos unseen] at report
      exact report
  · intro p q hp hq
    exact ⟨Text.lineCol_injective hp hq, fun less => Text.lineCol_lt less hq⟩

/-- On the second line there is only one value to concatenate. -/
theorem failures_are_located_second_line :
    let m : Machine := { console := { input := ['a'] } }
    let program : Text := ['<', '\n', ' ', '~']
    let fault : Fault := .kind (.queueTooShort 2 1)
    m.runProgram program [] false = (.failure fault ⟨program, 1, 3⟩, ⟨[.string ['a']], {}⟩) ∧
    (∃ line col excerpt, (Verdict.failure fault ⟨program, 1, 3⟩).report =
      (Problem.fault fault).locatedHeadline line col ++ excerpt) ∧
    (Verdict.failure fault ⟨program, 1, 3⟩).report =
      (Problem.fault fault).locatedHeadline 2 2 ++ "  1 | <\n> 2 |  ~\n    |  ^".toList := by
  intro m program fault
  have read : tokenize program = .ok [(.input, 1), (.concat, 3)] := by
    rw [tokenize_of_scan rfl, tokenize_of_scan rfl, tokenize_of_empty rfl]
    rfl
  have failed : m.runProgram program [] false =
      (.failure fault ⟨program, 1, 3⟩, ⟨[.string ['a']], {}⟩) :=
    Run.runProgram_of_tokenize read rfl false
  obtain ⟨_, _, _, _, _, line, col, -, -, -, -, -, -, -, located, -⟩ :=
    (failures_are_located m _ program [] false fault _ failed).1
  exact ⟨failed, ⟨line, col, located.mp (by decide)⟩, by decide⟩

/-- A no-break space is no blank, so a program of nothing else fails, and its report has no place. -/
theorem white_space_failure_is_not_located :
    ∃ fault span, ({} : Machine).runProgram ['\u00a0'] [] false = (.failure fault span, {}) ∧
      Text.isBlank '\u00a0' = false ∧
      ∀ line col excerpt, (Verdict.failure fault span).report ≠
        (Problem.fault fault).locatedHeadline line col ++ excerpt := by
  have failed : ({} : Machine).runProgram ['\u00a0'] [] false =
      (.failure (.parse (.unknownToken ['\u00a0'])) ⟨['\u00a0'], 0, 1⟩, {}) := by
    rw [Run.runProgram_of_script (Feed.script_of_completed rfl)]
    rfl
  refine ⟨_, _, failed, by decide, ?_⟩
  intro line col excerpt located
  have bare : (Verdict.failure (.parse (.unknownToken ['\u00a0'])) ⟨['\u00a0'], 0, 1⟩).report =
      (Problem.fault (.parse (.unknownToken ['\u00a0']))).headline := by decide
  exact Problem.headline_ne_located _ _ _ _ (bare.symm.trans located)

end Machine

end QueueScript
