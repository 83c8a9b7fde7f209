import QueueScript.Proofs.Reading
import QueueScript.Proofs.ReadingModes
import QueueScript.Proofs.Observation

/-! # Programs one after the other

Two programs that can be read are one program when they are put together, with the tokens of both. A
batch run of it does what the two do one after the other: the first part runs as it does alone
(`perform_shift` with no shift), and the second as it does alone on what the first has left, with
its spans later by the length of the first. The blanks that end the first program then belong to the
first instruction of the second, so it is the ends of the spans that move by that length.
-/

namespace QueueScript

namespace Run

theorem settle_run (r : Run) (m : Machine) (results : Except Fault (List Value)) :
    (r.settle m results).2.1 = r := by
  cases results <;> rfl

theorem exec_args_of_none {r : Run} (h : r.args = none) (token : Token) (m : Machine) :
    (r.exec token m).2.1.args = none := by
  cases token with
  | input =>
      have read : (r.readLine m).2.1.args = none := by simp [readLine, h]
      simp only [exec]
      split
      · rename_i result
        rw [result] at read
        rw [settle_run]
        exact read
      · rename_i result
        rw [result] at read
        exact read
  | output =>
      simp only [exec]
      split
      · exact h
      · split
        · rw [settle_run, h]
        · exact h
  | rotate count => exact h
  | concat | copy | apply operator =>
      simp only [exec]
      split <;> simp only [settle_run, h]

theorem perform_of_success {r s : Run} {m m' : Machine} {tokens : List (Token × Nat)}
    (h : r.perform m tokens = (none, s, m')) :
    s.offset = r.offset + extent tokens ∧ (r.args = none → s.args = none) ∧
      ∀ more, r.perform m (tokens ++ more) = s.perform m' more := by
  induction tokens generalizing r m with
  | nil =>
      cases h
      exact ⟨rfl, id, fun more => rfl⟩
  | cons first tokens ih =>
      obtain ⟨token, n⟩ := first
      have given := exec_args_of_none (r := { r with span := ⟨r.program, r.offset, n⟩ })
      obtain ⟨outcome, args, m'', effect⟩ :=
        exec_effect { r with span := ⟨r.program, r.offset, n⟩ } token m
      have here := effect r.feed
      simp only at here
      cases outcome with
      | error fault => simp [perform, here] at h
      | ok _ =>
          simp only [perform, here] at h
          obtain ⟨moved, kept, goesOn⟩ := ih h
          refine ⟨?_, ?_, ?_⟩
          · rw [moved, extent]
            exact Nat.add_assoc ..
          · intro none
            have same := given none token m
            rw [here] at same
            exact kept same
          · intro more
            simp only [List.cons_append, perform, here]
            exact goesOn more

/-- The same tokens in two runs that no instruction can tell apart, the second of them later in its
    program by a number of characters. -/
theorem perform_shift {shift gap : Nat} {r s : Run} {m m' : Machine} (smooth : r.Smooth m)
    (smooth' : s.Smooth m') (sameArgs : s.args = r.args) (later : s.offset + gap = r.offset + shift)
    (agree : m.Agree m') (tokens : List (Token × Nat)) :
    ∃ fault r' s' n n', r.perform m tokens = (fault, r', n) ∧
      s.perform m' (widen gap tokens) = (fault, s', n') ∧ n.Agree n' ∧
      (fault ≠ none → ∃ x k y l : Nat, r'.span = ⟨r.program, x, k⟩ ∧ s'.span = ⟨s.program, y, l⟩ ∧
        y + l = x + k + shift) := by
  induction tokens generalizing r s m m' gap with
  | nil => exact ⟨none, r, s, m, m', rfl, rfl, agree, fun failed => absurd rfl failed⟩
  | cons first tokens ih =>
      obtain ⟨token, n⟩ := first
      obtain ⟨outcome, args, n₁, n₂, left, right, still⟩ :=
        (exec_parallel (r := { r with span := ⟨r.program, r.offset, n⟩ })
          (s := { s with span := ⟨s.program, s.offset, (gap + n : Nat)⟩ }) sameArgs agree
          smooth smooth' token).eq
      have smooth₁ := Smooth.exec (r := { r with span := ⟨r.program, r.offset, n⟩ }) smooth token
      have smooth₂ :=
        Smooth.exec (r := { s with span := ⟨s.program, s.offset, (gap + n : Nat)⟩ }) smooth' token
      rw [left] at smooth₁
      rw [right] at smooth₂
      simp only [widen, perform, left, right]
      cases outcome with
      | error fault =>
          refine ⟨some fault, _, _, n₁, n₂, rfl, rfl, still, fun _ => ?_⟩
          exact ⟨r.offset, n, s.offset, gap + n, rfl, rfl, by omega⟩
      | ok _ =>
          -- The blanks are passed with the first token: from here on the offsets differ by the shift.
          have lag : s.offset + (gap + n) + 0 = r.offset + n + shift := by omega
          have next := ih
            (r := { r with span := ⟨r.program, r.offset, n⟩, args := args, offset := r.offset + n })
            (s := { s with
              span := ⟨s.program, s.offset, (gap + n : Nat)⟩
              args := args
              offset := s.offset + (gap + n) })
            smooth₁ smooth₂ rfl lag still
          rw [widen_zero] at next
          exact next

/-- A batch run before its first instruction. -/
def fresh (program : Text) : Run :=
  ⟨program, .cursor (.ofProgram program), none, false, 0, ⟨program, 0, 0⟩, none⟩

theorem smooth_fresh (program : Text) (m : Machine) : (fresh program).Smooth m :=
  smooth_of_not_interactive rfl m

/-- A batch run without given lines performs the script of its program and then ends as it does. -/
theorem runProgram_of_script {program : Text} {tokens : List (Token × Nat)} {ending : Option Fault}
    (script : (Feed.cursor (.ofProgram program)).script = some (tokens, ending)) (m : Machine) :
    m.runProgram program [] false =
      (.ofFault (conclude ending ((fresh program).perform m tokens)).2.1.span
          (conclude ending ((fresh program).perform m tokens)).1,
        (conclude ending ((fresh program).perform m tokens)).2.2) := by
  have onDemand : Feed.ofProgram false program = .ok (.cursor (.ofProgram program)) := rfl
  obtain ⟨feed, finished⟩ := finish_of_script script (fresh program) rfl m
  simp only [fresh] at finished
  simp only [Machine.runProgram, start_of_feed onDemand, List.isEmpty_nil, if_true, finished, fresh]

theorem runProgram_of_tokenize {program : Text} {tokens : List (Token × Nat)} {fault : Option Fault}
    {s : Run} {m m' : Machine} (read : tokenize program = .ok tokens)
    (performed : (fresh program).perform m tokens = (fault, s, m')) (inAdvance : Bool) :
    m.runProgram program [] inAdvance = (.ofFault s.span fault, m') := by
  have sameMode : m.runProgram program [] inAdvance = m.runProgram program [] false := by
    cases inAdvance with
    | false => rfl
    | true => exact runProgram_inAdvance read m []
  rw [sameMode, runProgram_of_script (Feed.script_ofProgram_of_ok read), performed]
  cases fault <;> rfl

theorem exists_tokens_of_success {program : Text} {inAdvance : Bool} {m m' : Machine}
    (h : m.runProgram program [] inAdvance = (.success, m')) :
    ∃ tokens, tokenize program = .ok tokens := by
  cases read : tokenize program with
  | ok tokens => exact ⟨tokens, rfl⟩
  | error fault =>
      cases inAdvance with
      | true =>
          rw [runProgram_inAdvance_of_error read] at h
          cases h
      | false =>
          obtain ⟨tokens, left, -, -, script⟩ := Feed.script_ofProgram_of_error read
          rw [runProgram_of_script script] at h
          cases performed : (fresh program).perform m tokens with
          | mk outcome rest => cases outcome <;> simp [performed, conclude] at h

end Run

/-- The second verdict is the first one for the same instructions in a program with more in front.
    Where an instruction fails, it ends later by the length of that. -/
inductive Verdict.Shifted (before program : Text) : Verdict → Verdict → Prop where
  | success : Shifted before program .success .success
  | failure {fault : Fault} {x k y l : Nat} : y + l = x + k + before.length →
      Shifted before program (.failure fault ⟨program, x, k⟩) (.failure fault ⟨before ++ program, y, l⟩)
  | raised (fault : Fault) : Shifted before program (.raised fault) (.raised fault)

theorem Verdict.Shifted.trans {p q program : Text} {v₁ v₂ v₃ : Verdict} (h : Shifted q program v₁ v₂)
    (h' : Shifted p (q ++ program) v₂ v₃) : Shifted (p ++ q) program v₁ v₃ := by
  cases h with
  | success =>
      cases h'
      exact .success
  | failure later =>
      cases h' with
      | failure later' =>
          rw [← List.append_assoc]
          refine .failure ?_
          rw [List.length_append]
          omega
  | raised fault =>
      cases h'
      exact .raised fault

theorem Verdict.shifted_of_spans {before program : Text} {span span' : Span} {fault : Option Fault}
    (h : fault ≠ none → ∃ x k y l : Nat, span = ⟨program, x, k⟩ ∧ span' = ⟨before ++ program, y, l⟩ ∧
      y + l = x + k + before.length) :
    Shifted before program (.ofFault span fault) (.ofFault span' fault) := by
  cases fault with
  | none => exact .success
  | some fault =>
      obtain ⟨x, k, y, l, rfl, rfl, later⟩ := h nofun
      simp only [ofFault]
      split
      · exact .raised fault
      · exact .failure later

namespace Machine

theorem runProgram_append {p q : Text} {late : List (Token × Nat)} {m m₁ m₂ m' : Machine}
    {mode mode' joined : Bool} {v v' : Verdict} (read : tokenize q = .ok late)
    (first : m.runProgram p [] mode = (.success, m₁)) (second : m₁.runProgram q [] mode' = (v, m₂))
    (both : m.runProgram (p ++ q) [] joined = (v', m')) : m₂.Agree m' ∧ v.Shifted p q v' := by
  obtain ⟨early, readFirst⟩ := Run.exists_tokens_of_success first
  obtain ⟨inside, readBoth⟩ := tokenize_append readFirst read
  -- The first program alone and at the front of both.
  obtain ⟨fault, r₁, s₁, n₁, n₁', alone, front, agree, -⟩ :=
    Run.perform_shift (r := .fresh p) (s := .fresh (p ++ q)) (Run.smooth_fresh p m)
      (Run.smooth_fresh (p ++ q) m) rfl (rfl : 0 + 0 = 0 + 0) (.refl m) early
  rw [widen_zero] at front
  rw [Run.runProgram_of_tokenize readFirst alone] at first
  obtain ⟨succeeded, rfl⟩ := Prod.mk.inj first
  cases Verdict.ofFault_eq_success_iff.mp succeeded
  obtain ⟨offset, given, goesOn⟩ := Run.perform_of_success front
  -- The second program alone and behind the first.
  obtain ⟨kept, plain⟩ := Run.perform_kept (.fresh (p ++ q)) m early
  rw [front] at kept plain
  have lag : s₁.offset + (p.length - extent early) = (Run.fresh q).offset + p.length := by
    rw [offset]
    simp only [Run.fresh]
    omega
  obtain ⟨fault, r₂, s₂, n₂, n₂', alone, behind, agree, spans⟩ :=
    Run.perform_shift (Run.smooth_fresh q n₁) (Run.smooth_of_not_interactive plain n₁') (given rfl) lag agree late
  rw [← goesOn] at behind
  rw [Run.runProgram_of_tokenize read alone] at second
  rw [Run.runProgram_of_tokenize readBoth behind] at both
  cases second
  cases both
  rw [kept] at spans
  exact ⟨agree, Verdict.shifted_of_spans spans⟩

theorem runProgram_nil (m : Machine) (inAdvance : Bool) : m.runProgram [] [] inAdvance = (.success, m) :=
  Run.runProgram_of_tokenize (tokenize_of_empty rfl) rfl inAdvance

/-- Batch runs of programs one after the other that all succeed. -/
inductive Succeeds : Machine → List Text → Machine → Prop where
  | nil (m : Machine) : Succeeds m [] m
  | cons {m m₁ m₂ : Machine} {program : Text} {programs : List Text} (inAdvance : Bool) :
      m.runProgram program [] inAdvance = (.success, m₁) → Succeeds m₁ programs m₂ →
      Succeeds m (program :: programs) m₂

theorem Succeeds.exists_tokens {programs : List Text} {last : Text} {tokens : List (Token × Nat)}
    {m m' : Machine} (h : m.Succeeds programs m') (read : tokenize last = .ok tokens) :
    ∃ joined, tokenize (programs.flatten ++ last) = .ok joined := by
  induction h with
  | nil m => exact ⟨tokens, read⟩
  | cons inAdvance first _ ih =>
      obtain ⟨early, readFirst⟩ := Run.exists_tokens_of_success first
      obtain ⟨late, readRest⟩ := ih
      rw [List.flatten_cons, List.append_assoc]
      exact ⟨_, (tokenize_append readFirst readRest).2⟩

theorem Succeeds.runProgram_flatten {programs : List Text} {last : Text} {tokens : List (Token × Nat)}
    {m m₁ m₂ m' : Machine} {mode joined : Bool} {v v' : Verdict} (h : m.Succeeds programs m₁)
    (read : tokenize last = .ok tokens) (final : m₁.runProgram last [] mode = (v, m₂))
    (whole : m.runProgram (programs.flatten ++ last) [] joined = (v', m')) :
    m₂.Agree m' ∧ v.Shifted programs.flatten last v' := by
  induction h generalizing v' m' with
  | nil m => exact runProgram_append read (m.runProgram_nil false) final whole
  | @cons m m₁ _ program programs inAdvance first later ih =>
      obtain ⟨rest, readRest⟩ := later.exists_tokens read
      obtain ⟨agree, shifted⟩ := ih final (rfl : m₁.runProgram (programs.flatten ++ last) [] joined = _)
      rw [List.flatten_cons, List.append_assoc] at whole
      obtain ⟨agree', shifted'⟩ := runProgram_append readRest first rfl whole
      exact ⟨agree.trans agree', shifted.trans shifted'⟩

theorem runProgram_grows (m : Machine) (program : Text) (inputs : List Text) (inAdvance : Bool) :
    m.console.Grows false (m.runProgram program inputs inAdvance).2.console := by
  simp only [runProgram]
  split
  · exact Run.grows_logMismatch ..
  · rename_i started
    obtain ⟨feed, -, rfl⟩ := Run.start_eq started
    split
    · rename_i finished
      exact Run.drive_grows (fun _ _ m => .refl m.console) finished
    · exact .refl m.console

theorem Succeeds.grows {programs : List Text} {m m' : Machine} (h : m.Succeeds programs m') :
    m.console.Grows false m'.console := by
  induction h with
  | nil m => exact .refl m.console
  | @cons m _ _ program _ inAdvance first _ ih =>
      have grown := m.runProgram_grows program [] inAdvance
      rw [first] at grown
      exact grown.trans ih

/-- Two batch runs that end alike, the second of a program with more in front. -/
structure EndAlike (before program : Text) (x y : Verdict × Machine) : Prop where
  queue : y.2.queue = x.2.queue
  out : y.2.console.out = x.2.console.out
  input : y.2.console.input = x.2.console.input
  verdict : x.1.Shifted before program y.1

theorem Succeeds.endAlike {programs : List Text} {last : Text} {tokens : List (Token × Nat)}
    {m m₁ : Machine} (h : m.Succeeds programs m₁) (read : tokenize last = .ok tokens)
    (mode joined : Bool) :
    EndAlike programs.flatten last (m₁.runProgram last [] mode)
      (m.runProgram (programs.flatten ++ last) [] joined) := by
  obtain ⟨agree, shifted⟩ := h.runProgram_flatten read rfl
    (rfl : m.runProgram (programs.flatten ++ last) [] joined = _)
  have inTurn := h.grows.trans (m₁.runProgram_grows last [] mode)
  have atOnce := m.runProgram_grows (programs.flatten ++ last) [] joined
  exact ⟨agree.queue, inTurn.out_unique atOnce agree.console.values, agree.console.input, shifted⟩

/-- Programs that are put together run as they do one after the other. Two programs that can be read
    have together the tokens of both. If the first one succeeds, then the second one after it ends as
    the run of both together does: with the same queue, the same output, the same input left and the
    same fault, which is later by the length of the first program. So it is for any number of
    programs of which all but the last succeed. -/
theorem joined_programs_run_in_turn :
    (∀ (p q : Text) (early late : List (Token × Nat)),
      tokenize p = .ok early → tokenize q = .ok late →
      ∃ joined, tokenize (p ++ q) = .ok joined ∧
        joined.map Prod.fst = early.map Prod.fst ++ late.map Prod.fst) ∧
    (∀ (p q : Text) (late : List (Token × Nat)) (m m₁ : Machine) (mode mode' joined : Bool),
      tokenize q = .ok late → m.runProgram p [] mode = (.success, m₁) →
      EndAlike p q (m₁.runProgram q [] mode') (m.runProgram (p ++ q) [] joined)) ∧
    ∀ (programs : List Text) (q : Text) (late : List (Token × Nat)) (m m₁ : Machine)
      (mode joined : Bool),
      tokenize q = .ok late → m.Succeeds programs m₁ →
      EndAlike programs.flatten q (m₁.runProgram q [] mode)
        (m.runProgram (programs.flatten ++ q) [] joined) := by
  refine ⟨?_, ?_, ?_⟩
  · intro p q early late readFirst readSecond
    refine ⟨_, (tokenize_append readFirst readSecond).2, ?_⟩
    rw [List.map_append, map_fst_widen]
  · intro p q late m m₁ mode mode' joined read first
    have alike := (Succeeds.cons mode first (.nil m₁)).endAlike read mode' joined
    simp only [List.flatten_cons, List.flatten_nil, List.append_nil] at alike
    exact alike
  · intro programs q late m m₁ mode joined read succeeds
    exact succeeds.endAlike read mode joined

theorem joined_programs_run_in_turn_copy :
    let m : Machine := { queue := [.string ['a']] }
    let m₁ : Machine := { queue := [.string ['a'], .string ['a']] }
    tokenize ['>', '~'] = .ok [(.output, 1), (.concat, 1)] ∧
    (∃ joined, tokenize ['*', ' ', '>', '~'] = .ok joined ∧
      joined.map Prod.fst = [.copy, .output, .concat]) ∧
    m.runProgram ['*', ' '] [] false = (.success, m₁) ∧
    EndAlike ['*', ' '] ['>', '~'] (m₁.runProgram ['>', '~'] [] true)
      (m.runProgram ['*', ' ', '>', '~'] [] false) ∧
    EndAlike ['*', ' '] ['>', '~'] (m₁.runProgram ['>', '~'] [] true)
      (m.runProgram ['*', ' ', '>', '~'] [] true) ∧
    (m₁.runProgram ['>', '~'] [] true).1 =
      .failure (.kind (.queueTooShort 2 1)) ⟨['>', '~'], 1, 1⟩ ∧
    (m.runProgram ['*', ' ', '>', '~'] [] false).1 =
      .failure (.kind (.queueTooShort 2 1)) ⟨['*', ' ', '>', '~'], 3, 1⟩ := by
  intro m m₁
  have copies : tokenize ['*', ' '] = .ok [(.copy, 1)] := by
    rw [tokenize_of_scan rfl, tokenize_of_empty rfl]
    rfl
  have writes : tokenize ['>', '~'] = .ok [(.output, 1), (.concat, 1)] := by
    rw [tokenize_of_scan rfl, tokenize_of_scan rfl, tokenize_of_empty rfl]
    rfl
  have first : m.runProgram ['*', ' '] [] false = (.success, m₁) :=
    Run.runProgram_of_tokenize copies rfl false
  have series := joined_programs_run_in_turn.2.2 [['*', ' '], []] _ _ m m₁ true true writes
    (.cons false first (.cons true (m₁.runProgram_nil true) (.nil m₁)))
  refine ⟨writes, joined_programs_run_in_turn.1 _ _ _ _ copies writes, first,
    joined_programs_run_in_turn.2.1 _ _ _ m m₁ false true false writes first, series, ?_, ?_⟩
  · rw [Run.runProgram_of_tokenize writes rfl]
    rfl
  · have both : tokenize ['*', ' ', '>', '~'] = .ok [(.copy, 1), (.output, 2), (.concat, 1)] :=
      (tokenize_append copies writes).2
    rw [Run.runProgram_of_tokenize both rfl]
    rfl

end Machine

end QueueScript
