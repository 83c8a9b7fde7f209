import QueueScript.Proofs.Failures
import QueueScript.Proofs.Rotations

/-! # Sweeps over the queue

A token that takes one value and gives one back works on the front of the queue and puts its result at
the back. In the middle of a sweep the values that are left stand in front and the results behind them.
So as many copies of the token as there are values work on each of them once, and leave the results in
the order of the values.

If the token fails on a value, the copy that met it ends the run: the values behind it have come to the
front, the results for those before it stand at the back, and the value itself is gone.
-/

namespace QueueScript

def sweep (token : Token) (count : Nat) : Text :=
  (List.replicate count token.source).flatten

theorem Token.exists_operator {token : Token} (takes : token.takes = 1) (gives : token.gives = 1) :
    ∃ operator, token = .apply operator := by
  cases token with
  | apply operator => exact ⟨operator, rfl⟩
  | input | rotate | concat => cases takes
  | output | copy => cases gives

theorem tokenize_sweep {token : Token} (h : token.Canonical) (count : Nat) :
    tokenize (sweep token count) = .ok (List.replicate count (token, token.source.length)) := by
  have canonical : ∀ other ∈ List.replicate count token, other.Canonical := by
    intro other member
    rw [List.eq_of_mem_replicate member]
    exact h
  have read := tokenize_sources canonical
  rwa [List.flatMap_def, List.map_replicate, List.map_replicate] at read

theorem parts_of_copy (token : Token) (front rest : Nat) :
    let span : Span :=
      ⟨sweep token (front + (1 + rest)), (front * token.source.length : Nat), token.source.length⟩
    span.before = sweep token front ∧ span.inside = token.source ∧ span.after = sweep token rest := by
  intro span
  have whole : span.program = sweep token front ++ (token.source ++ sweep token rest) := by
    simp only [span, sweep, List.replicate_add, List.flatten_append, List.replicate_one,
      List.flatten_singleton]
  have long : front * token.source.length = (sweep token front).length := by
    simp [sweep]
  have back : span.after = span.program.drop (front * token.source.length + token.source.length) :=
    Text.suffixFrom_ofNat ..
  refine ⟨?_, ?_, ?_⟩
  · rw [Span.before, Text.upTo_ofNat, whole, long, List.take_left]
  · have middle : span.inside =
        (span.program.drop (front * token.source.length)).take token.source.length :=
      Span.inside_ofNat ..
    rw [middle, whole, long, List.drop_left, List.take_left]
  · rw [back, whole, long, ← List.drop_drop, List.drop_left, List.drop_left]

namespace Run

/-- Tokens that neither read nor write use up no lines and leave on the console nothing but messages in
    the log. -/
theorem perform_logs (r : Run) (m : Machine) {tokens : List (Token × Nat)}
    (h : ∀ entry ∈ tokens, entry.1 ≠ .input ∧ entry.1 ≠ .output) :
    (r.perform m tokens).2.1.args = r.args ∧ m.console.Logs (r.perform m tokens).2.2.console := by
  induction tokens generalizing r m with
  | nil => exact ⟨rfl, .refl m.console⟩
  | cons first tokens ih =>
      obtain ⟨token, n⟩ := first
      obtain ⟨notInput, notOutput⟩ := h (token, n) (List.mem_cons_self ..)
      have later : ∀ entry ∈ tokens, entry.1 ≠ .input ∧ entry.1 ≠ .output :=
        fun entry member => h entry (List.mem_cons_of_mem _ member)
      let here : Run := { r with span := ⟨r.program, r.offset, n⟩ }
      have same := (exec_of_ne_input notInput here m).1
      have logs : m.console.Logs (here.exec token m).2.2.console :=
        exec_console Console.Logs.refl Console.logs_debug here token m Console.Logs.trans
          (fun input => absurd input notInput) (fun output => absurd output notOutput)
      simp only [perform]
      split
      · rename_i executed
        simp only [here, executed] at same logs
        rw [same]
        obtain ⟨args, logs'⟩ := ih { r with span := ⟨r.program, r.offset, n⟩, offset := r.offset + n } _ later
        exact ⟨args, logs.trans logs'⟩
      · rename_i executed
        simp only [here, executed] at same logs
        rw [same]
        exact ⟨rfl, logs⟩

section Copies

variable {operator : Operator}

theorem exec_apply_of_ok {v w : Value} (h : operator.apply v = .ok w) (r : Run) (rest : List Value)
    (c : Console) :
    ∃ d, r.exec (.apply operator) ⟨v :: rest, c⟩ = (.ok (), r, ⟨rest ++ [w], d⟩) := by
  simp only [exec, h, Except.map, settle, Machine.push, Machine.logQueue]
  exact ⟨_, rfl⟩

theorem exec_apply_of_error {v : Value} {fault : Fault} (h : operator.apply v = .error fault) (r : Run)
    (rest : List Value) (c : Console) :
    r.exec (.apply operator) ⟨v :: rest, c⟩ = (.error fault, r, ⟨rest, c⟩) := by
  simp only [exec, h, Except.map, settle]

/-- Part of a sweep. What stands behind the values it works on, be it values that are left or results,
    comes to the front. -/
theorem perform_copies {todo results : List Value} (h : todo.map operator.apply = results.map .ok)
    (r : Run) (n : Nat) (rest : List Value) (c : Console) :
    ∃ s d, r.perform ⟨todo ++ rest, c⟩ (List.replicate todo.length (.apply operator, n)) =
        (none, s, ⟨rest ++ results, d⟩) ∧
      s.program = r.program ∧ s.offset = r.offset + todo.length * n := by
  induction todo generalizing r results rest c with
  | nil =>
      have none : results = [] := List.map_eq_nil_iff.mp h.symm
      refine ⟨r, c, ?_, rfl, by simp⟩
      rw [none, List.append_nil]
      rfl
  | cons v todo ih =>
      obtain ⟨w, results, rfl, first, later⟩ := List.map_eq_cons_iff.mp h.symm
      obtain ⟨c', executed⟩ := exec_apply_of_ok first.symm
        { r with span := ⟨r.program, r.offset, n⟩ } (todo ++ rest) c
      obtain ⟨s, d, performed, program, offset⟩ := ih later.symm
        { r with span := ⟨r.program, r.offset, n⟩, offset := r.offset + n } (rest ++ [w]) c'
      refine ⟨s, d, ?_, program, ?_⟩
      · simp only [List.length_cons, List.replicate_succ, List.cons_append, perform, executed]
        rw [List.append_assoc, performed, List.append_assoc, List.singleton_append]
      · simp only at offset
        rw [offset, List.length_cons, Nat.succ_mul]
        omega

theorem perform_copies_of_error {front results : List Value} {v : Value} {fault : Fault}
    (h : front.map operator.apply = results.map .ok) (failed : operator.apply v = .error fault)
    (r : Run) (n more : Nat) (rest : List Value) (c : Console) :
    ∃ s d, r.perform ⟨front ++ v :: rest, c⟩
          (List.replicate (front.length + (1 + more)) (.apply operator, n)) =
        (some fault, s, ⟨rest ++ results, d⟩) ∧
      s.span = ⟨r.program, (r.offset + front.length * n : Nat), n⟩ := by
  obtain ⟨s, d, performed, program, offset⟩ := perform_copies h r n (v :: rest) c
  have met := exec_apply_of_error failed { s with span := ⟨s.program, s.offset, n⟩ } (rest ++ results) d
  have last : s.perform ⟨v :: rest ++ results, d⟩ [(.apply operator, n)] =
      (some fault, { s with span := ⟨s.program, s.offset, n⟩, offset := s.offset + n },
        ⟨rest ++ results, d⟩) := by
    simp only [perform, List.cons_append, met]
  have whole := (perform_of_success performed).2.2 [(.apply operator, n)]
  rw [last] at whole
  refine ⟨{ s with span := ⟨s.program, s.offset, n⟩, offset := s.offset + n }, d, ?_, ?_⟩
  · rw [← Nat.add_assoc, List.replicate_add, List.replicate_add, List.replicate_one]
    exact perform_of_failure whole _
  · rw [program, offset]

end Copies

theorem conclude_none (ended : Option Fault × Run × Machine) :
    ∃ result, conclude none ended = (ended.1, { ended.2.1 with result := result }, ended.2.2) := by
  obtain ⟨_ | fault, r, m⟩ := ended <;> exact ⟨_, rfl⟩

theorem exists_finish_of_tokenize {program : Text} {tokens : List (Token × Nat)}
    (read : tokenize program = .ok tokens) (inAdvance interactive : Bool) (args : Option (List Text))
    (m : Machine) :
    ∃ r f, start program inAdvance args interactive = .ok r ∧ r.program = program ∧ r.offset = 0 ∧
      r.args = args ∧ ∀ ending s m', r.perform m tokens = (ending, s, m') →
        ∃ result, r.finish m = some (ending, { s with feed := f, result := result }, m') := by
  obtain ⟨feed, made⟩ := Feed.exists_ofProgram read inAdvance
  have script : feed.script = some (tokens, none) :=
    (Feed.script_ofProgram made).trans (Feed.script_ofProgram_of_ok read)
  obtain ⟨f, finished⟩ := finish_of_script script
    ⟨program, feed, args, interactive, 0, ⟨program, 0, 0⟩, none⟩ rfl m
  refine ⟨_, f, start_of_feed made args interactive, rfl, rfl, rfl, ?_⟩
  intro ending s m' performed
  obtain ⟨result, concluded⟩ := conclude_none (ending, s, m')
  rw [performed, concluded] at finished
  exact ⟨result, finished⟩

end Run

/-- A token that takes one value and gives one back is an operator. Run as many copies of it as there are
    values in the queue. If the operator succeeds on all of them, the run succeeds and the queue holds
    the results in the same order. Else the run ends at the copy for the first value on which the operator
    fails, with that fault: the queue holds the values behind it and then the results for the values
    before it, and the span is that copy. Either way no line is used up and nothing is written. -/
theorem sweeps_work_on_each_value {t : Text} {token : Token} {n : Nat}
    (readable : scan t = .ok (token, n)) (takes : token.takes = 1) (gives : token.gives = 1) :
    ∃ operator, token = .apply operator ∧
      ∀ (m : Machine) (inAdvance interactive : Bool) (args : Option (List Text)),
        ∃ r ending s m',
          Run.start (sweep token m.queue.length) inAdvance args interactive = .ok r ∧
          r.finish m = some (ending, s, m') ∧ s.args = args ∧ m.console.Logs m'.console ∧
          (∀ results, m.queue.map operator.apply = results.map .ok →
            ending = none ∧ m'.queue = results) ∧
          (∀ front v rest results fault, m.queue = front ++ v :: rest →
            front.map operator.apply = results.map .ok → operator.apply v = .error fault →
            ending = some fault ∧ m'.queue = rest ++ results ∧
            s.span = ⟨sweep token m.queue.length, (front.length * token.source.length : Nat),
              token.source.length⟩ ∧
            s.span.before = sweep token front.length ∧ s.span.inside = token.source ∧
            s.span.after = sweep token rest.length) := by
  obtain ⟨operator, rfl⟩ := Token.exists_operator takes gives
  refine ⟨operator, rfl, fun m inAdvance interactive args => ?_⟩
  obtain ⟨queue, c⟩ := m
  obtain ⟨r, f, begun, program, offset, given, finishes⟩ := Run.exists_finish_of_tokenize
    (tokenize_sweep (canonical_of_scan readable) queue.length) inAdvance interactive args ⟨queue, c⟩
  have silent : ∀ entry ∈ List.replicate queue.length
      (Token.apply operator, (Token.apply operator).source.length),
      entry.1 ≠ .input ∧ entry.1 ≠ .output := by
    intro entry member
    rw [List.eq_of_mem_replicate member]
    exact ⟨nofun, nofun⟩
  obtain ⟨args', logs⟩ := r.perform_logs ⟨queue, c⟩ silent
  obtain ⟨result, finished⟩ := finishes _ _ _ rfl
  refine ⟨r, _, _, _, begun, finished, args'.trans given, logs, ?_, ?_⟩
  · intro results all
    obtain ⟨s, d, performed, -⟩ := Run.perform_copies all r (Token.apply operator).source.length [] c
    rw [List.append_nil] at performed
    rw [performed]
    exact ⟨rfl, rfl⟩
  · rintro front v rest results fault rfl early failed
    obtain ⟨s, d, performed, span⟩ := Run.perform_copies_of_error early failed r
      (Token.apply operator).source.length rest.length rest c
    have count : (front ++ v :: rest).length = front.length + (1 + rest.length) := by
      rw [List.length_append, List.length_cons, Nat.add_comm rest.length]
    rw [program, offset, Nat.zero_add, count] at span
    rw [count, performed]
    refine ⟨rfl, rfl, span, ?_⟩
    simp only [span]
    exact parts_of_copy (.apply operator) front.length rest.length

/-- The second of three values is not a list and cannot be joined. -/
theorem sweeps_work_on_each_value_join :
    let queue : List Value := [.list [['a'], ['b']], .string ['c'], .list [['d']]]
    let program : Text := ['.', '.', '.']
    scan ['.'] = .ok (.apply .join, 1) ∧
    ∃ r s m', Run.start program false none false = .ok r ∧
      r.finish ⟨queue, {}⟩ = some (some (.kind (.unexpected [.list] .string)), s, m') ∧
      m'.queue = [.list [['d']], .string ['a', 'b']] ∧ s.span = ⟨program, 1, 1⟩ := by
  intro queue program
  have readable : scan ['.'] = .ok (.apply .join, 1) := rfl
  obtain ⟨operator, same, swept⟩ := sweeps_work_on_each_value readable rfl rfl
  cases same
  obtain ⟨r, ending, s, m', begun, finished, -, -, -, failing⟩ := swept ⟨queue, {}⟩ false false none
  obtain ⟨rfl, left, span, -⟩ := failing [.list [['a'], ['b']]] (.string ['c']) [.list [['d']]]
    [.string ['a', 'b']] (.kind (.unexpected [.list] .string)) rfl rfl rfl
  exact ⟨readable, r, s, m', begun, finished, left, span⟩

end QueueScript
