import QueueScript.Proofs.Locations

/-! # What a failing instruction leaves behind

An instruction takes its values off the front of the queue, computes its results from them, and gives
these to the back. If there are too few values it takes none. Any other failure comes after the taking
and before the giving (`Aborts`): the values are gone, nothing is given, and nothing has been written.

A run stops with its first failure. So it leaves what the failing instruction leaves of the machine that
the instructions before it have led to, and what stands behind it in the program does not matter.
-/

namespace QueueScript

/-- What a token gives for the values it takes. `<` gives the line that was read. -/
def Token.results (line : Text) : Token → List Value → Except Fault (List Value)
  | .input, _ => .ok [.string line]
  | .concat, [left, right] => (left.concat right).map ([·])
  | .copy, [v] => .ok [v, v]
  | .apply operator, [v] => (operator.apply v).map ([·])
  | _, _ => .ok []

/-- The queue after a token that succeeds. -/
inductive Delivers (line : Text) (queue : List Value) : Token → List Value → Prop where
  | rotated (count : Int) : Delivers line queue (.rotate count) (rotate count queue)
  | given {token : Token} {values after : List Value} : (∀ count, token ≠ .rotate count) →
      token.takes ≤ queue.length → token.results line (queue.take token.takes) = .ok values →
      after = queue.drop token.takes ++ values → Delivers line queue token after

/-- The machine after a token that fails. -/
inductive Aborts (token : Token) (m : Machine) : Fault → Machine → Prop where
  | short : m.queue.length < token.takes →
      Aborts token m (.kind (.queueTooShort token.takes m.queue.length)) m
  /-- The values are taken, and then computing the results or a stream fails. -/
  | taken {fault : Fault} {m' : Machine} : token.takes ≤ m.queue.length →
      (∀ needed found, fault ≠ .kind (.queueTooShort needed found)) →
      ((∃ stream, fault = .stream stream) ∨
        ∀ line, token.results line (m.queue.take token.takes) = .error fault) →
      m'.queue = m.queue.drop token.takes → m'.console.out = m.console.out → Aborts token m fault m'

namespace Executes

theorem delivers {token : Token} {before after : List Value} (h : Executes token before (.ok ()) after)
    {line : Text} (read : token = .input → after = before ++ [.string line]) :
    Delivers line before token after := by
  cases h with
  | read => exact .given (by simp) (Nat.zero_le _) rfl (read rfl)
  | written => exact .given (by simp) (Nat.le_add_left ..) rfl (List.append_nil _).symm
  | joined rest computed =>
      exact .given (by simp) (Nat.le_add_left ..) (congrArg (Except.map ([·])) computed) rfl
  | copied => exact .given (by simp) (Nat.le_add_left ..) rfl rfl
  | rotated count => exact .rotated count
  | applied rest computed =>
      exact .given (by simp) (Nat.le_add_left ..) (congrArg (Except.map ([·])) computed) rfl

theorem takes {token : Token} {before after : List Value} {fault : Fault}
    (h : Executes token before (.error fault) after) (enough : token.takes ≤ before.length) :
    (∀ needed found, fault ≠ .kind (.queueTooShort needed found)) ∧
      ((∃ stream, fault = .stream stream) ∨
        ∀ line, token.results line (before.take token.takes) = .error fault) ∧
      after = before.drop token.takes := by
  cases h with
  | short few => exact absurd enough (Nat.not_le_of_lt few)
  | unread | unwritten => exact ⟨by simp, .inl ⟨_, rfl⟩, rfl⟩
  -- What is computed from values never tells of too few of them.
  | @unjoined left right _ _ failed =>
      refine ⟨?_, .inr fun line => congrArg (Except.map ([·])) failed, rfl⟩
      rintro needed found rfl
      exact left.concat_ne_short right needed found failed
  | @unapplied operator v _ _ failed =>
      refine ⟨?_, .inr fun line => congrArg (Except.map ([·])) failed, rfl⟩
      rintro needed found rfl
      exact operator.apply_ne_short v needed found failed

end Executes

/-- What an event writes on the output. -/
def Event.writes : Event → List Text
  | .value (some lead) v => [lead ++ v.text ++ ['\n']]
  | .print t => [t]
  | _ => []

namespace Console

/-- What was written on the output, write by write. -/
def writes (c : Console) : List Text :=
  c.events.flatMap Event.writes

theorem flatten_writes (c : Console) : c.writes.flatten = c.out := by
  have shown : ∀ e : Event, e.writes.flatten = e.out := by
    rintro (⟨_ | lead, v⟩ | t | t | t) <;> simp [Event.writes, Event.out]
  simp only [writes, out]
  induction c.events with
  | nil => rfl
  | cons e events ih => rw [List.flatMap_cons, List.flatten_append, shown, ih, List.flatMap_cons]

/-- Nothing has been written between the two. -/
structure Quiet (c d : Console) : Prop where
  writes : d.writes = c.writes
  room : d.room = c.room

theorem Quiet.refl (c : Console) : c.Quiet c :=
  ⟨rfl, rfl⟩

theorem Quiet.trans {c d e : Console} (h : c.Quiet d) (h' : d.Quiet e) : c.Quiet e :=
  ⟨h'.writes.trans h.writes, h'.room.trans h.room⟩

theorem quiet_record (c : Console) {e : Event} (h : e.writes = []) : c.Quiet (c.record e) :=
  ⟨by simp [Console.writes, record, h], rfl⟩

theorem quiet_debug (c : Console) (topic : Topic) (message : Unit → Text) :
    c.Quiet (c.debug topic message) := by
  unfold debug
  split
  · exact c.quiet_record rfl
  · exact .refl c

theorem quiet_writeErr (c : Console) (t : Text) : c.Quiet (c.writeErr t).2 := by
  unfold writeErr
  split
  · exact c.quiet_record rfl
  · exact .refl c
  · exact ⟨(c.quiet_record (e := .notice t) rfl).writes, rfl⟩

theorem quiet_readLine (c : Console) (span : Option Span) : c.Quiet (c.readLine span).2 := by
  have asked : c.Quiet (c.ask span).2 := by
    unfold ask
    split
    · split
      · exact c.quiet_writeErr _
      · exact .refl c
    · exact .refl c
  have taken (d : Console) : d.Quiet d.takeLine.2 := by
    unfold takeLine
    split <;> exact ⟨rfl, rfl⟩
  unfold readLine
  split
  · rename_i result
    rw [result] at asked
    exact asked.trans (taken _)
  · rename_i result
    rw [result] at asked
    exact asked

end Console

namespace Run

theorem exec_of_short {token : Token} {m : Machine} (few : m.queue.length < token.takes) (r : Run) :
    r.exec token m = (.error (.kind (.queueTooShort token.takes m.queue.length)), r, m) := by
  obtain ⟨queue, console⟩ := m
  cases token with
  | input | rotate => cases few
  | output | copy | apply =>
      cases queue with
      | nil => rfl
      | cons v rest => exact absurd few (Nat.not_lt_of_le (Nat.le_add_left ..))
  | concat =>
      cases queue with
      | nil => rfl
      | cons v rest =>
          cases rest with
          | nil => rfl
          | cons w rest => exact absurd few (Nat.not_lt_of_le (Nat.le_add_left ..))

theorem exec_quiet {token : Token} (h : token ≠ .output) (r : Run) (m : Machine) :
    m.console.Quiet (r.exec token m).2.2.console :=
  exec_console Console.Quiet.refl Console.quiet_debug r token m Console.Quiet.trans
    (fun _ c => c.quiet_readLine _) (fun writes => absurd writes h)

theorem out_of_failure {r r' : Run} {token : Token} {m m' : Machine} {fault : Fault}
    (h : r.exec token m = (.error fault, r', m')) : m'.console.out = m.console.out := by
  by_cases writes : token = .output
  · obtain ⟨queue, console⟩ := m
    subst writes
    cases queue with
    | nil =>
        cases h
        rfl
    | cons v rest =>
        obtain ⟨_, -, failed⟩ | ⟨_, -, -, failed⟩ | ⟨lead, room, -, -, shown, -⟩ :=
          console.output_cases r.promptSpan v
        · simp only [exec, failed] at h
          cases h
          rfl
        · simp only [exec, failed] at h
          cases h
          rfl
        · simp only [exec, shown, settle] at h
          cases h
  · have quiet := exec_quiet writes r m
    rw [h] at quiet
    rw [← Console.flatten_writes, quiet.writes, Console.flatten_writes]

theorem readLine_of_error {r r' : Run} {m m' : Machine} {fault : StreamFault}
    (h : r.readLine m = (.error fault, r', m')) : r' = r := by
  unfold readLine at h
  split at h
  · cases h
  · simp only [Prod.mk.injEq] at h
    exact h.2.1.symm

theorem run_of_failure {r r' : Run} {token : Token} {m m' : Machine} {fault : Fault}
    (h : r.exec token m = (.error fault, r', m')) : r' = r := by
  by_cases reads : token = .input
  · subst reads
    simp only [exec] at h
    split at h
    · cases h
    · rename_i failed
      cases h
      exact readLine_of_error failed
  · have same := (exec_of_ne_input reads r m).1
    rw [h] at same
    exact same

theorem exec_aborts {r r' : Run} {token : Token} {m m' : Machine} {fault : Fault}
    (h : r.exec token m = (.error fault, r', m')) : Aborts token m fault m' := by
  rcases Nat.lt_or_ge m.queue.length token.takes with few | enough
  · rw [exec_of_short few] at h
    cases h
    exact .short few
  · have executed := r.exec_executes token m
    rw [h] at executed
    obtain ⟨other, cause, left⟩ := executed.takes enough
    exact .taken enough other cause left (out_of_failure h)

theorem queue_of_input {r r' : Run} {m m' : Machine} (h : r.exec .input m = (.ok (), r', m')) :
    ∃ line, (r.readLine m).1 = .ok line ∧ m'.queue = m.queue ++ [.string line] := by
  have same := queue_readLine r m
  simp only [exec] at h
  split at h
  · rename_i line r₁ m₁ read
    rw [read] at same
    cases h
    refine ⟨line, by rw [read], ?_⟩
    rw [← same]
    rfl
  · cases h

theorem exec_delivers {r r' : Run} {token : Token} {m m' : Machine}
    (h : r.exec token m = (.ok (), r', m')) :
    ∃ line, (token = .input → (r.readLine m).1 = .ok line) ∧ Delivers line m.queue token m'.queue := by
  have executed := r.exec_executes token m
  rw [h] at executed
  by_cases reads : token = .input
  · subst reads
    obtain ⟨line, read, after⟩ := queue_of_input h
    exact ⟨line, fun _ => read, executed.delivers fun _ => after⟩
  · exact ⟨[], fun input => absurd input reads, executed.delivers fun input => absurd input reads⟩

end Run

/-! ## Failing runs -/

theorem Feed.script_of_reads {t rest : Text} {tokens : List (Token × Nat)} (h : Reads t tokens rest)
    {c : Cursor} (running : c.done = false) (here : c.program.drop c.pos = t) :
    ∃ late ending, (cursor c).script = some (tokens ++ late, ending) := by
  induction h generalizing c with
  | stop t => exact exists_script running
  | @next t rest token n tokens found _ ih =>
      have next : (cursor c).resume = some (.yielded token n, cursor { c with pos := c.pos + n }) := by
        simp [resume, Cursor.resume, running, here, found]
      obtain ⟨late, ending, script⟩ := ih (c := { c with pos := c.pos + n }) running
        (by rw [← here, List.drop_drop])
      exact ⟨late, ending, by rw [script_of_yielded next, script, List.cons_append]; rfl⟩

namespace Run

theorem perform_of_failure {r s : Run} {m m' : Machine} {tokens : List (Token × Nat)} {fault : Fault}
    (h : r.perform m tokens = (some fault, s, m')) (more : List (Token × Nat)) :
    r.perform m (tokens ++ more) = (some fault, s, m') := by
  induction tokens generalizing r m with
  | nil => cases h
  | cons first tokens ih =>
      obtain ⟨token, n⟩ := first
      simp only [List.cons_append, perform] at h ⊢
      split at h
      · exact ih h
      · exact h

theorem Reaches.perform {r s : Run} {m mₛ : Machine} {tokens : List (Token × Nat)}
    (h : Reaches r m tokens s mₛ) (f : Feed) :
    { r with feed := f }.perform m tokens = (none, { s with feed := f }, mₛ) := by
  induction h with
  | refl => rfl
  | @step r r' s m m' mₛ token n tokens taken _ ih =>
      obtain ⟨running, -, next⟩ := feed_of_yielded taken
      obtain ⟨outcome, args, m₁, effect, resumed⟩ := resume_of_yielded running next m
      have here := effect f
      rw [taken] at resumed
      cases outcome with
      | error fault =>
          have stopped := answer_error_stop token n fault
          rw [← (Prod.mk.inj (Option.some.inj resumed)).1] at stopped
          cases stopped
      | ok success =>
          have still : resultOf (.ok success) = r.result := running.symm
          simp only [Option.some.injEq, Prod.mk.injEq] at resumed
          obtain ⟨-, later, rfl⟩ := resumed
          rw [later, still] at ih
          simp only [Run.perform, here]
          exact ih

theorem resume_failure {r r' : Run} {m m' : Machine} {found : Answer} {fault : Fault}
    (h : r.resume m = some (found, r', m')) (stopped : found.stop = some (some fault))
    (readable : ∀ refusal, fault ≠ .parse refusal) :
    ∃ token n, r.feed.resume = some (.yielded token n, r'.feed) ∧
      { r with span := ⟨r.program, r.offset, n⟩ }.exec token m =
        (.error fault, { r with span := ⟨r.program, r.offset, n⟩ }, m') ∧
      r'.args = r.args ∧ r'.result = resultOf (.error fault) := by
  obtain ⟨-, ⟨f', ending, next, rfl, -, -⟩ | ⟨f', token, n, outcome, args, next, done, rfl, rfl⟩⟩ :=
    resume_inversion h
  · cases stopped
    obtain ⟨left, rfl⟩ := Feed.parse_of_completed next
    exact absurd rfl (readable _)
  · cases outcome with
    | ok _ => cases stopped
    | error fault' =>
        rw [answer_error_stop] at stopped
        cases stopped
        have kept := run_of_failure done
        have sameArgs : args = r.args := congrArg Run.args kept
        rw [kept] at done
        exact ⟨token, n, next, done, sameArgs, rfl⟩

/-- Two programs that begin with the same tokens: if the last of these fails in the one, it fails in
    the other. -/
theorem finish_of_common_failure {r₀ r₁ s : Run} {m₀ m : Machine} {other rest : Text}
    {inAdvance interactive : Bool} {args : Option (List Text)} {tokens : List (Token × Nat)}
    {fault : Fault} (offset : r₀.offset = 0) (sameArgs : r₀.args = args) (smooth : r₀.Smooth m₀)
    (smooth' : interactive = true → m₀.console.Smooth)
    (failed : r₀.perform m₀ tokens = (some fault, s, m)) (reads : Reads other tokens rest)
    (begun : start other inAdvance args interactive = .ok r₁) :
    ∃ r' m', r₁.finish m₀ = some (some fault, r', m') ∧ m.Agree m' := by
  obtain ⟨feed, made, rfl⟩ := start_eq begun
  obtain ⟨late, ending, script⟩ :=
    Feed.script_of_reads reads (c := .ofProgram other) rfl (List.drop_zero ..)
  rw [← Feed.script_ofProgram made] at script
  obtain ⟨_, _, s', _, m', first, second, agree, -⟩ :=
    perform_shift (r := r₀) (s := ⟨other, feed, args, interactive, 0, ⟨other, 0, 0⟩, none⟩)
      smooth smooth' sameArgs.symm (show 0 + 0 = r₀.offset + 0 by rw [offset]) (.refl m₀) tokens
  cases first.symm.trans failed
  -- The failing token is the last one performed, whatever the script has behind it.
  rw [widen_zero] at second
  obtain ⟨f', finished⟩ := finish_of_script script
    ⟨other, feed, args, interactive, 0, ⟨other, 0, 0⟩, none⟩ rfl m₀
  rw [perform_of_failure second late] at finished
  exact ⟨_, m', finished, agree⟩

/-- An instruction that fails for too few values leaves everything as it is. If it fails otherwise, its
    values are gone, nothing is given, nothing has been written, and no given line is used up. If it
    succeeds, the queue is what is left behind its values, and then its results. A run that fails in an
    instruction leaves what that instruction leaves of the machine that it found, it refuses to go on
    unless the fault escapes, and every program that begins with the same instructions leaves the same,
    if no prompts fail. -/
theorem failures_leave_what_was_not_taken :
    (∀ (r r' : Run) (token : Token) (m m' : Machine) (fault : Fault),
      r.exec token m = (.error fault, r', m') → r'.args = r.args ∧ Aborts token m fault m') ∧
    (∀ (r r' : Run) (token : Token) (m m' : Machine), r.exec token m = (.ok (), r', m') →
      ∃ line, (token = .input → (r.readLine m).1 = .ok line) ∧ Delivers line m.queue token m'.queue) ∧
    ∀ (program : Text) (inAdvance interactive : Bool) (args : Option (List Text)) (r₀ r : Run)
      (m₀ m : Machine) (fault : Fault), start program inAdvance args interactive = .ok r₀ →
      r₀.finish m₀ = some (some fault, r, m) → (∀ refusal, fault ≠ .parse refusal) →
      ∃ early token n s mₛ, Reads program (early ++ [(token, n)]) (program.drop r.offset) ∧
        Reaches r₀ m₀ early s mₛ ∧ Aborts token mₛ fault m ∧ r.args = s.args ∧
        (fault.escapes = false → ∀ m', r.resume m' = none) ∧
        ∀ (other rest : Text) (inAdvance' interactive' : Bool) (r₁ : Run),
          (interactive = true ∨ interactive' = true → m₀.console.Smooth) →
          Reads other (early ++ [(token, n)]) rest →
          start other inAdvance' args interactive' = .ok r₁ →
          ∃ r' m', r₁.finish m₀ = some (some fault, r', m') ∧ m.Agree m' := by
  refine ⟨?_, fun _ _ _ _ _ => exec_delivers, ?_⟩
  · intro r r' token m m' fault failed
    exact ⟨congrArg Run.args (run_of_failure failed), exec_aborts failed⟩
  · intro program inAdvance interactive args r₀ r m₀ m fault begun finished readable
    obtain ⟨early, s, mₛ, found, reached, last, stopped⟩ := exists_reaches_of_finish finished
    obtain ⟨token, n, next, failed, sameArgs, ended⟩ := resume_failure last stopped readable
    have tracked := (tracked_start begun).reaches reached
    rw [List.nil_append] at tracked
    have reads : Reads program (early ++ [(token, n)]) (program.drop r.offset) := by
      obtain ⟨_, _, _, next', -, -, later⟩ | ⟨_, _, next', -⟩ := tracked.resume last
      · cases next.symm.trans next'
        exact later.reads
      · cases next.symm.trans next'
    have halted (kept : fault.escapes = false) : r.result.isSome = true := by
      rw [ended, resultOf_of_not_escapes kept]
      rfl
    refine ⟨early, token, n, s, mₛ, reads, reached, exec_aborts failed, sameArgs,
      fun kept => resume_of_ended (halted kept), ?_⟩
    intro other rest inAdvance' interactive' r₁ smooth readsOther begunOther
    obtain ⟨feed, -, rfl⟩ := start_eq begun
    -- All but the last of the tokens succeed, so performing them leads to the failing one.
    have performed := (perform_of_success (reached.perform s.feed)).2.2 [(token, n)]
    simp only [perform, failed] at performed
    exact finish_of_common_failure rfl rfl (fun marked => smooth (.inl marked))
      (fun marked => smooth (.inr marked)) performed readsOther begunOther

/-- One value cannot be concatenated and stays. An element that is not there is gone with its value, and
    so is what would have been written behind it. -/
theorem failures_leave_what_was_not_taken_index :
    let program : Text := ['*', '|', '9', '|', '>']
    let m₀ : Machine := ⟨[.string ['a'], .string ['b']], {}⟩
    let m : Machine := ⟨[.string ['a'], .string ['a']], {}⟩
    let fault : Fault := .range (.outside ['9'] (9, 9) (0, 1))
    Aborts .concat ⟨[.string ['a']], {}⟩ (.kind (.queueTooShort 2 1)) ⟨[.string ['a']], {}⟩ ∧
    (∃ line, Delivers line m₀.queue .copy [.string ['b'], .string ['a'], .string ['a']]) ∧
    ∃ r, (fresh program).finish m₀ = some (some fault, r, m) ∧
      ∃ early token n s mₛ, Reads program (early ++ [(token, n)]) ['>'] ∧
        Reaches (fresh program) m₀ early s mₛ ∧ Aborts token mₛ fault m := by
  intro program m₀ m fault
  obtain ⟨failing, succeeding, running⟩ := failures_leave_what_was_not_taken
  refine ⟨?_, ?_, ?_⟩
  · exact (failing (fresh program) _ .concat _ _ _ rfl).2
  · obtain ⟨line, -, given⟩ := succeeding (fresh program) _ .copy m₀ _ rfl
    exact ⟨line, given⟩
  · let r : Run := ⟨program, .cursor ⟨program, 4, false⟩, none, false, 4, ⟨program, 1, 3⟩, some (some fault)⟩
    have finished : (fresh program).finish m₀ = some (some fault, r, m) := by
      rw [finish_of_yielded rfl, finish_of_completed rfl]
      rfl
    obtain ⟨early, token, n, s, mₛ, reads, reached, aborted, -⟩ :=
      running program false false none (fresh program) r m₀ m fault rfl finished nofun
    exact ⟨r, finished, early, token, n, s, mₛ, reads, reached, aborted⟩

end Run

end QueueScript
