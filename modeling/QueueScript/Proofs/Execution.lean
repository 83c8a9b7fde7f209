import QueueScript.Run
import QueueScript.Proofs.Feeds

/-! # Executing a list of tokens

`Run.perform` executes tokens one after the other and stops at the first fault. It does not look at
the feed of the run, and a whole run does no more than to perform the script of its feed and then to
end as the script does (`finish_of_script`). Whether the fault of an instruction ends the run or escapes
shows in the answer and in the result only (`Run.answer`, `Run.resultOf`).
-/

namespace QueueScript

/-- What an answer stops a run with, if it does: no fault at the end of the program, or the fault that
    has ended the run or escaped. -/
def Answer.stop : Answer → Option (Option Fault)
  | .yielded _ _ => none
  | .completed fault => some fault
  | .raised fault => some (some fault)

/-- The second console is the first one with more messages in its log. -/
def Console.Logs (c d : Console) : Prop :=
  ∃ messages : List Text, d = { c with events := c.events ++ messages.map .debug }

theorem Console.Logs.refl (c : Console) : c.Logs c :=
  ⟨[], by simp⟩

theorem Console.Logs.trans {c d e : Console} (h : c.Logs d) (h' : d.Logs e) : c.Logs e := by
  obtain ⟨messages, rfl⟩ := h
  obtain ⟨messages', rfl⟩ := h'
  exact ⟨messages ++ messages', by simp⟩

theorem Console.logs_debug (c : Console) (topic : Topic) (message : Unit → Text) :
    c.Logs (c.debug topic message) := by
  unfold debug
  split
  · exact ⟨[message ()], rfl⟩
  · exact .refl c

theorem Machine.logs_logMismatch (m : Machine) (program : Text) (pos : Nat) :
    (m.logMismatch program pos).queue = m.queue ∧
      m.console.Logs (m.logMismatch program pos).console := by
  unfold logMismatch
  split
  · exact ⟨rfl, .refl m.console⟩
  · refine ⟨rfl, ?_⟩
    simp only
    exact m.console.logs_debug ..

namespace Run

/-- Executing an instruction looks at the given lines, at whether the run is interactive and at
    the span, and changes the given lines only. -/
theorem exec_congr {r s : Run} (sameArgs : s.args = r.args)
    (sameMode : s.interactive = r.interactive) (sameSpan : s.span = r.span)
    (token : Token) (m : Machine) :
    s.exec token m =
      ((r.exec token m).1, { s with args := (r.exec token m).2.1.args }, (r.exec token m).2.2) := by
  obtain ⟨_, _, args, interactive, _, span, _⟩ := r
  obtain ⟨_, _, _, _, _, _, _⟩ := s
  cases sameArgs
  cases sameMode
  cases sameSpan
  cases token with
  | input =>
      simp only [exec, readLine, promptSpan]
      cases args.bind List.getLast? with
      | some line => rfl
      | none =>
          cases m.console.readLine (if interactive = true then some span else none) with
          | mk line console => cases line <;> rfl
  | output =>
      simp only [exec, promptSpan]
      cases m.queue with
      | nil => rfl
      | cons v rest =>
          simp only
          cases m.console.output (if interactive = true then some span else none) v with
          | mk written console => cases written <;> rfl
  | concat =>
      simp only [exec]
      split
      · rename_i left right rest _
        cases left.concat right <;> rfl
      · rfl
  | copy =>
      simp only [exec]
      split <;> rfl
  | rotate count => rfl
  | apply operator =>
      simp only [exec]
      split
      · rfl
      · rename_i v rest _
        cases operator.apply v <;> rfl

theorem exec_effect (r : Run) (token : Token) (m : Machine) :
    ∃ outcome args m', ∀ f, { r with feed := f }.exec token m =
      (outcome, { r with feed := f, args := args }, m') := by
  refine ⟨(r.exec token m).1, (r.exec token m).2.1.args, (r.exec token m).2.2, fun f => ?_⟩
  exact exec_congr (r := r) (s := { r with feed := f }) rfl rfl rfl token m

/-- Executes tokens in order, each over its own stretch of the program, up to the first fault. -/
def perform (r : Run) (m : Machine) : List (Token × Nat) → Option Fault × Run × Machine
  | [] => (none, r, m)
  | (token, n) :: tokens =>
      match { r with span := ⟨r.program, r.offset, n⟩ }.exec token m with
      | (.ok (), r, m) => { r with offset := r.offset + n }.perform m tokens
      | (.error fault, r, m) => (some fault, { r with offset := r.offset + n }, m)

/-- How a run answers an instruction that ended so. -/
def answer (token : Token) (n : Nat) : Except Fault Unit → Answer
  | .ok () => .yielded token n
  | .error fault => if fault.escapes then .raised fault else .completed (some fault)

/-- Whether a run has ended after an instruction, and how. -/
def resultOf : Except Fault Unit → Option (Option Fault)
  | .ok () => none
  | .error fault => if fault.escapes then none else some (some fault)

@[simp]
theorem answer_error_stop (token : Token) (n : Nat) (fault : Fault) :
    (answer token n (.error fault)).stop = some (some fault) := by
  simp only [answer]
  split <;> rfl

theorem answer_of_not_escapes (token : Token) (n : Nat) {fault : Fault} (h : fault.escapes = false) :
    answer token n (.error fault) = .completed (some fault) := by
  simp [answer, h]

theorem resultOf_of_not_escapes {fault : Fault} (h : fault.escapes = false) :
    resultOf (.error fault) = some (some fault) := by
  simp [resultOf, h]

/-- Ends a run whose tokens were performed: with the fault of a token, or as its script ends. A
    script that ends with a fault leaves the span on the text that could not be read. -/
def conclude (ending : Option Fault) : Option Fault × Run × Machine → Option Fault × Run × Machine
  | (some fault, r, m) => (some fault, { r with result := resultOf (.error fault) }, m)
  | (none, r, m) =>
      match ending with
      | none => (none, { r with result := some none }, m)
      | some fault =>
          (some fault,
            { r with
              span := ⟨r.program, r.offset, r.program.length - r.offset⟩
              result := some (some fault) },
            m.logMismatch r.program r.offset)

theorem start_eq {program : Text} {inAdvance interactive : Bool} {args : Option (List Text)}
    {r : Run} (h : start program inAdvance args interactive = .ok r) :
    ∃ feed, Feed.ofProgram inAdvance program = .ok feed ∧
      r = ⟨program, feed, args, interactive, 0, ⟨program, 0, 0⟩, none⟩ := by
  cases made : Feed.ofProgram inAdvance program with
  | error fault => simp [start, made, Except.map] at h
  | ok feed =>
      simp only [start, made, Except.map, Except.ok.injEq] at h
      exact ⟨feed, rfl, h.symm⟩

section Resume

variable {r : Run} {f' : Feed}

theorem resume_of_ended (h : r.result.isSome = true) (m : Machine) : r.resume m = none := by
  simp [resume, h]

theorem resume_of_yielded {token : Token} {n : Nat} (running : r.result = none)
    (next : r.feed.resume = some (.yielded token n, f')) (m : Machine) :
    ∃ outcome args m',
      (∀ f, { r with feed := f, span := ⟨r.program, r.offset, n⟩ }.exec token m =
        (outcome, { r with feed := f, span := ⟨r.program, r.offset, n⟩, args := args }, m')) ∧
      r.resume m =
        some (answer token n outcome,
          { r with
            feed := f'
            span := ⟨r.program, r.offset, n⟩
            args := args
            offset := r.offset + n
            result := resultOf outcome },
          m') := by
  obtain ⟨outcome, args, m', effect⟩ :=
    exec_effect { r with span := ⟨r.program, r.offset, n⟩ } token m
  refine ⟨outcome, args, m', effect, ?_⟩
  have here := effect f'
  simp only at here
  simp only [resume, next, here]
  simp only [running, Option.isSome_none, Bool.false_eq_true, if_false]
  cases outcome with
  | ok _ => rfl
  | error fault =>
      simp only [answer, resultOf]
      split <;> rfl

theorem resume_of_completed {fault : Option Fault} (running : r.result = none)
    (next : r.feed.resume = some (.completed fault, f')) (m : Machine) :
    r.resume m =
      some (.completed fault,
        { (conclude fault (none, r, m)).2.1 with feed := f' },
        (conclude fault (none, r, m)).2.2) := by
  cases fault <;> simp [resume, running, next, conclude]

end Resume

/-- What resuming a run can do: end as its feed does, or execute the token of its feed. -/
theorem resume_cases {r r' : Run} {m m' : Machine} {found : Answer}
    (h : r.resume m = some (found, r', m')) :
    r.result = none ∧
    ((∃ ending, r.feed.resume = some (.completed ending, r'.feed) ∧ found = .completed ending) ∨
      ∃ token n, r.feed.resume = some (.yielded token n, r'.feed) ∧
        ((found = .yielded token n ∧ r'.result = none) ∨
          ∃ fault, found = answer token n (.error fault) ∧ r'.result = resultOf (.error fault))) := by
  cases running : r.result with
  | some ended => simp [resume_of_ended (r := r) (by rw [running]; rfl) m] at h
  | none =>
      refine ⟨rfl, ?_⟩
      cases next : r.feed.resume with
      | none => simp [resume, running, next] at h
      | some result =>
          obtain ⟨step, f'⟩ := result
          cases step with
          | completed ending =>
              rw [resume_of_completed running next m] at h
              cases h
              exact .inl ⟨ending, rfl, rfl⟩
          | yielded token n =>
              obtain ⟨outcome, args, m'', -, taken⟩ := resume_of_yielded running next m
              rw [taken] at h
              cases h
              cases outcome with
              | ok _ => exact .inr ⟨token, n, rfl, .inl ⟨rfl, rfl⟩⟩
              | error fault => exact .inr ⟨token, n, rfl, .inr ⟨fault, rfl, rfl⟩⟩

theorem feed_of_yielded {r r' : Run} {m m' : Machine} {token : Token} {n : Nat}
    (h : r.resume m = some (.yielded token n, r', m')) :
    r.result = none ∧ r'.result = none ∧ r.feed.resume = some (.yielded token n, r'.feed) := by
  obtain ⟨running, ⟨_, _, ended⟩ | ⟨token', k, next, ⟨same, later⟩ | ⟨fault, failed, _⟩⟩⟩ := resume_cases h
  · cases ended
  · cases same
    exact ⟨running, later, next⟩
  · have stopped := answer_error_stop token' k fault
    rw [← failed] at stopped
    cases stopped

/-- A run that executes the tokens one after the other, all of them with success. -/
inductive Reaches : Run → Machine → List (Token × Nat) → Run → Machine → Prop where
  | refl (r : Run) (m : Machine) : Reaches r m [] r m
  | step {r r' s : Run} {m m' mₛ : Machine} {token : Token} {n : Nat}
      {tokens : List (Token × Nat)} :
      r.resume m = some (.yielded token n, r', m') → Reaches r' m' tokens s mₛ →
      Reaches r m ((token, n) :: tokens) s mₛ

/-- A run that executes the tokens with success and then stops with the fault. -/
def Fails (r : Run) (m : Machine) (tokens : List (Token × Nat)) (fault : Fault) : Prop :=
  ∃ s mₛ found s' m', Reaches r m tokens s mₛ ∧ s.resume mₛ = some (found, s', m') ∧
    found.stop = some (some fault)

theorem Fails.step {r r' : Run} {m m' : Machine} {token : Token} {n : Nat}
    {tokens : List (Token × Nat)} {fault : Fault}
    (taken : r.resume m = some (.yielded token n, r', m')) (h : r'.Fails m' tokens fault) :
    r.Fails m ((token, n) :: tokens) fault := by
  obtain ⟨s, mₛ, found, s', m'', reached, ended⟩ := h
  exact ⟨s, mₛ, found, s', m'', .step taken reached, ended⟩

section Drive

variable {after : Run → Token → Machine → Machine} {r r' : Run} {m m' : Machine}

theorem drive_of_ended (h : r.resume m = none) : r.drive after m = none := by
  rw [drive]
  split <;> simp_all

theorem drive_of_stop {found : Answer} {fault : Option Fault}
    (h : r.resume m = some (found, r', m')) (stopped : found.stop = some fault) :
    r.drive after m = some (fault, r', m') := by
  rw [drive]
  cases found with
  | yielded => cases stopped
  | completed | raised =>
      cases stopped
      split <;> simp_all

theorem drive_of_yielded {token : Token} {n : Nat} (h : r.resume m = some (.yielded token n, r', m')) :
    r.drive after m = r'.drive after (after r' token m') := by
  rw [drive]
  split <;> simp_all

end Drive

theorem finish_of_stop {r r' : Run} {m m' : Machine} {found : Answer} {fault : Option Fault}
    (h : r.resume m = some (found, r', m')) (stopped : found.stop = some fault) :
    r.finish m = some (fault, r', m') :=
  drive_of_stop h stopped

theorem finish_of_completed {r r' : Run} {m m' : Machine} {fault : Option Fault}
    (h : r.resume m = some (.completed fault, r', m')) : r.finish m = some (fault, r', m') :=
  finish_of_stop h rfl

theorem finish_of_yielded {r r' : Run} {m m' : Machine} {token : Token} {n : Nat}
    (h : r.resume m = some (.yielded token n, r', m')) : r.finish m = r'.finish m' :=
  drive_of_yielded h

section Reaches

variable {r s : Run} {m mₛ : Machine} {tokens : List (Token × Nat)}

theorem Reaches.finish (h : Reaches r m tokens s mₛ) : r.finish m = s.finish mₛ := by
  induction h with
  | refl => rfl
  | step taken _ ih => exact (finish_of_yielded taken).trans ih

theorem Reaches.exists_late (h : Reaches r m tokens s mₛ) {all : List (Token × Nat)}
    {ending : Option Fault} (running : r.result = none)
    (script : r.feed.script = some (all, ending)) :
    ∃ late, all = tokens ++ late ∧ s.feed.script = some (late, ending) ∧ s.result = none := by
  induction h generalizing all with
  | refl r m => exact ⟨all, rfl, script, running⟩
  | step taken _ ih =>
      obtain ⟨-, running', next⟩ := feed_of_yielded taken
      rw [Feed.script_of_yielded next] at script
      obtain ⟨⟨rest, ending'⟩, later, same⟩ := Option.map_eq_some_iff.mp script
      cases same
      obtain ⟨late, rfl, left, running''⟩ := ih running' later
      exact ⟨late, rfl, left, running''⟩

end Reaches

/-- A run performs the script of its feed and then ends as the script does. -/
theorem finish_of_script {tokens : List (Token × Nat)} {ending : Option Fault} {f : Feed}
    (script : f.script = some (tokens, ending)) (r : Run) (running : r.result = none)
    (m : Machine) :
    ∃ f', { r with feed := f }.finish m =
      some ((conclude ending (r.perform m tokens)).1,
        { (conclude ending (r.perform m tokens)).2.1 with feed := f' },
        (conclude ending (r.perform m tokens)).2.2) := by
  -- The feed and the run go on apart from each other: `perform` never looks at the feed.
  induction tokens generalizing r f m with
  | nil =>
      obtain ⟨f', next, -⟩ := Feed.resume_of_script_nil script
      refine ⟨f', ?_⟩
      rw [finish_of_completed (resume_of_completed (r := { r with feed := f }) running next m)]
      cases ending <;> rfl
  | cons first tokens ih =>
      obtain ⟨token, n⟩ := first
      obtain ⟨f', next, later⟩ := Feed.resume_of_script_cons script
      obtain ⟨outcome, args, m', effect, step⟩ :=
        resume_of_yielded (r := { r with feed := f }) running next m
      have here := effect r.feed
      cases outcome with
      | ok success =>
          have still : resultOf (.ok success) = r.result := running.symm
          rw [finish_of_yielded step, still]
          obtain ⟨g, rest⟩ := ih later
            { r with span := ⟨r.program, r.offset, n⟩, args := args, offset := r.offset + n }
            running m'
          refine ⟨g, ?_⟩
          simp only [perform, here]
          exact rest
      | error fault =>
          refine ⟨f', ?_⟩
          rw [finish_of_stop step (answer_error_stop token n fault)]
          simp only [perform, here]
          rfl

end Run

end QueueScript
