import QueueScript.Proofs.Kinds

/-! # What one instruction does

`Executes` lists what an instruction can do to the queue, whatever the streams give and take, and
`exec_executes` says that executing does one of these. What holds of every queue that runs can lead to
is proved from this list, without a look at the definition of `Run.exec`.

`exec_console` is the counterpart for the console: an instruction logs, only `<` reads and only `>`
writes. `resume_inversion` carries both over to a step of a run.
-/

namespace QueueScript

/-- The queue before an instruction, how the instruction ends, and the queue after it. -/
inductive Executes : Token → List Value → Except Fault Unit → List Value → Prop where
  | short {token : Token} {queue : List Value} : queue.length < token.takes →
      Executes token queue (.error (.kind (.queueTooShort token.takes queue.length))) queue
  | read (queue : List Value) (line : Text) : Executes .input queue (.ok ()) (queue ++ [.string line])
  | unread (queue : List Value) (fault : StreamFault) :
      Executes .input queue (.error (.stream fault)) queue
  | written (v : Value) (rest : List Value) : Executes .output (v :: rest) (.ok ()) rest
  | unwritten (v : Value) (rest : List Value) (fault : StreamFault) :
      Executes .output (v :: rest) (.error (.stream fault)) rest
  | joined {left right v : Value} (rest : List Value) : left.concat right = .ok v →
      Executes .concat (left :: right :: rest) (.ok ()) (rest ++ [v])
  | unjoined {left right : Value} {fault : Fault} (rest : List Value) :
      left.concat right = .error fault → Executes .concat (left :: right :: rest) (.error fault) rest
  | copied (v : Value) (rest : List Value) : Executes .copy (v :: rest) (.ok ()) (rest ++ [v, v])
  | rotated (count : Int) (queue : List Value) :
      Executes (.rotate count) queue (.ok ()) (rotate count queue)
  | applied {operator : Operator} {v w : Value} (rest : List Value) : operator.apply v = .ok w →
      Executes (.apply operator) (v :: rest) (.ok ()) (rest ++ [w])
  | unapplied {operator : Operator} {v : Value} {fault : Fault} (rest : List Value) :
      operator.apply v = .error fault → Executes (.apply operator) (v :: rest) (.error fault) rest

/-- What an instruction adds to the length of the queue. One that finds too few values takes none, and
    any other that fails has taken its values and gives nothing. -/
def Token.balance (token : Token) : Except Fault Unit → Int
  | .ok () => token.gives - token.takes
  | .error (.kind (.queueTooShort _ _)) => 0
  | .error _ => -token.takes

theorem length_rotate {α : Type} (count : Int) (queue : List α) :
    (rotate count queue).length = queue.length := by
  simp only [rotate, List.length_append, List.length_drop, List.length_take]
  omega

theorem Operator.apply_ne_short (operator : Operator) (v : Value) (needed found : Nat) :
    operator.apply v ≠ .error (.kind (.queueTooShort needed found)) := by
  intro failed
  have foreseen := operator.apply_foreseen v
  rw [failed] at foreseen
  generalize known : operator.onKind v.kind = kind at foreseen
  cases foreseen with
  | fault => cases operator <;> cases v <;> cases known
  | hidden _ unseen => exact unseen

theorem Value.concat_ne_short (left right : Value) (needed found : Nat) :
    left.concat right ≠ .error (.kind (.queueTooShort needed found)) := by
  intro failed
  cases left <;> cases right <;> cases failed

theorem Token.balance_of_ne_short (token : Token) {fault : Fault}
    (h : ∀ needed found, fault ≠ .kind (.queueTooShort needed found)) :
    token.balance (.error fault) = -token.takes := by
  cases fault with
  | kind refusal =>
      cases refusal with
      | queueTooShort needed found => exact absurd rfl (h needed found)
      | unexpected | unequal => rfl
  | parse | range | stream => rfl

theorem Executes.length_eq {token : Token} {before after : List Value} {outcome : Except Fault Unit}
    (h : Executes token before outcome after) :
    (after.length : Int) = before.length + token.balance outcome := by
  cases h with
  | short => simp only [Token.balance, Int.add_zero]
  | read | written | joined | copied | applied | unread | unwritten =>
      simp only [Token.balance, Token.gives, Token.takes, List.length_append, List.length_cons,
        List.length_nil]
      omega
  | rotated =>
      simp only [Token.balance, Token.gives, Token.takes, length_rotate]
      omega
  | @unjoined left right fault rest failed =>
      rw [Token.balance_of_ne_short]
      · simp only [Token.takes, List.length_cons]
        omega
      · rintro needed found rfl
        exact left.concat_ne_short right needed found failed
  | @unapplied operator v fault rest failed =>
      rw [Token.balance_of_ne_short]
      · simp only [Token.takes, List.length_cons]
        omega
      · rintro needed found rfl
        exact operator.apply_ne_short v needed found failed

namespace Run

theorem exec_executes (r : Run) (token : Token) (m : Machine) :
    Executes token m.queue (r.exec token m).1 (r.exec token m).2.2.queue := by
  obtain ⟨queue, console⟩ := m
  cases token with
  | input =>
      have same := queue_readLine r ⟨queue, console⟩
      simp only [exec]
      split
      · rename_i line r' m' read
        simp only [read] at same
        rw [← same]
        exact .read m'.queue line
      · rename_i fault r' m' read
        simp only [read] at same
        rw [same]
        exact .unread queue fault
  | output =>
      cases queue with
      | nil => exact .short (Nat.zero_lt_one)
      | cons v rest =>
          simp only [exec]
          split
          · simp only [settle, Machine.push, Machine.logQueue, List.append_nil]
            exact .written v rest
          · exact .unwritten v rest _
  | concat =>
      cases queue with
      | nil => exact .short (Nat.zero_lt_two)
      | cons left queue =>
          cases queue with
          | nil => exact .short (Nat.one_lt_two)
          | cons right rest =>
              simp only [exec]
              cases computed : left.concat right with
              | ok v => exact .joined rest computed
              | error fault => exact .unjoined rest computed
  | copy =>
      cases queue with
      | nil => exact .short (Nat.zero_lt_one)
      | cons v rest => exact .copied v rest
  | rotate count =>
      simp only [exec, settle, Machine.push, Machine.logQueue, List.append_nil]
      exact .rotated count queue
  | apply operator =>
      cases queue with
      | nil => exact .short (Nat.zero_lt_one)
      | cons v rest =>
          simp only [exec]
          cases computed : operator.apply v with
          | ok w => exact .applied rest computed
          | error fault => exact .unapplied rest computed

section Console

variable {P : Console → Console → Prop} (refl : ∀ c, P c c)
  (debug : ∀ c topic message, P c (c.debug topic message))

include refl debug

theorem settle_console (r : Run) (m : Machine) (results : Except Fault (List Value)) :
    P m.console (r.settle m results).2.2.console := by
  cases results with
  | ok values =>
      simp only [settle, Machine.push, Machine.logQueue]
      exact debug m.console .queue _
  | error fault => exact refl m.console

/-- What holds of reading at `<`, of writing at `>` and of logging holds of every instruction. -/
theorem exec_console (r : Run) (token : Token) (m : Machine)
    (trans : ∀ {c d e}, P c d → P d e → P c e)
    (read : token = .input → ∀ c, P c (c.readLine r.promptSpan).2)
    (write : token = .output → ∀ c v, P c (c.output r.promptSpan v).2) :
    P m.console (r.exec token m).2.2.console := by
  obtain ⟨queue, console⟩ := m
  have settled (r : Run) (m : Machine) (results : Except Fault (List Value)) :=
    settle_console refl debug r m results
  cases token with
  | input =>
      have taken : P console (r.readLine ⟨queue, console⟩).2.2.console := by
        unfold Run.readLine
        split
        · exact refl console
        · exact read rfl console
      simp only [exec]
      split
      · rename_i result
        rw [result] at taken
        exact trans taken (settled ..)
      · rename_i result
        rw [result] at taken
        exact taken
  | output =>
      cases queue with
      | nil => exact refl console
      | cons v rest =>
          have shown := write rfl console v
          simp only [exec]
          split
          · rename_i result
            rw [result] at shown
            exact trans shown (settled r ⟨rest, _⟩ _)
          · rename_i result
            rw [result] at shown
            exact shown
  | concat =>
      simp only [exec]
      split
      · exact settled r ⟨_, console⟩ _
      · exact refl console
  | copy =>
      cases queue with
      | nil => exact refl console
      | cons v rest => exact settled r ⟨rest, console⟩ (.ok [v, v])
  | rotate count => exact settled r ⟨QueueScript.rotate count queue, console⟩ (.ok [])
  | apply operator =>
      cases queue with
      | nil => exact refl console
      | cons v rest => exact settled r ⟨rest, console⟩ _

end Console

/-- All that a step of a run can do: the feed ends and the run with it, or the token of the feed is
    executed over its own stretch of the program. -/
theorem resume_inversion {r r' : Run} {m m' : Machine} {found : Answer}
    (h : r.resume m = some (found, r', m')) :
    r.result = none ∧
    ((∃ f' ending, r.feed.resume = some (.completed ending, f') ∧ found = .completed ending ∧
        r' = { (conclude ending (none, r, m)).2.1 with feed := f' } ∧
        m' = (conclude ending (none, r, m)).2.2) ∨
      ∃ f' token n outcome args, r.feed.resume = some (.yielded token n, f') ∧
        { r with span := ⟨r.program, r.offset, n⟩ }.exec token m =
          (outcome, { r with span := ⟨r.program, r.offset, n⟩, args := args }, m') ∧
        found = answer token n outcome ∧
        r' = { r with
          feed := f'
          span := ⟨r.program, r.offset, n⟩
          args := args
          offset := r.offset + n
          result := resultOf outcome }) := by
  obtain ⟨running, ⟨ending, next, -⟩ | ⟨token, n, next, -⟩⟩ := resume_cases h
  · refine ⟨running, .inl ⟨r'.feed, ending, next, ?_⟩⟩
    generalize r'.feed = f' at next ⊢
    rw [resume_of_completed running next m] at h
    cases h
    exact ⟨rfl, rfl, rfl⟩
  · refine ⟨running, .inr ⟨r'.feed, token, n, ?_⟩⟩
    generalize r'.feed = f' at next ⊢
    obtain ⟨outcome, args, m'', effect, taken⟩ := resume_of_yielded running next m
    have here := effect r.feed
    rw [taken] at h
    cases h
    exact ⟨outcome, args, next, here, rfl, rfl⟩

theorem resume_console {P : Console → Console → Prop} (refl : ∀ c, P c c)
    (trans : ∀ {c d e}, P c d → P d e → P c e)
    (debug : ∀ c topic message, P c (c.debug topic message))
    (read : ∀ c span, P c (c.readLine span).2) (write : ∀ c span v, P c (c.output span v).2)
    {r r' : Run} {m m' : Machine} {found : Answer} (h : r.resume m = some (found, r', m')) :
    P m.console m'.console := by
  obtain ⟨-, ⟨_, ending, -, -, -, rfl⟩ | ⟨_, token, n, outcome, args, -, done, -, -⟩⟩ :=
    resume_inversion h
  · cases ending with
    | none => exact refl m.console
    | some fault =>
        simp only [conclude, Machine.logMismatch]
        split
        · exact refl m.console
        · simp only
          exact debug m.console ..
  · have executed := exec_console refl debug { r with span := ⟨r.program, r.offset, n⟩ } token m trans
      (fun _ c => read c _) (fun _ c v => write c _ v)
    rw [done] at executed
    exact executed

end Run

end QueueScript
