import QueueScript.Proofs.Execution

/-! # Kinds predict the faults of a run

`Token.onKinds` executes a token on a queue of kinds alone. It predicts the kinds of the queue
after every token that succeeds, and exactly the faults that are about the number or the kinds of
values. What it cannot see are ranges that do not fit their sequence, and the streams.

`exec_predicted` is the simulation for one token. Runs follow from it, because two queues of the
same kinds stay so as long as no run is stopped by something that kinds do not show.
-/

namespace QueueScript

/-- The kind of what an operator gives, by the kind of what it takes. -/
def Operator.onKind : Operator → Kind → Except KindFault Kind
  | .split _, .string => .ok .list
  | .split _, k => .error (.unexpected [.string] k)
  | .join, .list => .ok .string
  | .join, k => .error (.unexpected [.list] k)
  | .check _, .bool | .mapCase _, .bool | .filter _, .bool | .slice _, .bool | .index _, .bool =>
      .error (.unexpected [.string, .list] .bool)
  | .check _, _ => .ok .bool
  | .mapCase _, k | .filter _, k | .slice _, k => .ok k
  | .index _, _ => .ok .string

/-- The kind of one value appended to another. A boolean is reported by the kind of the other
    value, a boolean on the right first. -/
def Kind.concat : Kind → Kind → Except KindFault Kind
  | .string, .string => .ok .string
  | .list, .list => .ok .list
  | left, .bool => .error (.unexpected [.string, .list] left)
  | .bool, right => .error (.unexpected [.string, .list] right)
  | left, right => .error (.unequal left right)

/-- Executes a token on a queue of kinds, front first. -/
def Token.onKinds : Token → List Kind → Except KindFault (List Kind)
  | .input, kinds => .ok (kinds ++ [.string])
  | .output, _ :: kinds => .ok kinds
  | .concat, left :: right :: kinds => (left.concat right).map fun k => kinds ++ [k]
  | .copy, k :: kinds => .ok (kinds ++ [k, k])
  | .rotate count, kinds => .ok (kinds.rotateLeft (count % kinds.length).toNat)
  | .apply operator, k :: kinds => (operator.onKind k).map fun k => kinds ++ [k]
  | .concat, kinds => .error (.queueTooShort 2 kinds.length)
  | .output, [] | .copy, [] | .apply _, [] => .error (.queueTooShort 1 0)

def Token.allOnKinds (kinds : List Kind) (tokens : List Token) : Except KindFault (List Kind) :=
  tokens.foldlM (fun kinds token => token.onKinds kinds) kinds

def Machine.kinds (m : Machine) : List Kind :=
  m.queue.map Value.kind

/-- A fault that no kinds show: a range that does not fit, or a stream. -/
def Fault.Hidden (token : Token) : Fault → Prop
  | .range _ => (∃ range, token = .apply (.slice range)) ∨ ∃ bound, token = .apply (.index bound)
  | .stream _ => token = .input ∨ token = .output
  | .kind _ | .parse _ => False

/-- What the kinds before a token say about its outcome and the kinds after it. -/
inductive Predicted (token : Token) (before : List Kind) :
    Except Fault Unit → List Kind → Prop where
  | success {after : List Kind} : token.onKinds before = .ok after →
      Predicted token before (.ok ()) after
  | failure {fault : KindFault} {after : List Kind} : token.onKinds before = .error fault →
      Predicted token before (.error (.kind fault)) after
  | hidden {fault : Fault} {after expected : List Kind} : fault.Hidden token →
      token.onKinds before = .ok expected → Predicted token before (.error fault) after

/-- What the kinds of the operands say about the value that a token computes. -/
inductive Foreseen (token : Token) : Except Fault Value → Except KindFault Kind → Prop where
  | value (v : Value) : Foreseen token (.ok v) (.ok v.kind)
  | fault (fault : KindFault) : Foreseen token (.error (.kind fault)) (.error fault)
  | hidden {fault : Fault} (k : Kind) : fault.Hidden token → Foreseen token (.error fault) (.ok k)

theorem split_string (literal : Option Text) (t : Text) :
    ∃ items, Value.split literal (.string t) = .ok (.list items) := by
  cases literal with
  | none => exact ⟨_, rfl⟩
  | some pattern => cases pattern <;> exact ⟨_, rfl⟩

theorem Operator.apply_foreseen (operator : Operator) (v : Value) :
    Foreseen (.apply operator) (operator.apply v) (operator.onKind v.kind) := by
  cases operator with
  | split literal =>
      cases v with
      | string t =>
          obtain ⟨items, split⟩ := split_string literal t
          rw [Operator.apply, split]
          exact .value (.list items)
      | list | bool => exact .fault _
  | join =>
      cases v with
      | list items => exact .value _
      | string | bool => exact .fault _
  | check letters | mapCase change | filter letters =>
      cases v with
      | string | list => exact .value _
      | bool => exact .fault _
  | slice range =>
      cases v with
      | bool => exact .fault _
      | string t | list t =>
          simp only [Operator.apply, Value.slice, Value.length]
          cases range.resolve t.length with
          | ok bounds => exact .value _
          | error fault => exact .hidden _ (.inl ⟨range, rfl⟩)
  | index bound =>
      cases v with
      | bool => exact .fault _
      | string t | list t =>
          simp only [Operator.apply, Value.index, Value.length]
          cases bound.resolve t.length with
          | error fault => exact .hidden _ (.inr ⟨bound, rfl⟩)
          | ok pos =>
              simp only
              cases t[pos.toNat]? with
              | some found => exact .value _
              | none => exact .hidden _ (.inr ⟨bound, rfl⟩)

theorem Value.concat_foreseen (left right : Value) :
    Foreseen .concat (left.concat right) (left.kind.concat right.kind) := by
  cases left with
  | string a =>
      cases right with
      | string b => exact .value _
      | list | bool => exact .fault _
  | list a =>
      cases right with
      | list b => exact .value _
      | string | bool => exact .fault _
  | bool a => cases right <;> exact .fault _

theorem rotate_eq_rotateLeft {α : Type} (count : Int) (queue : List α) :
    rotate count queue = queue.rotateLeft (count % queue.length).toNat := by
  match queue with
  | [] => simp [rotate]
  | [x] => simp [rotate, List.rotateLeft]
  | x :: y :: rest =>
      have inside : (count % (x :: y :: rest).length).toNat < (x :: y :: rest).length := by
        have low := Int.emod_nonneg count (b := (x :: y :: rest).length) (by simp; omega)
        have high := Int.emod_lt_of_pos count (b := (x :: y :: rest).length) (by simp; omega)
        omega
      simp only [rotate, List.rotateLeft]
      rw [if_neg (by simp), Nat.mod_eq_of_lt inside]

theorem map_rotate {α β : Type} (f : α → β) (count : Int) (queue : List α) :
    (rotate count queue).map f = rotate count (queue.map f) := by
  simp [rotate, List.map_drop, List.map_take]

namespace Run

theorem queue_readLine (r : Run) (m : Machine) : (r.readLine m).2.2.queue = m.queue := by
  unfold readLine
  split <;> rfl

theorem kinds_settle (r : Run) (m : Machine) (values : List Value) :
    (r.settle m (.ok values)).2.2.kinds = m.kinds ++ values.map Value.kind :=
  List.map_append

theorem settle_predicted {token : Token} {before : List Kind} {computed : Except Fault Value}
    {foreseen : Except KindFault Kind} (r : Run) (m : Machine)
    (agree : Foreseen token computed foreseen)
    (step : token.onKinds before = foreseen.map fun k => m.kinds ++ [k]) :
    Predicted token before (r.settle m (computed.map ([·]))).1
      (r.settle m (computed.map ([·]))).2.2.kinds := by
  cases agree with
  | value v => exact .success (step.trans (congrArg Except.ok (kinds_settle r m [v]).symm))
  | fault fault => exact .failure step
  | hidden k hidden => exact .hidden hidden step

/-- One token: what it does to a queue is what `Token.onKinds` does to the kinds, up to ranges and
    streams. -/
theorem exec_predicted (r : Run) (token : Token) (m : Machine) :
    Predicted token m.kinds (r.exec token m).1 (r.exec token m).2.2.kinds := by
  obtain ⟨queue, console⟩ := m
  cases token with
  | input =>
      have same := queue_readLine r ⟨queue, console⟩
      simp only [exec]
      split
      · rename_i line r' m' read
        simp only [read] at same
        refine .success ?_
        rw [kinds_settle, Machine.kinds, Machine.kinds, same]
        rfl
      · exact .hidden (.inl rfl) rfl
  | output =>
      cases queue with
      | nil => exact .failure rfl
      | cons v rest =>
          simp only [exec]
          split
          · refine .success ?_
            rw [kinds_settle, List.map_nil, List.append_nil]
            rfl
          · exact .hidden (.inr rfl) rfl
  | concat =>
      cases queue with
      | nil => exact .failure rfl
      | cons left queue =>
          cases queue with
          | nil => exact .failure rfl
          | cons right rest => exact settle_predicted r _ (left.concat_foreseen right) rfl
  | copy =>
      cases queue with
      | nil => exact .failure rfl
      | cons v rest =>
          have settled := kinds_settle r ⟨rest, console⟩ [v, v]
          exact .success (congrArg Except.ok settled.symm)
  | rotate count =>
      refine .success ?_
      simp only [exec]
      rw [kinds_settle, List.map_nil, List.append_nil, Token.onKinds, ← rotate_eq_rotateLeft]
      exact congrArg Except.ok (map_rotate _ _ _).symm
  | apply operator =>
      cases queue with
      | nil => exact .failure rfl
      | cons v rest => exact settle_predicted r _ (operator.apply_foreseen v) rfl

theorem resume_foreseen {r : Run} {f' : Feed} {token : Token} {n : Nat} (running : r.result = none)
    (next : r.feed.resume = some (.yielded token n, f')) (m : Machine) :
    ∃ found r' m', r.resume m = some (found, r', m') ∧
      ((found = .yielded token n ∧ token.onKinds m.kinds = .ok m'.kinds) ∨
        (∃ fault, found = .completed (some (.kind fault)) ∧ token.onKinds m.kinds = .error fault) ∨
        ∃ fault kinds, found = answer token n (.error fault) ∧ fault.Hidden token ∧
          token.onKinds m.kinds = .ok kinds) := by
  obtain ⟨outcome, args, m', effect, taken⟩ := resume_of_yielded running next m
  have predicted :=
    exec_predicted { r with feed := f', span := ⟨r.program, r.offset, n⟩ } token m
  rw [effect f'] at predicted
  rw [taken]
  cases predicted with
  | success known => exact ⟨_, _, _, rfl, .inl ⟨rfl, known⟩⟩
  | failure known => exact ⟨_, _, _, rfl, .inr (.inl ⟨_, rfl, known⟩)⟩
  | hidden unseen known => exact ⟨_, _, _, rfl, .inr (.inr ⟨_, _, rfl, unseen, known⟩)⟩

theorem onKinds_of_yielded {r r' : Run} {m m' : Machine} {token : Token} {n : Nat}
    (h : r.resume m = some (.yielded token n, r', m')) :
    token.onKinds m.kinds = .ok m'.kinds := by
  obtain ⟨running, -, next⟩ := feed_of_yielded h
  obtain ⟨found, r'', m'', taken, cases⟩ := resume_foreseen running next m
  rw [h] at taken
  cases taken
  obtain ⟨-, known⟩ | ⟨_, ended, _⟩ | ⟨fault, _, failed, _⟩ := cases
  · exact known
  · cases ended
  · cases (congrArg Answer.stop failed).trans (answer_error_stop token n fault)

theorem Reaches.allOnKinds {r s : Run} {m mₛ : Machine} {tokens : List (Token × Nat)}
    (h : Reaches r m tokens s mₛ) :
    Token.allOnKinds m.kinds (tokens.map Prod.fst) = .ok mₛ.kinds := by
  induction h with
  | refl r m => rfl
  | step taken _ ih =>
      rw [Token.allOnKinds, List.map_cons, List.foldlM_cons, onKinds_of_yielded taken]
      exact ih

/-- Where the fault of a run comes from: a text that fits no token, the kinds of the queue at a
    token, or something at a token that no kinds show. -/
theorem fault_cases {r r' : Run} {m m' : Machine} {found : Answer} {fault : Fault}
    (h : r.resume m = some (found, r', m')) (stopped : found.stop = some (some fault)) :
    (∃ left, fault = .parse (.unknownToken left)) ∨
    ∃ token n, r.feed.resume = some (.yielded token n, r'.feed) ∧
      ((∃ refusal, fault = .kind refusal ∧ token.onKinds m.kinds = .error refusal) ∨
        fault.Hidden token) := by
  obtain ⟨running, ⟨_, next, rfl⟩ | ⟨token, n, next, _⟩⟩ := resume_cases h
  · cases stopped
    exact .inl (Feed.parse_of_completed next)
  · refine .inr ⟨token, n, next, ?_⟩
    obtain ⟨found', r'', m'', taken, cases⟩ := resume_foreseen running next m
    rw [h] at taken
    cases taken
    obtain ⟨rfl, _⟩ | ⟨refusal, rfl, refused⟩ | ⟨_, _, rfl, unseen, _⟩ := cases
    · cases stopped
    · cases stopped
      exact .inl ⟨refusal, rfl, refused⟩
    · rw [answer_error_stop] at stopped
      cases stopped
      exact .inr unseen

/-- Two runs with one script, on queues of the same kinds. A fault about kinds that ends one ends
    the other at the same token, unless a range or a stream ends the other before that. -/
theorem Fails.same_kinds {r₁ r₂ : Run} {m₁ m₂ : Machine} {tokens : List (Token × Nat)}
    {fault : KindFault} (h : r₁.Fails m₁ tokens (.kind fault)) (running : r₂.result = none)
    (script : r₂.feed.script = r₁.feed.script) (kinds : m₂.kinds = m₁.kinds) :
    r₂.Fails m₂ tokens (.kind fault) ∨
    ∃ early token n later hidden, tokens = early ++ (token, n) :: later ∧
      hidden.Hidden token ∧ r₂.Fails m₂ early hidden := by
  obtain ⟨s₁, mₛ, found, s₁', m₁', reached, failed, stopped⟩ := h
  -- Along the first run: as long as the second one succeeds, the scripts and the kinds stay equal.
  induction reached generalizing r₂ m₂ with
  | refl r₁ m₁ =>
      obtain ⟨_, same⟩ | ⟨token, n, next₁, ⟨_, same, refused⟩ | unseen⟩ := fault_cases failed stopped
      · cases same
      · cases same
        obtain ⟨f', next₂, -⟩ := Feed.resume_of_same_script script next₁
        obtain ⟨found₂, r₂', m₂', taken, cases⟩ := resume_foreseen running next₂ m₂
        rw [kinds, refused] at cases
        obtain ⟨_, known⟩ | ⟨fault', rfl, same⟩ | ⟨_, _, _, _, known⟩ := cases
        · cases known
        · cases same
          exact .inl ⟨r₂, m₂, _, r₂', m₂', .refl r₂ m₂, taken, rfl⟩
        · cases known
      · exact unseen.elim
  | @step r₁ r₁' _ m₁ m₁' _ token n tokens taken₁ _ ih =>
      obtain ⟨-, -, next₁⟩ := feed_of_yielded taken₁
      obtain ⟨f', next₂, same⟩ := Feed.resume_of_same_script script next₁
      obtain ⟨found₂, r₂', m₂', taken₂, cases⟩ := resume_foreseen running next₂ m₂
      rw [kinds, onKinds_of_yielded taken₁] at cases
      obtain ⟨rfl, known⟩ | ⟨_, _, refused⟩ | ⟨hidden, _, rfl, unseen, _⟩ := cases
      · obtain ⟨-, running', next₂'⟩ := feed_of_yielded taken₂
        rw [next₂] at next₂'
        cases next₂'
        obtain here | ⟨early, token', n', later, hidden, rfl, unseen, before⟩ :=
          ih running' same (Except.ok.inj known).symm failed
        · exact .inl (.step taken₂ here)
        · exact .inr ⟨_, token', n', later, hidden, rfl, unseen, .step taken₂ before⟩
      · cases refused
      · have now : r₂.Fails m₂ [] hidden :=
          ⟨r₂, m₂, _, r₂', m₂', .refl r₂ m₂, taken₂, answer_error_stop token n hidden⟩
        exact .inr ⟨[], token, n, tokens, hidden, rfl, unseen, now⟩

/-- Executing on kinds predicts runs. A token that succeeds changes the kinds of the queue as
    `Token.onKinds` does, and one ends the run with a fault about kinds exactly if `Token.onKinds`
    fails with it; only ranges and streams stay unseen. So the kinds of a whole run follow from its
    tokens, and two runs of a program on queues of the same kinds fail alike, unless a range or a
    stream ends one of them first. -/
theorem kinds_predict_runs :
    (∀ (r : Run) (f' : Feed) (token : Token) (n : Nat) (m : Machine),
      r.result = none → r.feed.resume = some (.yielded token n, f') →
      ∃ found r' m', r.resume m = some (found, r', m') ∧
        (found = .yielded token n ∨ ∃ fault, found.stop = some (some fault)) ∧
        (found = .yielded token n → token.onKinds m.kinds = .ok m'.kinds) ∧
        (∀ fault,
          found = .completed (some (.kind fault)) ↔ token.onKinds m.kinds = .error fault) ∧
        (∀ fault, found = .completed (some fault) → (∃ kind, fault = .kind kind) ∨
          fault.Hidden token) ∧
        ∀ fault, found = .raised fault → fault.Hidden token) ∧
    (∀ (r s : Run) (m mₛ : Machine) (tokens : List (Token × Nat)), Reaches r m tokens s mₛ →
      Token.allOnKinds m.kinds (tokens.map Prod.fst) = .ok mₛ.kinds) ∧
    ∀ (program : Text) (inAdvance₁ inAdvance₂ interactive₁ interactive₂ : Bool)
      (args₁ args₂ : Option (List Text)) (r₁ r₂ : Run) (m₁ m₂ : Machine),
      start program inAdvance₁ args₁ interactive₁ = .ok r₁ →
      start program inAdvance₂ args₂ interactive₂ = .ok r₂ →
      m₁.kinds = m₂.kinds →
      ∀ (tokens : List (Token × Nat)) (fault : KindFault), r₁.Fails m₁ tokens (.kind fault) →
        r₂.Fails m₂ tokens (.kind fault) ∨
        ∃ early token n later hidden, tokens = early ++ (token, n) :: later ∧
          hidden.Hidden token ∧ r₂.Fails m₂ early hidden := by
  refine ⟨?_, fun r s m mₛ tokens h => h.allOnKinds, ?_⟩
  · intro r f' token n m running next
    obtain ⟨found, r', m', taken, cases⟩ := resume_foreseen running next m
    refine ⟨found, r', m', taken, ?_⟩
    obtain ⟨rfl, known⟩ | ⟨fault, rfl, refused⟩ | ⟨fault, kinds, rfl, unseen, known⟩ := cases
    · simp [known]
    · simp [refused, Answer.stop]
    · have notKind : ∀ kind, fault ≠ .kind kind := by
        rintro kind rfl
        exact unseen
      cases escapes : fault.escapes with
      | true => simp [answer, Answer.stop, escapes, known, unseen]
      | false => simp [answer, Answer.stop, escapes, known, notKind, unseen]
  · intro program _ _ _ _ _ _ r₁ r₂ m₁ m₂ start₁ start₂ kinds tokens fault failed
    obtain ⟨feed₁, made₁, rfl⟩ := start_eq start₁
    obtain ⟨feed₂, made₂, rfl⟩ := start_eq start₂
    refine failed.same_kinds rfl ?_ kinds.symm
    rw [Feed.script_ofProgram made₁, Feed.script_ofProgram made₂]

/-- Of two strings only the longer one has a fourth character: its run goes on to find too few
    values, and the other has ended with the index. -/
theorem kinds_predict_runs_index :
    ∃ r, start ['|', '3', '|', '~'] false none false = .ok r ∧
      r.Fails ⟨[.string ['a', 'b', 'c', 'd']], {}⟩ [(.apply (.index (.front 3)), 3)]
        (.kind (.queueTooShort 2 1)) ∧
      (r.Fails ⟨[.string ['a', 'b']], {}⟩ [(.apply (.index (.front 3)), 3)]
          (.kind (.queueTooShort 2 1)) ∨
        ∃ early token n later hidden,
          [(Token.apply (.index (.front 3)), 3)] = early ++ (token, n) :: later ∧
          hidden.Hidden token ∧ r.Fails ⟨[.string ['a', 'b']], {}⟩ early hidden) := by
  have implied := kinds_predict_runs.2.2 ['|', '3', '|', '~'] false false false false none none _ _
    ⟨[.string ['a', 'b', 'c', 'd']], {}⟩ ⟨[.string ['a', 'b']], {}⟩ rfl rfl rfl
    [(.apply (.index (.front 3)), 3)] (.queueTooShort 2 1)
  refine ⟨_, rfl, ?failed, implied ?failed⟩
  exact ⟨_, _, _, _, _, .step rfl (.refl _ _), rfl, rfl⟩

end Run

end QueueScript
