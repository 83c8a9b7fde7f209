import QueueScript.Proofs.Reading

/-! # Feeds under any schedule

A feed can be resumed, reset and drained in any order. A cursor and a tape of one program give the
same replies to every such schedule. What keeps them together is their place: the cursor stands
where the tokens end that the tape has played (`Abreast`). Completion moves the cursor on to the end
of the program, so the places are compared only while the feeds are running.

A feed that has completed refuses everything until it is reset, and then it is as good as new.
-/

namespace QueueScript.Feed

inductive Request where
  | resume
  | reset
  /-- Hand out everything up to the end. -/
  | drain
  deriving Repr, DecidableEq

inductive Reply where
  | stepped (step : Step)
  | rewound
  | drained (tokens : List (Token × Nat)) (fault : Option Fault)
  /-- The feed has completed and was not reset. -/
  | exhausted
  deriving Repr, DecidableEq

def serve (f : Feed) : Request → Reply × Feed
  | .resume =>
      match f.resume with
      | some (step, f') => (.stepped step, f')
      | none => (.exhausted, f)
  | .reset => (.rewound, f.reset)
  | .drain =>
      match f.drain with
      | some (tokens, fault, f') => (.drained tokens fault, f')
      | none => (.exhausted, f)

def serveAll (f : Feed) : List Request → List Reply × Feed
  | [] => ([], f)
  | request :: requests =>
      let (reply, f) := f.serve request
      let (replies, f) := f.serveAll requests
      (reply :: replies, f)

/-- Whether a feed has completed after a reply, by whether it had before. -/
def Reply.ended (before : Bool) : Reply → Bool
  | .stepped (.completed _) | .drained .. => true
  | .rewound => false
  | .stepped (.yielded ..) | .exhausted => before

/-- A cursor and a tape of one program that have come equally far. -/
inductive Abreast (program : Text) (tokens : List (Token × Nat)) : Feed → Feed → Prop where
  | intro {c : Cursor} {t : Tape} : c.program = program → t.tokens = tokens → c.done = t.done →
      (c.done = false → c.pos = extent (tokens.take t.pos)) →
      Abreast program tokens (.cursor c) (.tape t)

section Abreast

variable {program : Text} {tokens : List (Token × Nat)} {f g : Feed}

theorem extent_take_succ {token : Token} {n k : Nat} (h : tokens[k]? = some (token, n)) :
    extent (tokens.take (k + 1)) = extent (tokens.take k) + n := by
  rw [List.take_add_one, h, extent_append]
  rfl

theorem abreast_ofProgram :
    Abreast program tokens (.cursor (.ofProgram program)) (.tape ⟨tokens, 0, false⟩) :=
  .intro rfl rfl rfl fun _ => rfl

/-- One step: the text at the cursor begins with the token that the tape plays next. -/
theorem Abreast.resume (read : tokenize program = .ok tokens) (h : Abreast program tokens f g) :
    (f.resume = none ∧ g.resume = none) ∨
    ∃ step f' g', f.resume = some (step, f') ∧ g.resume = some (step, g') ∧
      Abreast program tokens f' g' := by
  obtain @⟨c, t, rfl, rfl, sameDone, samePos⟩ := h
  cases ended : c.done with
  | true =>
      rw [ended] at sameDone
      exact .inl ⟨resume_eq_none_iff.mpr ended, resume_eq_none_iff.mpr sameDone.symm⟩
  | false =>
      have running : t.done = false := sameDone ▸ ended
      have here := scan_after read t.pos
      rw [← samePos ended] at here
      right
      cases next : t.tokens[t.pos]? with
      | none =>
          rw [next] at here
          refine ⟨.completed none, .cursor { c with pos := c.program.length, done := true },
            .tape { t with done := true }, ?_, ?_, .intro rfl rfl rfl ?_⟩
          · simp [Feed.resume, Cursor.resume, ended, here]
          · simp [Feed.resume, Tape.resume, running, next]
          · intro impossible
            cases impossible
      | some entry =>
          obtain ⟨token, n⟩ := entry
          rw [next] at here
          refine ⟨.yielded token n, .cursor { c with pos := c.pos + n },
            .tape { t with pos := t.pos + 1 }, ?_, ?_, .intro rfl rfl sameDone ?_⟩
          · simp [Feed.resume, Cursor.resume, ended, here]
          · simp [Feed.resume, Tape.resume, running, next]
          · intro _
            rw [extent_take_succ next, ← samePos ended]

theorem drain_of_exhausted (h : f.resume = none) : f.drain = none := by
  rw [drain]
  split <;> simp_all

theorem drain_of_completed {fault : Option Fault} (h : f.resume = some (.completed fault, g)) :
    f.drain = some ([], fault, g) := by
  rw [drain]
  split <;> simp_all

theorem drain_of_yielded {token : Token} {n : Nat} (h : f.resume = some (.yielded token n, g)) :
    f.drain = g.drain.map fun (tokens, fault, f') => ((token, n) :: tokens, fault, f') := by
  rw [drain]
  split <;> simp_all

theorem Abreast.drain (read : tokenize program = .ok tokens) (h : Abreast program tokens f g) :
    (f.drain = none ∧ g.drain = none) ∨
    ∃ collected fault f' g', f.drain = some (collected, fault, f') ∧
      g.drain = some (collected, fault, g') ∧ Abreast program tokens f' g' := by
  fun_induction Feed.drain f generalizing g with
  | case1 f exhausted =>
      obtain ⟨-, refused⟩ | ⟨_, _, _, next, _⟩ := h.resume read
      · exact .inl ⟨rfl, drain_of_exhausted refused⟩
      · rw [exhausted] at next
        cases next
  | case2 f fault f' next =>
      obtain ⟨refused, -⟩ | ⟨step, f'', g', same, next', later⟩ := h.resume read
      · rw [next] at refused
        cases refused
      · rw [next] at same
        cases same
        exact .inr ⟨[], fault, f', g', rfl, drain_of_completed next', later⟩
  | case3 f token n f' next ih =>
      obtain ⟨refused, -⟩ | ⟨step, f'', g', same, next', later⟩ := h.resume read
      · rw [next] at refused
        cases refused
      · rw [next] at same
        cases same
        rw [drain_of_yielded next']
        obtain ⟨left, right⟩ | ⟨collected, fault, f'', g'', left, right, last⟩ := ih later
        · exact .inl ⟨by rw [left]; rfl, by rw [right]; rfl⟩
        · exact .inr ⟨_, fault, f'', g'', by rw [left]; rfl, by rw [right]; rfl, last⟩

theorem Abreast.reset (h : Abreast program tokens f g) : Abreast program tokens f.reset g.reset := by
  obtain ⟨rfl, rfl, -, -⟩ := h
  exact .intro rfl rfl rfl fun _ => rfl

theorem Abreast.serve (read : tokenize program = .ok tokens) (h : Abreast program tokens f g)
    (request : Request) :
    ∃ reply f' g', f.serve request = (reply, f') ∧ g.serve request = (reply, g') ∧
      Abreast program tokens f' g' := by
  cases request with
  | resume =>
      obtain ⟨left, right⟩ | ⟨step, f', g', left, right, later⟩ := h.resume read
      · exact ⟨.exhausted, f, g, by simp only [Feed.serve, left], by simp only [Feed.serve, right], h⟩
      · exact ⟨.stepped step, f', g', by simp only [Feed.serve, left],
          by simp only [Feed.serve, right], later⟩
  | reset => exact ⟨.rewound, f.reset, g.reset, rfl, rfl, h.reset⟩
  | drain =>
      obtain ⟨left, right⟩ | ⟨collected, fault, f', g', left, right, later⟩ := h.drain read
      · exact ⟨.exhausted, f, g, by simp only [Feed.serve, left], by simp only [Feed.serve, right], h⟩
      · exact ⟨.drained collected fault, f', g', by simp only [Feed.serve, left],
          by simp only [Feed.serve, right], later⟩

theorem Abreast.serveAll (read : tokenize program = .ok tokens) (h : Abreast program tokens f g)
    (requests : List Request) :
    ∃ replies f' g', f.serveAll requests = (replies, f') ∧ g.serveAll requests = (replies, g') ∧
      Abreast program tokens f' g' := by
  induction requests generalizing f g with
  | nil => exact ⟨[], f, g, rfl, rfl, h⟩
  | cons request requests ih =>
      obtain ⟨reply, f', g', left, right, later⟩ := h.serve read request
      obtain ⟨replies, f'', g'', lefts, rights, last⟩ := ih later
      refine ⟨reply :: replies, f'', g'', ?_, ?_, last⟩
      · simp only [Feed.serveAll, left, lefts]
      · simp only [Feed.serveAll, right, rights]

end Abreast

/-! ## Completion -/

section Completion

variable {f f' : Feed}

theorem done_of_drain {tokens : List (Token × Nat)} {fault : Option Fault}
    (h : f.drain = some (tokens, fault, f')) : f'.done = true := by
  fun_induction drain f generalizing tokens with
  | case1 => cases h
  | case2 f ending f' next =>
      cases h
      exact done_of_completed next
  | case3 f token n f' next ih =>
      obtain ⟨⟨collected, ending, last⟩, drained, same⟩ := Option.map_eq_some_iff.mp h
      cases same
      exact ih drained

theorem done_reset (f : Feed) : f.reset.done = false := by
  cases f <;> rfl

theorem serve_of_done (ended : f.done = true) {request : Request} (h : request ≠ .reset) :
    f.serve request = (.exhausted, f) := by
  have refused := resume_eq_none_iff.mpr ended
  cases request with
  | resume => simp only [serve, refused]
  | reset => exact absurd rfl h
  | drain => simp only [serve, drain_of_exhausted refused]

theorem serveAll_of_done (ended : f.done = true) {requests : List Request}
    (h : Request.reset ∉ requests) :
    f.serveAll requests = (requests.map fun _ => .exhausted, f) := by
  induction requests with
  | nil => rfl
  | cons request requests ih =>
      obtain ⟨here, later⟩ := List.ne_and_not_mem_of_not_mem_cons h
      simp only [serveAll, serve_of_done ended (Ne.symm here), ih later, List.map_cons]

theorem done_serve (f : Feed) (request : Request) :
    (f.serve request).2.done = (f.serve request).1.ended f.done := by
  cases request with
  | resume =>
      cases next : f.resume with
      | none => simp only [serve, next, Reply.ended]
      | some result =>
          obtain ⟨step, f'⟩ := result
          have running : f.done = false := by
            cases ended : f.done with
            | false => rfl
            | true => simp [resume_eq_none_iff.mpr ended] at next
          cases step with
          | completed fault => simp only [serve, next, Reply.ended, done_of_completed next]
          | yielded token n => simp only [serve, next, Reply.ended, done_of_yielded next, running]
  | reset => exact done_reset f
  | drain =>
      cases drained : f.drain with
      | none => simp only [serve, drained, Reply.ended]
      | some result =>
          obtain ⟨tokens, fault, f'⟩ := result
          simp only [serve, drained, Reply.ended, done_of_drain drained]

theorem done_serveAll (f : Feed) (requests : List Request) :
    (f.serveAll requests).2.done = (f.serveAll requests).1.foldl Reply.ended f.done := by
  induction requests generalizing f with
  | nil => rfl
  | cons request requests ih =>
      simp only [serveAll, List.foldl_cons, ← done_serve]
      exact ih _

theorem reset_of_resume {step : Step} (h : f.resume = some (step, f')) : f'.reset = f.reset := by
  cases f with
  | cursor c =>
      obtain ⟨-, ⟨_, _, _, _, rfl⟩ | ⟨_, _, rfl⟩ | ⟨_, _, _, rfl⟩⟩ := resume_cursor_cases h
      all_goals rfl
  | tape t =>
      obtain ⟨-, ⟨_, _, _, _, rfl⟩ | ⟨_, _, rfl⟩⟩ := resume_tape_cases h
      all_goals rfl

theorem reset_of_drain {tokens : List (Token × Nat)} {fault : Option Fault}
    (h : f.drain = some (tokens, fault, f')) : f'.reset = f.reset := by
  fun_induction drain f generalizing tokens with
  | case1 => cases h
  | case2 f ending f' next =>
      cases h
      exact reset_of_resume next
  | case3 f token n f' next ih =>
      obtain ⟨⟨collected, ending, last⟩, drained, same⟩ := Option.map_eq_some_iff.mp h
      cases same
      rw [ih drained, reset_of_resume next]

theorem reset_serveAll (f : Feed) (requests : List Request) :
    (f.serveAll requests).2.reset = f.reset := by
  induction requests generalizing f with
  | nil => rfl
  | cons request requests ih =>
      have once : (f.serve request).2.reset = f.reset := by
        cases request with
        | resume =>
            cases next : f.resume with
            | none => simp only [serve, next]
            | some result => simp only [serve, next, reset_of_resume next]
        | reset => cases f <;> rfl
        | drain =>
            cases drained : f.drain with
            | none => simp only [serve, drained]
            | some result => simp only [serve, drained, reset_of_drain drained]
      exact (ih _).trans once

end Completion

theorem drain_fails_iff {program : Text} {fault : Fault} :
    (∃ tokens f', (cursor (.ofProgram program)).drain = some (tokens, some fault, f')) ↔
      ∃ refusal, Tape.ofProgram program = .error refusal ∧ fault = .parse refusal := by
  cases read : tokenize program with
  | ok tokens =>
      have script := script_ofProgram_of_ok read
      constructor
      · rintro ⟨collected, f', drained⟩
        simp [Feed.script, drained] at script
      · rintro ⟨refusal, refused, -⟩
        simp [Tape.ofProgram, read, Except.map] at refused
  | error refusal =>
      obtain ⟨tokens, left, -, -, script⟩ := script_ofProgram_of_error read
      obtain ⟨⟨collected, ending, f'⟩, drained, same⟩ := Option.map_eq_some_iff.mp script
      cases same
      constructor
      · rintro ⟨_, _, drained'⟩
        rw [drained] at drained'
        cases drained'
        exact ⟨refusal, by simp [Tape.ofProgram, read, Except.map], rfl⟩
      · rintro ⟨_, refused, rfl⟩
        simp only [Tape.ofProgram, read, Except.map, Except.error.injEq] at refused
        subst refused
        exact ⟨_, f', drained⟩

/-- Cursors and tapes are bisimilar. If a program can be read in advance, its cursor and its tape give
    the same replies to any schedule, complete together, and stand at the same place as long as they
    run. It cannot be read in advance exactly if draining its cursor ends with a fault, and then the
    fault is the same. Whatever the program, a cursor that has completed refuses everything until it
    is reset, and replies to a reset and all later requests as a new one does. -/
theorem schedules_agree (program : Text) :
    (∀ (t : Tape) (requests : List Request), Tape.ofProgram program = .ok t →
      ∃ replies c t', (cursor (.ofProgram program)).serveAll requests = (replies, cursor c) ∧
        (tape t).serveAll requests = (replies, tape t') ∧ c.done = t'.done ∧
        (c.done = false → c.pos = extent (t.tokens.take t'.pos))) ∧
    (∀ fault : Fault,
      (∃ tokens f', (cursor (.ofProgram program)).drain = some (tokens, some fault, f')) ↔
        ∃ refusal, Tape.ofProgram program = .error refusal ∧ fault = .parse refusal) ∧
    ∀ (requests : List Request) (replies : List Reply) (f : Feed),
      (cursor (.ofProgram program)).serveAll requests = (replies, f) →
      f.done = replies.foldl Reply.ended false ∧
      (f.done = true →
        (∀ polls : List Request, Request.reset ∉ polls →
          f.serveAll polls = (polls.map fun _ => .exhausted, f)) ∧
        ∀ later : List Request,
          f.serveAll (.reset :: later) =
            (.rewound :: ((cursor (.ofProgram program)).serveAll later).1,
              ((cursor (.ofProgram program)).serveAll later).2)) := by
  refine ⟨?_, fun fault => drain_fails_iff, ?_⟩
  · intro t requests made
    cases read : tokenize program with
    | error fault => simp [Tape.ofProgram, read, Except.map] at made
    | ok tokens =>
        simp only [Tape.ofProgram, read, Except.map, Except.ok.injEq] at made
        subst made
        obtain ⟨replies, f, g, left, right, ⟨-, same, sameDone, samePos⟩⟩ :=
          abreast_ofProgram.serveAll read requests
        exact ⟨replies, _, _, left, right, sameDone, samePos⟩
  · intro requests replies f served
    have flag := done_serveAll (cursor (.ofProgram program)) requests
    have start := reset_serveAll (cursor (.ofProgram program)) requests
    rw [served] at flag start
    refine ⟨flag, fun ended => ⟨fun polls h => serveAll_of_done ended h, ?_⟩⟩
    intro later
    simp only [serveAll, serve]
    rw [show f.reset = cursor (.ofProgram program) from start]

theorem schedules_agree_copy :
    Tape.ofProgram ['*', ' '] = .ok ⟨[(.copy, 1)], 0, false⟩ ∧
    (∃ replies c t', (cursor (.ofProgram ['*', ' '])).serveAll [.resume, .drain, .reset, .resume] =
        (replies, cursor c) ∧
      (tape ⟨[(.copy, 1)], 0, false⟩).serveAll [.resume, .drain, .reset, .resume] =
        (replies, tape t') ∧
      c.done = t'.done ∧ (c.done = false → c.pos = extent ([(.copy, 1)].take t'.pos))) ∧
    (cursor ⟨['*', '?'], 1, true⟩).serveAll [.resume, .drain] =
      ([.exhausted, .exhausted], cursor ⟨['*', '?'], 1, true⟩) := by
  have made : Tape.ofProgram ['*', ' '] = .ok ⟨[(.copy, 1)], 0, false⟩ := by
    rw [Tape.ofProgram, tokenize_of_scan rfl, tokenize_of_empty rfl]
    rfl
  have refused := (schedules_agree ['*', '?']).2.2 [.resume, .resume] _ _ rfl
  exact ⟨made, (schedules_agree ['*', ' ']).1 _ _ made, (refused.2 rfl).1 [.resume, .drain] (by decide)⟩

end QueueScript.Feed
