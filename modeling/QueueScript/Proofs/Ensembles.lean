import Mathlib
import QueueScript.Proofs.Instructions
import QueueScript.Proofs.Observation

/-! # Runs that share a machine

An ensemble is any number of runs on one machine, resumed in any order. Each of them gets the tokens
of its own program in turn (`Course`), and resuming one changes none of the others, only the machine
(`Touches`). A run that has ended refuses every further call, and nothing changes by that. A fault that
escapes from a run does not end it; the next call goes on behind the token that had it.

The runs meet in the queue alone. Its length is kept in the log of the calls: every call that came
to executing a token adds the balance of the token (`length_queue_resumeAll`).
-/

namespace QueueScript

/-- A call to resume a run: the token that was executed, if it came to that, and the answer, which is
    `none` for a refusal. -/
structure Call where
  executed : Option (Token × Nat)
  answer : Option Answer
  deriving Repr, DecidableEq

namespace Call

def refusal : Call :=
  ⟨none, none⟩

/-- What the call adds to the length of the queue. -/
def balance (c : Call) : Int :=
  match c.executed, c.answer with
  | some (token, _), some (.yielded ..) => token.balance (.ok ())
  | some (token, _), some (.completed (some fault)) => token.balance (.error fault)
  | some (token, _), some (.raised fault) => token.balance (.error fault)
  | _, _ => 0

def yielded? (c : Call) : Option (Token × Nat) :=
  match c.answer with
  | some (.yielded token n) => some (token, n)
  | _ => none

theorem balance_answer (token : Token) (n : Nat) (outcome : Except Fault Unit) :
    balance ⟨some (token, n), some (Run.answer token n outcome)⟩ = token.balance outcome := by
  cases outcome with
  | ok _ => rfl
  | error fault =>
      simp only [Run.answer]
      split <;> rfl

end Call

/-- The tokens of a program in order, all of them or those before a text that fits no token. -/
def Spells (program : Text) (tokens : List (Token × Nat)) (ending : Option Fault) : Prop :=
  (ending = none ∧ tokenize program = .ok tokens) ∨
  ∃ left, ending = some (.parse (.unknownToken left)) ∧ Unreadable program tokens left

/-- The calls to one run with the tokens still in front of it, and how the run has ended after them:
    token by token up to a fault that does not escape or the end of the script, and refusals after
    that. -/
inductive Course (ending : Option Fault) :
    List (Token × Nat) → List Call → Option (Option Fault) → Prop where
  | paused (tokens : List (Token × Nat)) : Course ending tokens [] none
  | success {token : Token} {n : Nat} {tokens : List (Token × Nat)} {calls : List Call}
      {result : Option (Option Fault)} : Course ending tokens calls result →
      Course ending ((token, n) :: tokens) (⟨some (token, n), some (.yielded token n)⟩ :: calls) result
  | raised {token : Token} {n : Nat} {tokens : List (Token × Nat)} {calls : List Call}
      {result : Option (Option Fault)} {fault : Fault} : fault.escapes = true →
      Course ending tokens calls result →
      Course ending ((token, n) :: tokens) (⟨some (token, n), some (.raised fault)⟩ :: calls) result
  | failure (token : Token) (n : Nat) (tokens : List (Token × Nat)) {fault : Fault} (refusals : Nat) :
      fault.escapes = false →
      Course ending ((token, n) :: tokens)
        (⟨some (token, n), some (.completed (some fault))⟩ :: List.replicate refusals .refusal)
        (some (some fault))
  | ended (refusals : Nat) :
      Course ending [] (⟨none, some (.completed ending)⟩ :: List.replicate refusals .refusal)
        (some ending)

section Course

variable {ending : Option Fault} {tokens : List (Token × Nat)} {calls : List Call}
  {result : Option (Option Fault)}

theorem Course.executed (h : Course ending tokens calls result) :
    ∃ k, calls.filterMap Call.executed = tokens.take k := by
  have silent (refusals : Nat) : (List.replicate refusals Call.refusal).filterMap Call.executed = [] := by
    rw [List.filterMap_replicate_of_none rfl]
  induction h with
  | paused tokens => exact ⟨0, rfl⟩
  | success _ ih | raised _ _ ih =>
      obtain ⟨k, same⟩ := ih
      exact ⟨k + 1, by rw [List.filterMap_cons_some (f := Call.executed) rfl, same, List.take_succ_cons]⟩
  | failure token n tokens refusals =>
      exact ⟨1, by rw [List.filterMap_cons_some (f := Call.executed) rfl, silent, List.take_succ_cons,
        List.take_zero]⟩
  | ended refusals => exact ⟨0, by rw [List.filterMap_cons_none rfl, silent, List.take_zero]⟩

/-- As long as no fault escapes, the tokens that succeed are the first ones. -/
theorem Course.yielded (h : Course ending tokens calls result)
    (kept : ∀ call ∈ calls, ∀ fault, call.answer ≠ some (.raised fault)) :
    ∃ k, calls.filterMap Call.yielded? = tokens.take k := by
  have silent (refusals : Nat) : (List.replicate refusals Call.refusal).filterMap Call.yielded? = [] := by
    rw [List.filterMap_replicate_of_none rfl]
  induction h with
  | paused tokens => exact ⟨0, rfl⟩
  | @success token n tokens calls result _ ih =>
      obtain ⟨k, same⟩ := ih fun call member => kept call (List.mem_cons_of_mem _ member)
      have first : Call.yielded? ⟨some (token, n), some (.yielded token n)⟩ = some (token, n) := rfl
      exact ⟨k + 1, by rw [List.filterMap_cons_some first, same, List.take_succ_cons]⟩
  | raised _ _ _ => exact absurd rfl (kept _ List.mem_cons_self _)
  | failure token n tokens refusals =>
      exact ⟨0, by rw [List.filterMap_cons_none rfl, silent, List.take_zero]⟩
  | ended refusals => exact ⟨0, by rw [List.filterMap_cons_none rfl, silent, List.take_zero]⟩

end Course

/-- The second console is the first one with its streams moved on. -/
def Console.Flows (c d : Console) : Prop :=
  ∃ input room errRoom added, d =
    { c with input := input, room := room, errRoom := errRoom, events := c.events ++ added }

namespace Console

theorem Flows.refl (c : Console) : c.Flows c :=
  ⟨c.input, c.room, c.errRoom, [], by simp⟩

theorem Flows.trans {c d e : Console} (h : c.Flows d) (h' : d.Flows e) : c.Flows e := by
  obtain ⟨_, _, _, added, rfl⟩ := h
  obtain ⟨input, room, errRoom, added', rfl⟩ := h'
  exact ⟨input, room, errRoom, added ++ added', by simp⟩

theorem flows_record (c : Console) (e : Event) : c.Flows (c.record e) :=
  ⟨c.input, c.room, c.errRoom, [e], rfl⟩

theorem flows_debug (c : Console) (topic : Topic) (message : Unit → Text) :
    c.Flows (c.debug topic message) := by
  unfold debug
  split
  · exact c.flows_record _
  · exact .refl c

theorem flows_writeErr (c : Console) (t : Text) : c.Flows (c.writeErr t).2 := by
  unfold writeErr
  split
  · exact c.flows_record _
  · exact .refl c
  · exact ⟨c.input, c.room, _, [.notice t], rfl⟩

theorem flows_readLine (c : Console) (span : Option Span) : c.Flows (c.readLine span).2 := by
  have asked : c.Flows (c.ask span).2 := by
    unfold ask
    split
    · split
      · exact c.flows_writeErr _
      · exact .refl c
    · exact .refl c
  have taken (d : Console) : d.Flows d.takeLine.2 := by
    unfold takeLine
    split
    · rename_i rest _
      exact ⟨rest, d.room, d.errRoom, [], by simp⟩
    · exact .refl d
  unfold readLine
  split
  · rename_i result
    rw [result] at asked
    exact asked.trans (taken _)
  · rename_i result
    rw [result] at asked
    exact asked

theorem flows_output (c : Console) (span : Option Span) (v : Value) : c.Flows (c.output span v).2 := by
  obtain ⟨_, -, failed⟩ | ⟨_, -, -, failed⟩ | ⟨lead, room, -, -, written, -⟩ := c.output_cases span v
  · rw [failed]
    exact .refl c
  · rw [failed]
    exact .refl c
  · rw [written]
    exact ⟨c.input, room, c.errRoom, [.value lead v], rfl⟩

end Console

namespace Run

def call (r : Run) (m : Machine) : Call :=
  match r.resume m, r.feed.resume with
  | none, _ => .refusal
  | some (found, _, _), some (.yielded token n, _) => ⟨some (token, n), some found⟩
  | some (found, _, _), _ => ⟨none, some found⟩

theorem call_of_none {r : Run} {m : Machine} (h : r.resume m = none) : r.call m = .refusal := by
  simp only [call, h]

/-- What a step does to the run and to the queue, as the log has it. -/
theorem call_cases {r r' : Run} {m m' : Machine} {found : Answer}
    (h : r.resume m = some (found, r', m')) :
    (∃ ending, r.feed.resume = some (.completed ending, r'.feed) ∧
      r.call m = ⟨none, some (.completed ending)⟩ ∧ r'.result = some ending ∧ m'.queue = m.queue) ∨
    ∃ token n outcome, r.feed.resume = some (.yielded token n, r'.feed) ∧
      r.call m = ⟨some (token, n), some (answer token n outcome)⟩ ∧ r'.result = resultOf outcome ∧
      Executes token m.queue outcome m'.queue := by
  obtain ⟨-, ⟨f', ending, next, rfl, rfl, rfl⟩ | ⟨f', token, n, outcome, args, next, done, rfl, rfl⟩⟩ :=
    resume_inversion h
  · left
    refine ⟨ending, next, by simp only [call, h, next], ?_, (agree_conclude ending r m).queue⟩
    cases ending <;> rfl
  · right
    refine ⟨token, n, outcome, next, by simp only [call, h, next], rfl, ?_⟩
    have executes := exec_executes { r with span := ⟨r.program, r.offset, n⟩ } token m
    rw [done] at executes
    exact executes

theorem length_queue_resume {r r' : Run} {m m' : Machine} {found : Answer}
    (h : r.resume m = some (found, r', m')) :
    (m'.queue.length : Int) = m.queue.length + (r.call m).balance := by
  obtain ⟨ending, -, logged, -, same⟩ | ⟨token, n, outcome, -, logged, -, executes⟩ := call_cases h
  · rw [logged, same]
    exact (Int.add_zero _).symm
  · rw [logged, Call.balance_answer]
    exact executes.length_eq

theorem resume_flows {r r' : Run} {m m' : Machine} {found : Answer}
    (h : r.resume m = some (found, r', m')) : m.console.Flows m'.console :=
  resume_console .refl .trans Console.flows_debug Console.flows_readLine Console.flows_output h

theorem fields_of_resume {r r' : Run} {m m' : Machine} {found : Answer}
    (h : r.resume m = some (found, r', m')) :
    ∃ feed args offset span result, r' =
      { r with feed := feed, args := args, offset := offset, span := span, result := result } := by
  obtain ⟨-, ⟨f', ending, -, -, rfl, -⟩ | ⟨f', token, n, outcome, args, -, -, -, rfl⟩⟩ :=
    resume_inversion h
  · cases ending <;> exact ⟨_, _, _, _, _, rfl⟩
  · exact ⟨_, _, _, _, _, rfl⟩

theorem exists_resume {r : Run} (running : r.result = none) (playing : r.feed.done = false)
    (m : Machine) : ∃ found r' m', r.resume m = some (found, r', m') := by
  cases next : r.feed.resume with
  | none =>
      rw [Feed.resume_eq_none_iff.mp next] at playing
      cases playing
  | some result =>
      obtain ⟨step, f'⟩ := result
      cases step with
      | completed ending => exact ⟨_, _, _, resume_of_completed running next m⟩
      | yielded token n =>
          obtain ⟨outcome, args, m', -, taken⟩ := resume_of_yielded running next m
          exact ⟨_, _, _, taken⟩

end Run

/-- Runs that share one machine. -/
structure Ensemble (ι : Type) where
  runs : ι → Run
  machine : Machine

namespace Ensemble

variable {ι : Type} [DecidableEq ι]

/-- Resumes one run. A run that refuses changes nothing. -/
def resume (e : Ensemble ι) (i : ι) : Ensemble ι :=
  match (e.runs i).resume e.machine with
  | none => e
  | some (_, r, m) => ⟨Function.update e.runs i r, m⟩

def resumeAll (e : Ensemble ι) (schedule : List ι) : Ensemble ι :=
  schedule.foldl resume e

/-- The log of a schedule: every call, and the run it was made to. -/
def calls (e : Ensemble ι) : List ι → List (ι × Call)
  | [] => []
  | i :: schedule => (i, (e.runs i).call e.machine) :: (e.resume i).calls schedule

def callsTo (i : ι) (log : List (ι × Call)) : List Call :=
  (log.filter (·.1 = i)).map Prod.snd

/-- The second ensemble is the first one after a call to one of its runs: of the run only the feed, the
    lines given, the offset, the span and the result are changed, of the console only the streams. -/
structure Touches (i : ι) (e e' : Ensemble ι) : Prop where
  others : ∀ j, j ≠ i → e'.runs j = e.runs j
  own : ∃ feed args offset span result, e'.runs i =
    { e.runs i with feed := feed, args := args, offset := offset, span := span, result := result }
  console : e.machine.console.Flows e'.machine.console

section Calls

variable {e : Ensemble ι} {i : ι}

theorem resume_of_none (h : (e.runs i).resume e.machine = none) : e.resume i = e := by
  simp only [resume, h]

theorem resume_of_some {found : Answer} {r : Run} {m : Machine}
    (h : (e.runs i).resume e.machine = some (found, r, m)) :
    (e.resume i).machine = m ∧ (e.resume i).runs i = r ∧
      ∀ j, j ≠ i → (e.resume i).runs j = e.runs j := by
  simp only [resume, h]
  refine ⟨trivial, Function.update_self .., ?_⟩
  intro j other
  exact Function.update_of_ne other ..

theorem touches_resume (e : Ensemble ι) (i : ι) : Touches i e (e.resume i) := by
  cases taken : (e.runs i).resume e.machine with
  | none =>
      rw [resume_of_none taken]
      exact ⟨fun _ _ => rfl, ⟨_, _, _, _, _, rfl⟩, .refl _⟩
  | some result =>
      obtain ⟨step, r, m⟩ := result
      obtain ⟨machine, own, others⟩ := resume_of_some taken
      refine ⟨others, ?_, ?_⟩
      · rw [own]
        exact Run.fields_of_resume taken
      · rw [machine]
        exact Run.resume_flows taken

theorem runs_resume_of_ne {j : ι} (h : j ≠ i) : (e.resume i).runs j = e.runs j :=
  (touches_resume e i).others j h

theorem length_queue_resumeAll (e : Ensemble ι) (schedule : List ι) :
    ((e.resumeAll schedule).machine.queue.length : Int) =
      e.machine.queue.length + ((e.calls schedule).map fun c => c.2.balance).sum := by
  induction schedule generalizing e with
  | nil => simp [resumeAll, calls]
  | cons i schedule ih =>
      have once : ((e.resume i).machine.queue.length : Int) =
          e.machine.queue.length + ((e.runs i).call e.machine).balance := by
        cases taken : (e.runs i).resume e.machine with
        | none =>
            rw [resume_of_none taken, Run.call_of_none taken]
            exact (Int.add_zero _).symm
        | some result =>
            obtain ⟨step, r, m⟩ := result
            rw [(resume_of_some taken).1]
            exact Run.length_queue_resume taken
      have later := ih (e.resume i)
      simp only [resumeAll, calls, List.foldl_cons, List.map_cons, List.sum_cons] at later ⊢
      omega

theorem callsTo_cons_self (i : ι) (c : Call) (log : List (ι × Call)) :
    callsTo i ((i, c) :: log) = c :: callsTo i log := by
  simp [callsTo]

theorem callsTo_cons_of_ne {j : ι} (h : j ≠ i) (c : Call) (log : List (ι × Call)) :
    callsTo i ((j, c) :: log) = callsTo i log := by
  simp [callsTo, h]

theorem callsTo_of_ended (ended : (e.runs i).result.isSome = true) (schedule : List ι) :
    (e.resumeAll schedule).runs i = e.runs i ∧
      callsTo i (e.calls schedule) = List.replicate (schedule.count i) .refusal := by
  induction schedule generalizing e with
  | nil => exact ⟨rfl, rfl⟩
  | cons j schedule ih =>
      by_cases same : j = i
      · subst same
        have refused := Run.resume_of_ended ended e.machine
        have later := ih ended
        simp only [resumeAll, calls, List.foldl_cons, resume_of_none refused, Run.call_of_none refused,
          callsTo_cons_self, List.count_cons_self, List.replicate_succ] at later ⊢
        exact ⟨later.1, congrArg _ later.2⟩
      · have kept : (e.resume j).runs i = e.runs i := runs_resume_of_ne (Ne.symm same)
        have later := ih (e := e.resume j) (by rw [kept]; exact ended)
        rw [kept] at later
        rw [calls, callsTo_cons_of_ne same, List.count_cons_of_ne same]
        exact later

/-- A run gets the tokens of its script in turn, whatever the others do. -/
theorem course_of_script {tokens : List (Token × Nat)} {ending : Option Fault}
    (running : (e.runs i).result = none) (script : (e.runs i).feed.script = some (tokens, ending))
    (schedule : List ι) :
    Course ending tokens (callsTo i (e.calls schedule)) ((e.resumeAll schedule).runs i).result := by
  induction schedule generalizing e tokens with
  | nil =>
      simp only [resumeAll, List.foldl_nil, running]
      exact .paused tokens
  | cons j schedule ih =>
      by_cases same : j = i
      · subst same
        have playing : (e.runs j).feed.done = false := by
          cases done : (e.runs j).feed.done with
          | false => rfl
          | true => simp [Feed.script_eq_none_iff.mpr done] at script
        obtain ⟨step, r, m, taken⟩ := Run.exists_resume running playing e.machine
        obtain ⟨-, own, -⟩ := resume_of_some taken
        have goesOn : e.resumeAll (j :: schedule) = (e.resume j).resumeAll schedule := rfl
        rw [calls, callsTo_cons_self, goesOn]
        obtain ⟨ending', next, logged, result, -⟩ | ⟨token, n, outcome, next, logged, result, -⟩ :=
          Run.call_cases taken
        · rw [Feed.script_of_completed next] at script
          cases script
          obtain ⟨kept, refused⟩ := callsTo_of_ended (e := e.resume j) (by rw [own, result]; rfl) schedule
          rw [logged, refused, kept, own, result]
          exact .ended _
        · rw [Feed.script_of_yielded next] at script
          obtain ⟨⟨tokens', ending'⟩, later, same⟩ := Option.map_eq_some_iff.mp script
          cases same
          rw [logged]
          cases outcome with
          | ok _ => exact .success (ih (by rw [own, result]; rfl) (by rw [own]; exact later))
          | error fault =>
              cases escapes : fault.escapes with
              | true =>
                  simp only [Run.resultOf, escapes, if_true] at result
                  simp only [Run.answer, escapes, if_true]
                  exact .raised escapes (ih (by rw [own, result]) (by rw [own]; exact later))
              | false =>
                  rw [Run.resultOf_of_not_escapes escapes] at result
                  obtain ⟨kept, refused⟩ :=
                    callsTo_of_ended (e := e.resume j) (by rw [own, result]; rfl) schedule
                  rw [refused, kept, own, result, Run.answer_of_not_escapes token n escapes]
                  exact .failure token n tokens' _ escapes
      · have kept : (e.resume j).runs i = e.runs i := runs_resume_of_ne (Ne.symm same)
        rw [calls, callsTo_cons_of_ne same]
        exact ih (by rw [kept]; exact running) (by rw [kept]; exact script)

end Calls

theorem spells_of_start {program : Text} {inAdvance interactive : Bool} {args : Option (List Text)}
    {r : Run} (h : Run.start program inAdvance args interactive = .ok r) :
    ∃ tokens ending, Spells program tokens ending ∧ r.result = none ∧
      r.feed.script = some (tokens, ending) := by
  obtain ⟨feed, made, rfl⟩ := Run.start_eq h
  obtain ⟨tokens, ending, script⟩ := Feed.exists_script (f := .cursor (.ofProgram program)) rfl
  have spelled := Feed.tokenize_of_script script
  rw [Cursor.ofProgram, List.drop_zero] at spelled
  exact ⟨tokens, ending, spelled, rfl, (Feed.script_ofProgram made).trans script⟩

/-- Runs that share a machine do not disturb each other, whatever the schedule. Each gets the tokens of
    its own program in turn. A call changes nothing of the other runs, and of the machine only the
    queue and the streams. A run that has ended stays as it is and refuses to be resumed or finished,
    which changes nothing at all. The length of the queue is the one at the start and the balance of
    the calls. -/
theorem shared_runs_keep_apart (program : ι → Text) (inAdvance interactive : ι → Bool)
    (args : ι → Option (List Text)) (e₀ : Ensemble ι)
    (begun : ∀ i, Run.start (program i) (inAdvance i) (args i) (interactive i) = .ok (e₀.runs i))
    (schedule : List ι) :
    let e := e₀.resumeAll schedule
    let log := e₀.calls schedule
    (∀ i, ∃ tokens ending, Spells (program i) tokens ending ∧
      Course ending tokens (callsTo i log) (e.runs i).result ∧
      (∃ k, (callsTo i log).filterMap Call.executed = tokens.take k) ∧
      ((∀ call ∈ callsTo i log, ∀ fault, call.answer ≠ some (.raised fault)) →
        ∃ k, (callsTo i log).filterMap Call.yielded? = tokens.take k)) ∧
    (∀ i, Touches i e (e.resume i)) ∧
    (∀ i later, (e.runs i).result.isSome = true →
      let e' := e.resumeAll later
      e'.runs i = e.runs i ∧ (e'.runs i).resume e'.machine = none ∧
        (e'.runs i).finish e'.machine = none ∧ e'.resume i = e') ∧
    (e.machine.queue.length : Int) =
      e₀.machine.queue.length + (log.map fun c => c.2.balance).sum := by
  intro e log
  refine ⟨?_, touches_resume e, ?_, length_queue_resumeAll e₀ schedule⟩
  · intro i
    obtain ⟨tokens, ending, spelled, running, script⟩ := spells_of_start (begun i)
    have course := course_of_script running script schedule
    exact ⟨tokens, ending, spelled, course, course.executed, course.yielded⟩
  · intro i later ended e'
    obtain ⟨kept, -⟩ := callsTo_of_ended ended later
    have refused : (e'.runs i).resume e'.machine = none := by
      rw [kept]
      exact Run.resume_of_ended ended _
    exact ⟨kept, refused, Run.drive_of_ended refused, resume_of_none refused⟩

/-- One run copies the only value, the other writes one of the two, and then there are too few for the
    first run to put together. -/
theorem shared_runs_keep_apart_copy :
    let program : Bool → Text := fun i => if i then ['*', '~'] else ['>']
    let e₀ : Ensemble Bool :=
      { runs := fun i =>
          ⟨program i, .cursor (.ofProgram (program i)), none, false, 0, ⟨program i, 0, 0⟩, none⟩
        machine := { queue := [.string ['a']] } }
    let log := e₀.calls [true, false, true, true]
    (∀ i, Run.start (program i) false none false = .ok (e₀.runs i)) ∧
    callsTo true log =
      [⟨some (.copy, 1), some (.yielded .copy 1)⟩,
        ⟨some (.concat, 1), some (.completed (some (.kind (.queueTooShort 2 1))))⟩, .refusal] ∧
    (log.map fun c => c.2.balance).sum = 0 ∧
    ((e₀.resumeAll [true, false, true, true]).machine.queue.length : Int) =
      e₀.machine.queue.length + (log.map fun c => c.2.balance).sum := by
  intro program e₀ log
  have begun (i : Bool) : Run.start (program i) false none false = .ok (e₀.runs i) := rfl
  have apart := shared_runs_keep_apart program (fun _ => false) (fun _ => false) (fun _ => none) e₀
    begun [true, false, true, true]
  exact ⟨begun, by decide, by decide, apart.2.2.2⟩

end Ensemble

end QueueScript
