import QueueScript.Proofs.Instructions
import QueueScript.Proofs.Observation
import QueueScript.Proofs.ReadingModes

/-! # Presentation does not matter to a run

How a console presents itself (mode, colour, templates, log) and whether a run marks its program are
nothing a program can see. Two runs that differ in these give the same answers to every call, and are
in the same state after it: they are twins on machines that agree.

What a run that is not interactive shows is its values. `written` lists them without a look at the
console: they are the fronts of the queue at the tokens `>` that succeed.
-/

namespace QueueScript

def Machine.present (m : Machine) (settings : Settings) (detail : Detail) : Machine :=
  { m with console := { m.console with settings, detail } }

/-- If writes do not fail, no program can tell the presentation. -/
theorem Machine.agree_present {m : Machine} (roomy : m.console.room = none) (s₁ s₂ : Settings)
    (d₁ d₂ : Detail) : (m.present s₁ d₁).Agree (m.present s₂ d₂) := by
  refine ⟨rfl, rfl, rfl, ?_, rfl, rfl⟩
  simp only [Machine.present, Console.capacity, roomy, ite_self]

namespace Run

/-- Two runs in the same state, as far as a program and its caller can tell. -/
structure Level (r : Run) (m : Machine) (s : Run) (m' : Machine) : Prop where
  queue : m'.queue = m.queue
  args : s.args = r.args
  input : m'.console.input = m.console.input
  offset : s.offset = r.offset
  span : s.span = r.span
  result : s.result = r.result

theorem Twin.level {r s : Run} {m m' : Machine} (h : r.Twin s) (agree : m.Agree m') :
    r.Level m s m' := by
  obtain ⟨g, interactive, rfl, -⟩ := h
  exact ⟨agree.queue, rfl, agree.console.input, rfl, rfl, rfl⟩

theorem Twin.resumeMany {r s : Run} {m m' : Machine} (h : r.Twin s) (agree : m.Agree m')
    (smooth : r.Smooth m) (smooth' : s.Smooth m') (k : Nat) :
    ∃ answers r' s' n n', r.resumeMany m k = (answers, r', n) ∧
      s.resumeMany m' k = (answers, s', n') ∧ r'.Twin s' ∧ n.Agree n' := by
  induction k generalizing r s m m' with
  | zero => exact ⟨[], r, s, m, m', rfl, rfl, h, agree⟩
  | succ k ih =>
      obtain ⟨left, right⟩ | ⟨found, r', s', n, n', left, right, twin, still⟩ :=
        h.resume agree smooth smooth'
      · obtain ⟨answers, r', s', n, n', lefts, rights, twin, still⟩ := ih h agree smooth smooth'
        refine ⟨none :: answers, r', s', n, n', ?_, ?_, twin, still⟩
        · simp only [Run.resumeMany, left, lefts]
        · simp only [Run.resumeMany, right, rights]
      · obtain ⟨answers, r'', s'', n₂, n₂', lefts, rights, twin, still⟩ :=
          ih twin still (smooth.resume left) (smooth'.resume right)
        refine ⟨some found :: answers, r'', s'', n₂, n₂', ?_, ?_, twin, still⟩
        · simp only [Run.resumeMany, left, lefts]
        · simp only [Run.resumeMany, right, rights]

theorem exists_resumeMany_of_finish {r r' : Run} {m m' : Machine} {fault : Option Fault}
    (h : r.finish m = some (fault, r', m')) : ∃ k, (r.resumeMany m k).2 = (r', m') := by
  unfold finish at h
  fun_induction drive (fun _ _ m => m) r m with
  | case1 => cases h
  | case2 r m ending r₁ m₁ next | case3 r m fault r₁ m₁ next =>
      cases h
      exact ⟨1, by simp only [resumeMany, next]⟩
  | case4 r m token n r₁ m₁ next ih =>
      obtain ⟨k, reached⟩ := ih h
      exact ⟨k + 1, by simpa only [resumeMany, next] using reached⟩

theorem exists_finish {program : Text} {inAdvance interactive : Bool} {args : Option (List Text)}
    {r : Run} (h : start program inAdvance args interactive = .ok r) (m : Machine) :
    ∃ fault r' m', r.finish m = some (fault, r', m') := by
  obtain ⟨feed, made, rfl⟩ := start_eq h
  obtain ⟨tokens, ending, script⟩ := Feed.exists_script (f := .cursor (.ofProgram program)) rfl
  obtain ⟨f', finished⟩ := finish_of_script ((Feed.script_ofProgram made).trans script)
    ⟨program, feed, args, interactive, 0, ⟨program, 0, 0⟩, none⟩ rfl m
  exact ⟨_, _, _, finished⟩

/-! ## What a run writes -/

/-- The value that a step takes to write it. -/
def popped : Answer → List Value → List Value
  | .yielded .output _, queue => queue.take 1
  | _, _ => []

/-- The values that a run writes when it is resumed a number of times. -/
def written (r : Run) (m : Machine) : Nat → List Value
  | 0 => []
  | k + 1 =>
      match r.resume m with
      | none => r.written m k
      | some (found, r', m') => popped found m.queue ++ r'.written m' k

theorem popped_of_error (token : Token) (n : Nat) (fault : Fault) (queue : List Value) :
    popped (answer token n (.error fault)) queue = [] := by
  simp only [answer]
  split <;> rfl

theorem popped_of_ne_output {token : Token} (h : token ≠ .output) (n : Nat)
    (outcome : Except Fault Unit) (queue : List Value) : popped (answer token n outcome) queue = [] := by
  cases outcome with
  | error fault => exact popped_of_error token n fault queue
  | ok _ =>
      cases token with
      | output => exact absurd rfl h
      | _ => rfl

theorem values_readLine (c : Console) (span : Option Span) :
    (c.readLine span).2.values = c.values := by
  have asked := (c.agree_ask span).values
  have taken (d : Console) : d.takeLine.2.values = d.values := by
    unfold Console.takeLine
    split <;> rfl
  unfold Console.readLine
  split
  · rename_i result
    rw [result] at asked
    exact (taken _).trans asked
  · rename_i result
    rw [result] at asked
    exact asked

theorem exec_values (r : Run) (token : Token) (m : Machine) (n : Nat) :
    (r.exec token m).2.2.console.values =
      m.console.values ++ popped (answer token n (r.exec token m).1) m.queue := by
  by_cases writes : token = .output
  · subst writes
    obtain ⟨queue, console⟩ := m
    cases queue with
    | nil => exact (List.append_nil _).symm
    | cons v rest =>
        obtain ⟨_, -, failed⟩ | ⟨_, -, -, failed⟩ | ⟨lead, room, -, -, shown, -⟩ :=
          console.output_cases r.promptSpan v
        · simp only [exec, failed, popped_of_error, List.append_nil]
        · simp only [exec, failed, popped_of_error, List.append_nil]
        · simp only [exec, shown]
          have logged := (Machine.agree_logQueue
            ⟨rest ++ [], { console.record (.value lead v) with room := room }⟩ r.span).console.values
          exact logged.trans (console.values_write lead room v)
  · have same := exec_console (P := fun c d => d.values = c.values) (fun _ => rfl)
      (fun c topic message => (c.agree_debug topic message).values) r token m
      (fun first second => second.trans first) (fun _ c => values_readLine c _)
      (fun impossible => absurd impossible writes)
    rw [same, popped_of_ne_output writes, List.append_nil]

theorem values_resume {r r' : Run} {m m' : Machine} {found : Answer}
    (h : r.resume m = some (found, r', m')) :
    m'.console.values = m.console.values ++ popped found m.queue := by
  obtain ⟨-, ⟨_, ending, -, rfl, -, rfl⟩ | ⟨_, token, n, outcome, _, -, done, rfl, -⟩⟩ :=
    resume_inversion h
  · rw [popped, List.append_nil]
    · exact (agree_conclude ending r m).console.values
    · nofun
  · have values := exec_values { r with span := ⟨r.program, r.offset, n⟩ } token m n
    rw [done] at values
    exact values

theorem values_resumeMany (r : Run) (m : Machine) (k : Nat) :
    (r.resumeMany m k).2.2.console.values = m.console.values ++ r.written m k := by
  induction k generalizing r m with
  | zero => exact (List.append_nil _).symm
  | succ k ih =>
      cases taken : r.resume m with
      | none =>
          simp only [resumeMany, written, taken]
          exact ih r m
      | some result =>
          obtain ⟨found, r', m'⟩ := result
          simp only [resumeMany, written, taken]
          rw [ih r' m', values_resume taken, List.append_assoc]

theorem resumeMany_grows (r : Run) (m : Machine) (k : Nat) :
    m.console.Grows r.interactive (r.resumeMany m k).2.2.console := by
  induction k generalizing r m with
  | zero => exact .refl m.console
  | succ k ih =>
      cases taken : r.resume m with
      | none =>
          simp only [resumeMany, taken]
          exact ih r m
      | some result =>
          obtain ⟨found, r', m'⟩ := result
          obtain ⟨same, grown⟩ := resume_grows taken
          have later := ih r' m'
          rw [same] at later
          simp only [resumeMany, taken]
          exact grown.trans later

theorem out_resumeMany {r : Run} (plain : r.interactive = false) (m : Machine) (k : Nat) :
    (r.resumeMany m k).2.2.console.out = m.console.out ++
      (if m.console.settings.mode = .muted then []
        else (r.written m k).flatMap fun v => v.text ++ ['\n']) := by
  have grown := r.resumeMany_grows m k
  rw [plain] at grown
  obtain ⟨added, values, out⟩ := grown.out_eq
  rw [values_resumeMany] at values
  rw [out, List.append_cancel_left values]

theorem start_refused_iff {program : Text} {inAdvance : Bool} {args : Option (List Text)}
    {refusal : ParseFault} (i₁ i₂ : Bool) :
    start program inAdvance args i₁ = .error refusal ↔
      start program inAdvance args i₂ = .error refusal := by
  simp only [start]
  cases Feed.ofProgram inAdvance program with
  | error fault => rfl
  | ok feed => simp [Except.map]

theorem start_presented {program : Text} {inAdvance i₁ : Bool} {args : Option (List Text)}
    {r₁ : Run} (h : start program inAdvance args i₁ = .ok r₁) (i₂ : Bool) :
    ∃ r₂, start program inAdvance args i₂ = .ok r₂ ∧ r₁.Twin r₂ := by
  obtain ⟨feed, made, rfl⟩ := start_eq h
  exact ⟨_, start_of_feed made args i₂, feed, i₂, rfl, rfl⟩

/-- Presentation is nothing that a program can see. With writes that do not fail, and no prompts that
    fail where the program is marked, two runs of a program that differ in the settings of the console,
    in what it logs and in whether the program is marked are refused alike, or give the same answers and
    are in the same state however often they are resumed, up to their end. A run that is not interactive
    has shown on the output the values of its `>` in order, one a line, or nothing if the console is
    muted. -/
theorem presentation_is_unseen (program : Text) (inAdvance i₁ i₂ : Bool) (args : Option (List Text))
    (s₁ s₂ : Settings) (d₁ d₂ : Detail) (m : Machine) (roomy : m.console.room = none)
    (smooth₁ : i₁ = true → (m.present s₁ d₁).console.Smooth)
    (smooth₂ : i₂ = true → (m.present s₂ d₂).console.Smooth) :
    (∀ refusal, start program inAdvance args i₁ = .error refusal →
      start program inAdvance args i₂ = .error refusal) ∧
    (∀ r₁, start program inAdvance args i₁ = .ok r₁ →
      ∃ r₂, start program inAdvance args i₂ = .ok r₂ ∧
        (∀ k, ∃ answers r₁' r₂' m₁ m₂,
          r₁.resumeMany (m.present s₁ d₁) k = (answers, r₁', m₁) ∧
          r₂.resumeMany (m.present s₂ d₂) k = (answers, r₂', m₂) ∧ r₁'.Level m₁ r₂' m₂) ∧
        ∃ fault r₁' r₂' m₁ m₂, r₁.finish (m.present s₁ d₁) = some (fault, r₁', m₁) ∧
          r₂.finish (m.present s₂ d₂) = some (fault, r₂', m₂) ∧ r₁'.Level m₁ r₂' m₂) ∧
    ∀ r, start program inAdvance args false = .ok r →
      (∀ k, (r.resumeMany (m.present s₁ d₁) k).2.2.console.out = m.console.out ++
        (if s₁.mode = .muted then []
          else (r.written (m.present s₁ d₁) k).flatMap fun v => v.text ++ ['\n'])) ∧
      ∃ k fault, r.finish (m.present s₁ d₁) = some (fault, (r.resumeMany (m.present s₁ d₁) k).2) := by
  have agree := Machine.agree_present roomy s₁ s₂ d₁ d₂
  refine ⟨?_, ?_, ?_⟩
  · intro refusal refused
    exact (start_refused_iff i₁ i₂).mp refused
  · intro r₁ begun
    obtain ⟨r₂, begun', twin⟩ := start_presented begun i₂
    have marked₁ : r₁.Smooth (m.present s₁ d₁) := by
      obtain ⟨_, -, rfl⟩ := start_eq begun
      exact smooth₁
    have marked₂ : r₂.Smooth (m.present s₂ d₂) := by
      obtain ⟨_, -, rfl⟩ := start_eq begun'
      exact smooth₂
    refine ⟨r₂, begun', ?_, ?_⟩
    · intro k
      obtain ⟨answers, r₁', r₂', m₁, m₂, left, right, twin', agree'⟩ :=
        twin.resumeMany agree marked₁ marked₂ k
      exact ⟨answers, r₁', r₂', m₁, m₂, left, right, twin'.level agree'⟩
    · obtain ⟨_, _, _, finished⟩ := exists_finish begun (m.present s₁ d₁)
      obtain ⟨none, -⟩ | ⟨fault, r₁', r₂', m₁, m₂, left, right, twin', agree'⟩ :=
        twin.drive agree marked₁ marked₂ unseen_nothing unseen_nothing
      · cases none.symm.trans finished
      · exact ⟨fault, r₁', r₂', m₁, m₂, left, right, twin'.level agree'⟩
  · intro r begun
    obtain ⟨fault, r', m', finished⟩ := exists_finish begun (m.present s₁ d₁)
    obtain ⟨k, reached⟩ := exists_resumeMany_of_finish finished
    obtain ⟨feed, -, rfl⟩ := start_eq begun
    exact ⟨out_resumeMany rfl (m.present s₁ d₁), k, fault, by rw [reached]; exact finished⟩

/-- A line is read and written, once with coloured prompts and everything logged, once plainly. -/
theorem presentation_is_unseen_echo :
    let m : Machine := { console := { input := ['h', 'i', '\n'] } }
    let loud := m.present { mode := .prompted, color := true } .everything
    let plain := m.present {} .nothing
    ∃ r₁ r₂, start ['<', '>'] false none true = .ok r₁ ∧ start ['<', '>'] false none false = .ok r₂ ∧
      m.console.room = none ∧ loud.console.Smooth ∧
      (∃ answers r₁' r₂' m₁ m₂, r₁.resumeMany loud 3 = (answers, r₁', m₁) ∧
        r₂.resumeMany plain 3 = (answers, r₂', m₂) ∧ r₁'.Level m₁ r₂' m₂ ∧
        answers = [some (.yielded .input 1), some (.yielded .output 1), some (.completed none)]) ∧
      (r₂.resumeMany plain 3).2.2.console.out = ['h', 'i', '\n'] := by
  intro m loud plain
  have smooth : loud.console.Smooth := ⟨fun _ _ => ⟨_, rfl⟩, rfl⟩
  obtain ⟨-, alike, -⟩ := presentation_is_unseen ['<', '>'] false true false none
    { mode := .prompted, color := true } {} .everything .nothing m rfl (fun _ => smooth) (fun h => by cases h)
  obtain ⟨-, -, shown⟩ := presentation_is_unseen ['<', '>'] false false false none {} {} .nothing
    .nothing m rfl (fun h => by cases h) (fun h => by cases h)
  obtain ⟨r₂, begun, level, -⟩ := alike _ rfl
  cases begun
  obtain ⟨answers, r₁', r₂', m₁, m₂, left, right, same⟩ := level 3
  refine ⟨_, _, rfl, rfl, rfl, smooth, ⟨answers, r₁', r₂', m₁, m₂, left, right, same, ?_⟩, ?_⟩
  · exact (congrArg Prod.fst right).symm
  · exact (shown _ rfl).1 3

end Run

end QueueScript
