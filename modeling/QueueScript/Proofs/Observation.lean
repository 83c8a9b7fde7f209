import QueueScript.Proofs.Instructions

/-! # What a program sees of its machine

An instruction sees the values on the queue, the input, and whether a write succeeds. It sees
neither the settings nor the log nor what was shown, and how a run marks its program does not matter
to it, as long as no prompt fails. `Machine.Agree` relates two machines that no program can tell apart
and that were given the same values to write, and an instruction keeps it (`exec_parallel`). So two runs
that differ only in how they mark their program and where they get its tokens from end alike
(`Twin.drive`).

`Console.Grows` is about what a run adds to the console: values, prompts for its input and messages
for the log, and nothing else. A run that is not interactive shows no more than its values, and has no
prompts that could fail.
-/

namespace QueueScript

def Event.values : Event → List Value
  | .value _ v => [v]
  | _ => []

namespace Console

/-- The values that programs have written. -/
def values (c : Console) : List Value :=
  c.events.flatMap Event.values

/-- How many more values can be written; `none` for any number. -/
def capacity (c : Console) : Option Nat :=
  if c.settings.mode = .muted then none else c.room

/-- Consoles that no program can tell apart, with the same values written. -/
structure Agree (c d : Console) : Prop where
  input : d.input = c.input
  inputEnd : d.inputEnd = c.inputEnd
  capacity : d.capacity = c.capacity
  refusal : d.refusal = c.refusal
  values : d.values = c.values

theorem Agree.refl (c : Console) : c.Agree c :=
  ⟨rfl, rfl, rfl, rfl, rfl⟩

theorem Agree.symm {c d : Console} (h : c.Agree d) : d.Agree c :=
  ⟨h.input.symm, h.inputEnd.symm, h.capacity.symm, h.refusal.symm, h.values.symm⟩

theorem Agree.trans {c d e : Console} (h : c.Agree d) (h' : d.Agree e) : c.Agree e :=
  ⟨h'.input.trans h.input, h'.inputEnd.trans h.inputEnd, h'.capacity.trans h.capacity,
    h'.refusal.trans h.refusal, h'.values.trans h.values⟩

theorem agree_record (c : Console) {e : Event} (h : e.values = []) : c.Agree (c.record e) :=
  ⟨rfl, rfl, rfl, rfl, by simp [values, record, h]⟩

theorem agree_debug (c : Console) (topic : Topic) (message : Unit → Text) :
    c.Agree (c.debug topic message) := by
  unfold debug
  split
  · exact c.agree_record rfl
  · exact .refl c

theorem agree_writeErr (c : Console) (t : Text) : c.Agree (c.writeErr t).2 := by
  unfold writeErr
  split
  · exact c.agree_record rfl
  · exact .refl c
  · exact ⟨rfl, rfl, rfl, rfl, (c.agree_record (e := .notice t) rfl).values⟩

theorem agree_ask (c : Console) (span : Option Span) : c.Agree (c.ask span).2 := by
  unfold ask
  split
  · split
    · exact c.agree_writeErr _
    · exact .refl c
  · exact .refl c

theorem agree_notify (c : Console) (kind : Notice) (span : Option Span) (message : Text) :
    c.Agree (c.notify kind span message).2 := by
  unfold notify
  split
  · split
    · exact c.agree_writeErr _
    · exact .refl c
  · exact .refl c

theorem Agree.takeLine {c d : Console} (h : c.Agree d) :
    ∃ line c' d', c.takeLine = (line, c') ∧ d.takeLine = (line, d') ∧ c'.Agree d' := by
  unfold Console.takeLine
  rw [h.input, h.inputEnd]
  cases Text.readLine? c.input with
  | none => exact ⟨_, c, d, rfl, rfl, h⟩
  | some found => exact ⟨_, _, _, rfl, rfl, rfl, rfl, h.capacity, h.refusal, h.values⟩

theorem values_write (c : Console) (lead : Option Text) (room : Option Nat) (v : Value) :
    ({ c.record (.value lead v) with room := room } : Console).values = c.values ++ [v] := by
  simp [values, record, Event.values]

/-! ## Prompts -/

/-- Every template can be filled in, and the error stream takes all that is written to it. -/
structure Smooth (c : Console) : Prop where
  renders : ∀ channel span, ∃ t, c.prompt channel span = .ok t
  errRoom : c.errRoom = none

/-- No prompt for the span fails. Without a span there is none. -/
def Prompts (c : Console) (span : Option Span) : Prop :=
  span ≠ none → c.Smooth

/-- What a value is shown with: its prompt, or nothing at all if the console is muted. -/
def shown (c : Console) (span : Option Span) : Except StreamFault (Option Text) :=
  if c.settings.mode = .muted then .ok none else (c.lead span).map some

section Prompts

variable {c : Console} {span : Option Span}

theorem Smooth.writeErr (h : c.Smooth) (t : Text) : c.writeErr t = (.ok (), c.record (.notice t)) := by
  simp only [Console.writeErr, h.errRoom]

theorem Smooth.notify (h : c.Smooth) (kind : Notice) (span : Option Span) (message : Text) :
    (c.notify kind span message).1 = .ok () := by
  unfold Console.notify
  split
  · obtain ⟨t, made⟩ := h.renders kind.channel span
    simp only [made, h.writeErr]
  · rfl

theorem Prompts.ask (h : c.Prompts span) : (c.ask span).1 = .ok () := by
  unfold Console.ask
  split
  · rename_i marked _
    have smooth := h (Option.some_ne_none marked)
    obtain ⟨t, made⟩ := smooth.renders .input (some marked)
    simp only [made, smooth.writeErr]
  · rfl

theorem Prompts.shown (h : c.Prompts span) : ∃ lead, c.shown span = .ok lead := by
  unfold Console.shown
  split
  · exact ⟨none, rfl⟩
  · unfold Console.lead
    split
    · rename_i marked _
      obtain ⟨t, made⟩ := (h (Option.some_ne_none marked)).renders .output (some marked)
      exact ⟨some t, by rw [made]; rfl⟩
    · exact ⟨some [], rfl⟩

theorem readLine_of_ask (h : (c.ask span).1 = .ok ()) :
    c.readLine span = (c.ask span).2.takeLine := by
  unfold readLine
  split
  · rename_i asked
    rw [asked]
  · rename_i asked
    rw [asked] at h
    cases h

theorem output_cases (c : Console) (span : Option Span) (v : Value) :
    (∃ fault, c.shown span = .error fault ∧ c.output span v = (.error fault, c)) ∨
    (∃ lead, c.shown span = .ok lead ∧ c.capacity = some 0 ∧
      c.output span v = (.error c.refusal, c)) ∨
    ∃ lead room, c.shown span = .ok lead ∧ c.capacity ≠ some 0 ∧
      c.output span v = (.ok (), { c.record (.value lead v) with room := room }) ∧
      { c with room := room }.capacity = c.capacity.map (· - 1) := by
  unfold output shown capacity
  cases mode : c.settings.mode with
  | muted => exact .inr (.inr ⟨none, c.room, rfl, by simp, rfl, by simp [mode]⟩)
  | plain | prompted =>
      cases c.lead span with
      | error fault => exact .inl ⟨fault, rfl, rfl⟩
      | ok lead =>
          right
          simp only [writeValue]
          cases room : c.room with
          | none => exact .inr ⟨some lead, none, rfl, by simp, by simp [record, room], by simp [mode]⟩
          | some n =>
              cases n with
              | zero => exact .inl ⟨some lead, rfl, by simp, rfl⟩
              | succ n => exact .inr ⟨some lead, some n, rfl, by simp, rfl, by simp [mode]⟩

end Prompts

theorem Agree.readLine {c d : Console} (h : c.Agree d) {span span' : Option Span}
    (prompts : c.Prompts span) (prompts' : d.Prompts span') :
    ∃ line c' d', c.readLine span = (line, c') ∧ d.readLine span' = (line, d') ∧ c'.Agree d' := by
  rw [readLine_of_ask prompts.ask, readLine_of_ask prompts'.ask]
  exact (((c.agree_ask span).symm.trans h).trans (d.agree_ask span')).takeLine

theorem Agree.output {c d : Console} (h : c.Agree d) {span span' : Option Span}
    (prompts : c.Prompts span) (prompts' : d.Prompts span') (v : Value) :
    ∃ written c' d', c.output span v = (written, c') ∧ d.output span' v = (written, d') ∧
      c'.Agree d' := by
  obtain ⟨_, made⟩ := prompts.shown
  obtain ⟨_, made'⟩ := prompts'.shown
  obtain ⟨_, failed, -⟩ | ⟨_, -, full, first⟩ | ⟨lead, room, -, space, first, less⟩ := c.output_cases span v
  · cases made.symm.trans failed
  · obtain ⟨_, failed, -⟩ | ⟨_, -, -, second⟩ | ⟨_, _, -, space, -⟩ := d.output_cases span' v
    · cases made'.symm.trans failed
    · exact ⟨_, c, d, first, h.refusal ▸ second, h⟩
    · exact absurd (h.capacity.trans full) space
  · obtain ⟨_, failed, -⟩ | ⟨_, -, full, -⟩ | ⟨lead', room', -, -, second, less'⟩ := d.output_cases span' v
    · cases made'.symm.trans failed
    · exact absurd (h.capacity.symm.trans full) space
    · refine ⟨_, _, _, first, second, h.input, h.inputEnd, ?_, h.refusal, ?_⟩
      · exact less'.trans ((congrArg _ h.capacity).trans less.symm)
      · exact (d.values_write lead' room' v).trans
          ((congrArg (· ++ [v]) h.values).trans (c.values_write lead room v).symm)

end Console

/-- Machines that no program can tell apart, with the same values written. -/
structure Machine.Agree (m m' : Machine) : Prop where
  queue : m'.queue = m.queue
  console : m.console.Agree m'.console

theorem Machine.Agree.refl (m : Machine) : m.Agree m :=
  ⟨rfl, .refl m.console⟩

theorem Machine.Agree.symm {m m' : Machine} (h : m.Agree m') : m'.Agree m :=
  ⟨h.queue.symm, h.console.symm⟩

theorem Machine.Agree.trans {m m' m'' : Machine} (h : m.Agree m') (h' : m'.Agree m'') : m.Agree m'' :=
  ⟨h'.queue.trans h.queue, h.console.trans h'.console⟩

theorem Console.Agree.under {c d : Console} (h : c.Agree d) (queue : List Value) :
    Machine.Agree ⟨queue, c⟩ ⟨queue, d⟩ :=
  ⟨rfl, h⟩

theorem Machine.agree_logQueue (m : Machine) (span : Span) : m.Agree (m.logQueue span) :=
  (m.console.agree_debug ..).under m.queue

theorem Machine.agree_logMismatch (m : Machine) (program : Text) (pos : Nat) :
    m.Agree (m.logMismatch program pos) := by
  unfold Machine.logMismatch
  split
  · exact .refl m
  · exact (m.console.agree_debug ..).under m.queue

/-! ## What a run adds to the console -/

namespace Console

/-- What a run adds to a console. Only an interactive run asks for its input. -/
def Adds (c : Console) (interactive : Bool) : Event → Prop
  | .value lead _ => ∃ span, (interactive = false → span = none) ∧ c.shown span = .ok lead
  | .notice t => interactive = true ∧ ∃ span, c.prompt .input (some span) = .ok t
  | .debug _ => True
  | .print _ => False

/-- The second console is the first one after a run, or a part of one. -/
structure Grows (interactive : Bool) (c d : Console) : Prop where
  settings : d.settings = c.settings
  render : d.render = c.render
  errRoom : c.errRoom = none → d.errRoom = none
  events : ∃ added, d.events = c.events ++ added ∧ ∀ e ∈ added, c.Adds interactive e

section Grows

variable {interactive : Bool} {c d : Console}

theorem prompt_congr (settings : d.settings = c.settings) (render : d.render = c.render) :
    d.prompt = c.prompt := by
  funext channel span
  have marked : d.highlight = c.highlight := by
    funext span
    simp only [highlight, settings]
  simp only [prompt, settings, render, marked]

theorem adds_congr (settings : d.settings = c.settings) (render : d.render = c.render) (e : Event) :
    d.Adds interactive e ↔ c.Adds interactive e := by
  cases e <;> simp only [Adds, shown, lead, prompt_congr settings render, settings]

theorem Grows.smooth (h : c.Grows interactive d) (smooth : c.Smooth) : d.Smooth := by
  refine ⟨?_, h.errRoom smooth.errRoom⟩
  rw [prompt_congr h.settings h.render]
  exact smooth.renders

theorem Grows.refl (c : Console) : c.Grows interactive c :=
  ⟨rfl, rfl, id, [], by simp, by simp⟩

theorem Grows.trans {e : Console} (h : c.Grows interactive d) (h' : d.Grows interactive e) :
    c.Grows interactive e := by
  obtain ⟨settings, render, errRoom, added, grown, allowed⟩ := h
  obtain ⟨settings', render', errRoom', added', grown', allowed'⟩ := h'
  refine ⟨settings'.trans settings, render'.trans render, errRoom' ∘ errRoom, added ++ added',
    by rw [grown', grown, List.append_assoc], ?_⟩
  intro event member
  rcases List.mem_append.mp member with member | member
  · exact allowed event member
  · exact (adds_congr settings render event).mp (allowed' event member)

theorem grows_record {e : Event} (h : c.Adds interactive e) : c.Grows interactive (c.record e) := by
  refine ⟨rfl, rfl, id, [e], rfl, ?_⟩
  intro event member
  rw [List.mem_singleton.mp member]
  exact h

theorem grows_debug (c : Console) (topic : Topic) (message : Unit → Text) :
    c.Grows interactive (c.debug topic message) := by
  unfold debug
  split
  · exact grows_record trivial
  · exact .refl c

theorem grows_writeErr {t : Text} (h : c.Adds interactive (.notice t)) :
    c.Grows interactive (c.writeErr t).2 := by
  unfold writeErr
  split
  · exact grows_record h
  · exact .refl c
  · rename_i room
    exact { grows_record h with errRoom := fun unlimited => by rw [room] at unlimited; cases unlimited }

theorem grows_ask (c : Console) {span : Option Span} (h : interactive = false → span = none) :
    c.Grows interactive (c.ask span).2 := by
  unfold ask
  split
  · rename_i marked _
    split
    · rename_i t made
      refine grows_writeErr ⟨?_, marked, made⟩
      cases interactive with
      | true => rfl
      | false => cases h rfl
    · exact .refl c
  · exact .refl c

theorem grows_takeLine (c : Console) : c.Grows interactive c.takeLine.2 := by
  unfold takeLine
  split
  · exact ⟨rfl, rfl, id, [], by simp, by simp⟩
  · exact .refl c

theorem grows_readLine (c : Console) {span : Option Span} (h : interactive = false → span = none) :
    c.Grows interactive (c.readLine span).2 := by
  have asked := c.grows_ask h
  unfold readLine
  split
  · rename_i result
    rw [result] at asked
    exact asked.trans (grows_takeLine _)
  · rename_i result
    rw [result] at asked
    exact asked

theorem grows_output (c : Console) {span : Option Span} (h : interactive = false → span = none)
    (v : Value) : c.Grows interactive (c.output span v).2 := by
  obtain ⟨_, -, failed⟩ | ⟨_, -, -, failed⟩ | ⟨lead, room, made, -, written, -⟩ := c.output_cases span v
  · rw [failed]
    exact .refl c
  · rw [failed]
    exact .refl c
  · rw [written]
    refine ⟨rfl, rfl, id, [.value lead v], rfl, ?_⟩
    intro event member
    rw [List.mem_singleton.mp member]
    exact ⟨span, h, made⟩

theorem shown_none (c : Console) :
    c.shown none = .ok (if c.settings.mode = .muted then none else some []) := by
  unfold shown lead
  cases c.settings.mode <;> rfl

/-- What a run that is not interactive shows: its values, one a line, unless the console is muted. -/
theorem Grows.out_eq (h : c.Grows false d) :
    ∃ written, d.values = c.values ++ written ∧
      d.out = c.out ++ (if c.settings.mode = .muted then []
        else written.flatMap fun v => v.text ++ ['\n']) := by
  obtain ⟨-, -, -, added, grown, allowed⟩ := h
  refine ⟨added.flatMap Event.values, by rw [values, grown, List.flatMap_append]; rfl, ?_⟩
  rw [out, grown, List.flatMap_append]
  refine congrArg (c.out ++ ·) ?_
  clear grown
  induction added with
  | nil => simp
  | cons event added ih =>
      have later := ih fun e member => allowed e (List.mem_cons_of_mem _ member)
      have here := allowed event (List.mem_cons_self ..)
      rw [List.flatMap_cons, later, List.flatMap_cons]
      cases event with
      | value lead v =>
          obtain ⟨span, unmarked, made⟩ := here
          cases unmarked rfl
          cases c.shown_none.symm.trans made
          split
          · simp [Event.out]
          · simp [Event.out, Event.values]
      | notice t => cases here.1
      | debug message => simp [Event.out, Event.values]
      | print t => exact here.elim

theorem Grows.out_unique {e : Console} (h : c.Grows false d) (h' : c.Grows false e)
    (same : e.values = d.values) : e.out = d.out := by
  obtain ⟨written, values, out⟩ := h.out_eq
  obtain ⟨written', values', out'⟩ := h'.out_eq
  rw [values, values'] at same
  rw [out, out', List.append_cancel_left same]

end Grows

end Console

namespace Run

theorem promptSpan_of_not_interactive {r : Run} (h : r.interactive = false) : r.promptSpan = none := by
  simp [promptSpan, h]

theorem exec_grows (r : Run) (token : Token) (m : Machine) :
    m.console.Grows r.interactive (r.exec token m).2.2.console :=
  exec_console .refl Console.grows_debug r token m Console.Grows.trans
    (fun _ c => c.grows_readLine promptSpan_of_not_interactive)
    (fun _ c v => c.grows_output promptSpan_of_not_interactive v)

theorem grows_logMismatch (m : Machine) (program : Text) (pos : Nat) (interactive : Bool) :
    m.console.Grows interactive (m.logMismatch program pos).console := by
  unfold Machine.logMismatch
  split
  · exact .refl m.console
  · simp only
    exact m.console.grows_debug ..

theorem resume_grows {r r' : Run} {m m' : Machine} {found : Answer}
    (h : r.resume m = some (found, r', m')) :
    r'.interactive = r.interactive ∧ m.console.Grows r.interactive m'.console := by
  obtain ⟨-, ⟨_, ending, -, -, rfl, rfl⟩ | ⟨_, token, n, _, _, -, done, -, rfl⟩⟩ := resume_inversion h
  · cases ending with
    | none => exact ⟨rfl, .refl m.console⟩
    | some fault => exact ⟨rfl, grows_logMismatch ..⟩
  · have grown := exec_grows { r with span := ⟨r.program, r.offset, n⟩ } token m
    rw [done] at grown
    exact ⟨rfl, grown⟩

theorem drive_grows {after : Run → Token → Machine → Machine} {r r' : Run} {m m' : Machine}
    {fault : Option Fault}
    (adds : ∀ (s : Run) (token : Token) (m : Machine),
      m.console.Grows r.interactive (after s token m).console)
    (h : r.drive after m = some (fault, r', m')) : m.console.Grows r.interactive m'.console := by
  fun_induction drive after r m with
  | case1 => cases h
  | case2 r m fault r' m' next | case3 r m fault r' m' next =>
      cases h
      exact (resume_grows next).2
  | case4 r m token n r' m' next ih =>
      obtain ⟨same, grown⟩ := resume_grows next
      rw [same] at ih
      exact (grown.trans (adds ..)).trans (ih adds h)

/-! ## Runs that differ in nothing a program sees -/

/-- No prompt of the run fails on the machine. -/
def Smooth (r : Run) (m : Machine) : Prop :=
  r.interactive = true → m.console.Smooth

theorem smooth_of_not_interactive {r : Run} (h : r.interactive = false) (m : Machine) : r.Smooth m :=
  fun interactive => absurd (h.symm.trans interactive) Bool.false_ne_true

theorem Smooth.prompts {r : Run} {m : Machine} (h : r.Smooth m) : m.console.Prompts r.promptSpan := by
  intro marked
  apply h
  cases interactive : r.interactive with
  | true => rfl
  | false => exact absurd (promptSpan_of_not_interactive interactive) marked

theorem Smooth.exec {r : Run} {m : Machine} (h : r.Smooth m) (token : Token) :
    r.Smooth (r.exec token m).2.2 :=
  fun interactive => (exec_grows r token m).smooth (h interactive)

theorem Smooth.resume {r r' : Run} {m m' : Machine} {found : Answer} (h : r.Smooth m)
    (taken : r.resume m = some (found, r', m')) : r'.Smooth m' := by
  obtain ⟨same, grown⟩ := resume_grows taken
  intro interactive
  exact grown.smooth (h (same ▸ interactive))

/-- Outcomes of an instruction in two runs that differ in nothing a program sees. -/
inductive Parallel (r s : Run) :
    Except Fault Unit × Run × Machine → Except Fault Unit × Run × Machine → Prop where
  | intro {outcome : Except Fault Unit} {args : Option (List Text)} {m m' : Machine} : m.Agree m' →
      Parallel r s (outcome, { r with args := args }, m) (outcome, { s with args := args }, m')

theorem Parallel.eq {r s : Run} {x y : Except Fault Unit × Run × Machine} (h : Parallel r s x y) :
    ∃ outcome args m m', x = (outcome, { r with args := args }, m) ∧
      y = (outcome, { s with args := args }, m') ∧ m.Agree m' := by
  obtain ⟨agree⟩ := h
  exact ⟨_, _, _, _, rfl, rfl, agree⟩

theorem Parallel.unchanged {r s : Run} (sameArgs : s.args = r.args) {m m' : Machine}
    (h : m.Agree m') (outcome : Except Fault Unit) : Parallel r s (outcome, r, m) (outcome, s, m') := by
  obtain ⟨_, _, _, _, _, _, _⟩ := s
  cases sameArgs
  exact .intro h

theorem Parallel.of_args {r s : Run} {args : Option (List Text)}
    {x y : Except Fault Unit × Run × Machine}
    (h : Parallel { r with args := args } { s with args := args } x y) : Parallel r s x y := by
  obtain ⟨agree⟩ := h
  exact .intro agree

theorem settle_parallel {r s : Run} (sameArgs : s.args = r.args) {m m' : Machine} (h : m.Agree m')
    (results : Except Fault (List Value)) : Parallel r s (r.settle m results) (s.settle m' results) := by
  cases results with
  | error fault => exact .unchanged sameArgs h _
  | ok values =>
      have pushed : (m.push values).Agree (m'.push values) :=
        ⟨congrArg (· ++ values) h.queue, h.console⟩
      have before := (m.push values).agree_logQueue r.span
      have after := (m'.push values).agree_logQueue s.span
      exact .unchanged sameArgs ((before.symm.trans pushed).trans after) _

/-- An instruction does the same on machines that agree, however the runs mark their programs. -/
theorem exec_parallel {r s : Run} (sameArgs : s.args = r.args) {m m' : Machine} (h : m.Agree m')
    (smooth : r.Smooth m) (smooth' : s.Smooth m') (token : Token) : Parallel r s (r.exec token m) (s.exec token m') := by
  have prompts := smooth.prompts
  have prompts' := smooth'.prompts
  obtain ⟨queue, c⟩ := m
  obtain ⟨_, d⟩ := m'
  obtain ⟨sameQueue, agree⟩ := h
  cases sameQueue
  cases token with
  | input =>
      simp only [exec, Run.readLine, sameArgs]
      cases r.args.bind List.getLast? with
      | some line =>
          exact .of_args (settle_parallel (r := { r with args := r.args.map List.dropLast })
            (s := { s with args := r.args.map List.dropLast }) rfl (agree.under queue) _)
      | none =>
          obtain ⟨line, c', d', left, right, later⟩ := agree.readLine prompts prompts'
          simp only at left right
          simp only [left, right]
          cases line with
          | ok line => exact settle_parallel sameArgs (later.under queue) _
          | error fault => exact .unchanged sameArgs (later.under queue) _
  | output =>
      cases queue with
      | nil => exact .unchanged sameArgs (agree.under []) _
      | cons v rest =>
          obtain ⟨written, c', d', left, right, later⟩ := agree.output prompts prompts' v
          simp only at left right
          simp only [exec, left, right]
          cases written with
          | ok _ => exact settle_parallel sameArgs (later.under rest) _
          | error fault => exact .unchanged sameArgs (later.under rest) _
  | concat =>
      simp only [exec]
      split
      · exact settle_parallel sameArgs (agree.under _) _
      · exact .unchanged sameArgs (agree.under _) _
  | copy =>
      cases queue with
      | nil => exact .unchanged sameArgs (agree.under []) _
      | cons v rest => exact settle_parallel sameArgs (agree.under rest) (.ok [v, v])
  | rotate count => exact settle_parallel sameArgs (agree.under (QueueScript.rotate count queue)) (.ok [])
  | apply operator =>
      cases queue with
      | nil => exact .unchanged sameArgs (agree.under []) _
      | cons v rest => exact settle_parallel sameArgs (agree.under rest) _

/-- The second run is the first one, but for how its prompts are marked and where its tokens come
    from. -/
def Twin (r s : Run) : Prop :=
  ∃ (g : Feed) (interactive : Bool), s = { r with feed := g, interactive := interactive } ∧
    g.script = r.feed.script

theorem agree_conclude (ending : Option Fault) (r : Run) (m : Machine) :
    m.Agree (conclude ending (none, r, m)).2.2 := by
  cases ending with
  | none => exact .refl m
  | some fault => exact m.agree_logMismatch r.program r.offset

theorem conclude_agree (r s : Run) {m m' : Machine} (h : m.Agree m') (ending : Option Fault) :
    (conclude ending (none, r, m)).2.2.Agree (conclude ending (none, s, m')).2.2 :=
  ((agree_conclude ending r m).symm.trans h).trans (agree_conclude ending s m')

theorem Twin.resume {r s : Run} (h : r.Twin s) {m m' : Machine} (agree : m.Agree m')
    (smooth : r.Smooth m) (smooth' : s.Smooth m') :
    (r.resume m = none ∧ s.resume m' = none) ∨
    ∃ found r' s' n n', r.resume m = some (found, r', n) ∧ s.resume m' = some (found, s', n') ∧
      r'.Twin s' ∧ n.Agree n' := by
  obtain ⟨g, interactive, rfl, script⟩ := h
  let s : Run := { r with feed := g, interactive := interactive }
  by_cases ended : r.result.isSome = true
  · exact .inl ⟨resume_of_ended ended m, resume_of_ended (r := s) ended m'⟩
  · have running : r.result = none := by simpa using ended
    cases next : r.feed.resume with
    | none =>
        have done : g.resume = none := by
          rw [Feed.resume_eq_none_iff, ← Feed.script_eq_none_iff, script]
          exact Feed.script_of_exhausted next
        exact .inl ⟨by simp [Run.resume, next], by simp [Run.resume, done]⟩
    | some result =>
        obtain ⟨step, f'⟩ := result
        obtain ⟨g', next', later⟩ := Feed.resume_of_same_script script next
        right
        cases step with
        | completed fault =>
            have first := resume_of_completed running next m
            have second := resume_of_completed (r := s) running next' m'
            have still := conclude_agree r s agree fault
            cases fault with
            | none => exact ⟨_, _, _, _, _, first, second, ⟨g', interactive, rfl, later⟩, still⟩
            | some fault => exact ⟨_, _, _, _, _, first, second, ⟨g', interactive, rfl, later⟩, still⟩
        | yielded token n =>
            obtain ⟨outcome, args, n₁, effect, first⟩ := resume_of_yielded running next m
            obtain ⟨outcome', args', n₂, effect', second⟩ :=
              resume_of_yielded (r := s) running next' m'
            obtain ⟨_, _, _, _, left, right, still⟩ :=
              (exec_parallel (r := { r with feed := f', span := ⟨r.program, r.offset, n⟩ })
                (s := { s with feed := f', span := ⟨r.program, r.offset, n⟩ }) rfl agree smooth smooth'
                token).eq
            cases (effect f').symm.trans left
            cases (effect' f').symm.trans right
            exact ⟨_, _, _, _, _, first, second, ⟨g', interactive, rfl, later⟩, still⟩

/-- What is done between instructions is nothing that a program sees or a prompt fails from. -/
structure Unseen (after : Run → Token → Machine → Machine) : Prop where
  agree : ∀ (r : Run) (token : Token) (m : Machine), m.Agree (after r token m)
  smooth : ∀ (r : Run) (token : Token) (m : Machine), m.console.Smooth → (after r token m).console.Smooth

theorem unseen_nothing : Unseen fun _ _ m => m :=
  ⟨fun _ _ m => .refl m, fun _ _ _ smooth => smooth⟩

/-- Twins end alike, whatever is logged between their instructions. -/
theorem Twin.drive {r s : Run} (h : r.Twin s) {m m' : Machine} (agree : m.Agree m')
    (smooth : r.Smooth m) (smooth' : s.Smooth m') {after after' : Run → Token → Machine → Machine}
    (unseen : Unseen after) (unseen' : Unseen after') :
    (r.drive after m = none ∧ s.drive after' m' = none) ∨
    ∃ fault r' s' n n', r.drive after m = some (fault, r', n) ∧
      s.drive after' m' = some (fault, s', n') ∧ r'.Twin s' ∧ n.Agree n' := by
  fun_induction Run.drive after r m generalizing s m' with
  | case1 r m none =>
      obtain ⟨-, ended⟩ | ⟨_, _, _, _, _, some, -⟩ := h.resume agree smooth smooth'
      · exact .inl ⟨rfl, drive_of_ended ended⟩
      · cases none.symm.trans some
  | case2 r m fault r' n next =>
      obtain ⟨ended, -⟩ | ⟨_, _, s', _, n', first, second, twin, still⟩ := h.resume agree smooth smooth'
      · cases ended.symm.trans next
      · cases first.symm.trans next
        exact .inr ⟨fault, r', s', n, n', rfl, drive_of_stop second rfl, twin, still⟩
  | case3 r m fault r' n next =>
      obtain ⟨ended, -⟩ | ⟨_, _, s', _, n', first, second, twin, still⟩ := h.resume agree smooth smooth'
      · cases ended.symm.trans next
      · cases first.symm.trans next
        exact .inr ⟨some fault, r', s', n, n', rfl, drive_of_stop second rfl, twin, still⟩
  | case4 r m token k r' n next ih =>
      obtain ⟨ended, -⟩ | ⟨_, _, s', _, n', first, second, twin, still⟩ := h.resume agree smooth smooth'
      · cases ended.symm.trans next
      · cases first.symm.trans next
        rw [drive_of_yielded second]
        refine ih twin (((unseen.agree r' token n).symm.trans still).trans (unseen'.agree s' token n'))
          (fun interactive => unseen.smooth _ _ _ (smooth.resume next interactive))
          (fun interactive => unseen'.smooth _ _ _ (smooth'.resume second interactive))

end Run

end QueueScript
