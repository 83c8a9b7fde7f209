import QueueScript.Batch
import QueueScript.Session
import QueueScript.Proofs.Concatenation
import QueueScript.Proofs.Instructions

/-! # No list has an empty element

A list can have empty elements, and they would belong to every class of letters at once. But no program
makes one: splitting drops empty fragments, and no other instruction shortens an element. So all
queues that batch runs and sessions lead to from an empty queue hold lists of nonempty strings only
(`Arises.solid`), after every single instruction. The strings on the queue may be empty all the same.

`Run.trail` is the machine after each instruction of a run, in the way that `Run.drive` goes.
-/

namespace QueueScript

/-- A value that is not a list with an empty element. -/
def Value.Solid : Value → Prop
  | .list items => ∀ t ∈ items, t ≠ []
  | .string _ | .bool _ => True

def SolidQueue (queue : List Value) : Prop :=
  ∀ v ∈ queue, v.Solid

theorem SolidQueue.append {a b : List Value} (h : SolidQueue a) (h' : SolidQueue b) :
    SolidQueue (a ++ b) := by
  intro v member
  rcases List.mem_append.mp member with member | member
  · exact h v member
  · exact h' v member

theorem SolidQueue.tail {v : Value} {rest : List Value} (h : SolidQueue (v :: rest)) :
    SolidQueue rest :=
  fun w member => h w (List.mem_cons_of_mem v member)

theorem SolidQueue.head {v : Value} {rest : List Value} (h : SolidQueue (v :: rest)) : v.Solid :=
  h v (List.mem_cons_self ..)

theorem solidQueue_singleton {v : Value} (h : v.Solid) : SolidQueue [v] := by
  intro w member
  rw [List.mem_singleton.mp member]
  exact h

theorem SolidQueue.rotate {queue : List Value} (h : SolidQueue queue) (count : Int) :
    SolidQueue (rotate count queue) := by
  intro v member
  rcases List.mem_append.mp member with member | member
  · exact h v (List.mem_of_mem_drop member)
  · exact h v (List.mem_of_mem_take member)

theorem split_solid {literal : Option Text} {v w : Value} (h : v.split literal = .ok w) : w.Solid := by
  cases v with
  | list | bool => cases h
  | string t =>
      cases literal with
      | none =>
          cases h
          simp [Value.Solid]
      | some pattern =>
          cases pattern with
          | nil =>
              cases h
              simp [Value.Solid]
          | cons c pattern =>
              cases h
              simp [Value.Solid]

theorem index_cases {bound : Bound} {items : List Text} {w : Value}
    (h : (Value.list items).index bound = .ok w) : ∃ t ∈ items, w = .string t := by
  simp only [Value.index, Value.length] at h
  cases place : bound.resolve items.length with
  | error fault =>
      rw [place] at h
      cases h
  | ok pos =>
      simp only [place] at h
      cases found : items[pos.toNat]? with
      | none =>
          rw [found] at h
          cases h
      | some t =>
          rw [found] at h
          cases h
          exact ⟨t, List.mem_of_getElem? found, rfl⟩

theorem Value.solid_of_kind {v : Value} (h : v.kind ≠ .list) : v.Solid := by
  cases v with
  | list items => exact absurd rfl h
  | string | bool => trivial

theorem Operator.kind_of_apply {operator : Operator} {v w : Value} (h : operator.apply v = .ok w) :
    operator.onKind v.kind = .ok w.kind := by
  have foreseen := operator.apply_foreseen v
  rw [h] at foreseen
  generalize operator.onKind v.kind = known at foreseen
  cases foreseen
  rfl

theorem Operator.apply_solid {operator : Operator} {v w : Value} (h : operator.apply v = .ok w)
    (solid : v.Solid) : w.Solid := by
  have known := kind_of_apply h
  cases v with
  | bool truth => cases operator <;> cases known
  | string t =>
      cases operator with
      | split literal =>
          rw [apply] at h
          exact split_solid h
      | join => cases known
      | check | mapCase | filter | slice | index =>
          apply Value.solid_of_kind
          rw [← Except.ok.inj known]
          intro impossible
          cases impossible
  | list items =>
      cases operator with
      | split => cases known
      | join | check | index =>
          apply Value.solid_of_kind
          rw [← Except.ok.inj known]
          intro impossible
          cases impossible
      | mapCase change =>
          cases h
          intro t member
          obtain ⟨u, inItems, rfl⟩ := List.mem_map.mp member
          simpa [CaseMap.onText] using solid u inItems
      | filter letters =>
          cases h
          intro t member
          exact solid t (List.mem_filter.mp member).1
      | slice range =>
          simp only [apply, Value.slice, Value.length] at h
          cases place : range.resolve items.length with
          | error fault =>
              rw [place] at h
              cases h
          | ok bounds =>
              rw [place] at h
              cases h
              intro t member
              exact solid t (List.mem_of_mem_take (List.mem_of_mem_drop member))

theorem Value.concat_solid {left right v : Value} (h : left.concat right = .ok v)
    (solid : left.Solid) (solid' : right.Solid) : v.Solid := by
  cases left with
  | string a =>
      cases right with
      | string b =>
          cases h
          trivial
      | list | bool => cases h
  | list a =>
      cases right with
      | list b =>
          cases h
          intro t member
          rcases List.mem_append.mp member with member | member
          · exact solid t member
          · exact solid' t member
      | string | bool => cases h
  | bool a => cases right <;> cases h

theorem Executes.solid {token : Token} {before after : List Value} {outcome : Except Fault Unit}
    (h : Executes token before outcome after) (solid : SolidQueue before) : SolidQueue after := by
  cases h with
  | short | unread => exact solid
  | read line => exact solid.append (solidQueue_singleton trivial)
  | written | unwritten | unapplied => exact solid.tail
  | unjoined => exact solid.tail.tail
  | joined rest computed =>
      have v := Value.concat_solid computed solid.head solid.tail.head
      exact solid.tail.tail.append (solidQueue_singleton v)
  | copied v rest =>
      have one := solidQueue_singleton solid.head
      exact solid.tail.append (one.append one)
  | rotated count queue => exact solid.rotate count
  | applied rest computed =>
      exact solid.tail.append (solidQueue_singleton (Operator.apply_solid computed solid.head))

namespace Run

/-- The machine after each instruction of a run, the failing one included, and where it stops. What is done
    between two instructions is left to `after`. -/
def trail (after : Run → Token → Machine → Machine) (r : Run) (m : Machine) : List Machine :=
  match _next : r.resume m with
  | none => []
  | some (.completed _, _, m') | some (.raised _, _, m') => [m']
  | some (.yielded token _, r', m') => m' :: trail after r' (after r' token m')
termination_by r.feed.remaining
decreasing_by exact remaining_lt_of_resume _next

section Trail

variable {after : Run → Token → Machine → Machine}

theorem trail_of_stop {r r' : Run} {m m' : Machine} {found : Answer} {fault : Option Fault}
    (h : r.resume m = some (found, r', m')) (stopped : found.stop = some fault) :
    r.trail after m = [m'] := by
  rw [trail]
  cases found with
  | yielded => cases stopped
  | completed | raised => split <;> simp_all

theorem trail_of_yielded {r r' : Run} {m m' : Machine} {token : Token} {n : Nat}
    (h : r.resume m = some (.yielded token n, r', m')) :
    r.trail after m = m' :: r'.trail after (after r' token m') := by
  rw [trail]
  split <;> simp_all

theorem mem_trail_of_drive {r r' : Run} {m m' : Machine} {fault : Option Fault}
    (h : r.drive after m = some (fault, r', m')) : m' ∈ r.trail after m := by
  fun_induction drive after r m with
  | case1 => cases h
  | case2 r m fault r' m' next | case3 r m fault r' m' next =>
      cases h
      rw [trail_of_stop next rfl]
      exact List.mem_singleton_self m'
  | case4 r m token n r' m' next ih =>
      rw [trail_of_yielded next]
      exact List.mem_cons_of_mem _ (ih h)

theorem resume_solid {r r' : Run} {m m' : Machine} {found : Answer}
    (h : r.resume m = some (found, r', m')) (solid : SolidQueue m.queue) : SolidQueue m'.queue := by
  obtain ⟨-, ⟨_, ending, -, -, -, rfl⟩ | ⟨_, token, n, outcome, _, -, done, -, -⟩⟩ :=
    resume_inversion h
  · rw [(agree_conclude ending r m).queue]
    exact solid
  · have executes := exec_executes { r with span := ⟨r.program, r.offset, n⟩ } token m
    rw [done] at executes
    exact executes.solid solid

theorem trail_solid (keeps : ∀ r token m, (after r token m).queue = m.queue) (r : Run) {m : Machine}
    (solid : SolidQueue m.queue) : ∀ m' ∈ r.trail after m, SolidQueue m'.queue := by
  fun_induction trail after r m with
  | case1 => simp
  | case2 r m r' m' fault next | case3 r m fault r' m' next =>
      intro n member
      rw [List.mem_singleton.mp member]
      exact resume_solid next solid
  | case4 r m token k r' m' next ih =>
      have now := resume_solid next solid
      intro n member
      rcases List.mem_cons.mp member with rfl | member
      · exact now
      · exact ih (by rw [keeps]; exact now) n member

end Trail

end Run

/-- The machines that batch runs and sessions lead to from an empty queue: before and after every run
    and every line, and after every instruction. The console may be any one at any time, and any run may
    be resumed. -/
inductive Arises : Machine → Prop where
  | fresh (console : Console) : Arises ⟨[], console⟩
  | console {m : Machine} (console : Console) : Arises m → Arises { m with console }
  | resumed {m m' : Machine} {r r' : Run} {found : Answer} : Arises m →
      r.resume m = some (found, r', m') → Arises m'
  | batch {m : Machine} (program : Text) (inputs : List Text) (inAdvance : Bool) :
      Arises m → Arises (m.runProgram program inputs inAdvance).2
  | duringBatch {m m' : Machine} {program : Text} {args : Option (List Text)} {inAdvance : Bool}
      {r : Run} : Arises m → Run.start program inAdvance args false = .ok r →
      m' ∈ r.trail (fun _ _ m => m) m → Arises m'
  | clear {m : Machine} : Arises m → Arises m.clear
  | line {m : Machine} (line : Text) : Arises m → Arises (Session.respond line m).2
  | duringLine {m m' : Machine} {line : Text} {r : Run} : Arises m →
      Run.start line true none true = .ok r → m' ∈ r.trail Session.logExecuted m → Arises m'

theorem Machine.runProgram_solid {m : Machine} (solid : SolidQueue m.queue) (program : Text)
    (inputs : List Text) (inAdvance : Bool) :
    SolidQueue (m.runProgram program inputs inAdvance).2.queue := by
  simp only [runProgram]
  split
  · rw [Machine.logUnreadable, (m.agree_logMismatch ..).queue]
    exact solid
  · rename_i run _
    split
    · rename_i finished
      exact Run.trail_solid (fun _ _ _ => rfl) run solid _ (Run.mem_trail_of_drive finished)
    · exact solid

theorem Session.queue_logExecuted (r : Run) (token : Token) (m : Machine) :
    (logExecuted r token m).queue = m.queue := rfl

theorem Session.execute_solid {m : Machine} (solid : SolidQueue m.queue) (line : Text) :
    SolidQueue (execute line m).2.queue := by
  simp only [execute]
  split
  · rw [inform_queue, Machine.logUnreadable, (m.agree_logMismatch ..).queue]
    exact solid
  · rename_i run _
    have traced {fault : Option Fault} {r' : Run} {m' : Machine}
        (driven : run.drive logExecuted m = some (fault, r', m')) : SolidQueue m'.queue :=
      Run.trail_solid queue_logExecuted run solid _ (Run.mem_trail_of_drive driven)
    split
    · exact solid
    · rename_i driven
      exact traced driven
    · rename_i driven
      split
      · exact traced driven
      · rw [inform_queue]
        exact traced driven

theorem Session.queue_obey (command : Command) (m : Machine) :
    (obey command m).2.queue = m.queue ∨ (obey command m).2.queue = [] := by
  cases command with
  | clear =>
      right
      simp only [obey, inform_queue]
  | _ =>
      left
      simp only [obey, inform_queue]

theorem Session.respond_solid {m : Machine} (solid : SolidQueue m.queue) (line : Text) :
    SolidQueue (respond line m).2.queue := by
  unfold respond
  split
  · exact solid
  · rename_i name
    obtain kept | cleared := queue_obey (.ofName name) m
    · rw [kept]
      exact solid
    · rw [cleared]
      nofun
  · exact execute_solid solid line

theorem Arises.solid {m : Machine} (h : Arises m) : SolidQueue m.queue := by
  induction h with
  | fresh console => nofun
  | console console _ ih => exact ih
  | resumed _ taken ih => exact Run.resume_solid taken ih
  | batch program inputs inAdvance _ ih => exact Machine.runProgram_solid ih program inputs inAdvance
  | @duringBatch m m' _ _ _ r _ _ passed ih => exact r.trail_solid (fun _ _ _ => rfl) ih m' passed
  | clear => nofun
  | line line _ ih => exact Session.respond_solid ih line
  | @duringLine m m' _ r _ _ passed ih => exact r.trail_solid Session.queue_logExecuted ih m' passed

theorem Arises.turns {m : Machine} (h : Arises m) : Arises (Session.turns m).2 := by
  fun_induction Session.turns m with
  | case1 m line console taken closing m' response =>
      have after : Arises (Session.respond line { Session.showPrompt m with console }).2 :=
        (h.console console).line line
      rw [response] at after
      exact after
  | case2 m line console taken m' response ih =>
      have after : Arises (Session.respond line { Session.showPrompt m with console }).2 :=
        (h.console console).line line
      rw [response] at after
      exact ih after
  | case3 m note console taken => exact h.console _
  | case4 m fault console taken => exact h.console _

/-! ## What follows for lists -/

/-- Classes of letters without a common letter. -/
def Check.Apart (a b : Check) : Prop :=
  ∀ c, a.holds c = true → b.holds c = false

theorem vowel_apart_consonant : Check.vowel.Apart .consonant := by
  intro c vowel
  simp only [Check.holds] at vowel ⊢
  simp [vowel]

theorem lower_apart_upper : Check.lower.Apart .upper := by
  intro c lower
  simp only [Check.holds] at lower ⊢
  delta Char.isLower at lower
  delta Char.isUpper
  grind

theorem filter_disjoint {a b : Check} (apart : a.Apart b) {items : List Text}
    (solid : ∀ t ∈ items, t ≠ []) :
    ∃ kept kept', Value.filter a (.list items) = .ok (.list kept) ∧
      Value.filter b (.list items) = .ok (.list kept') ∧ ∀ t ∈ kept, t ∉ kept' := by
  refine ⟨_, _, rfl, rfl, ?_⟩
  intro t member member'
  obtain ⟨inItems, inFirst⟩ := List.mem_filter.mp member
  obtain ⟨-, inSecond⟩ := List.mem_filter.mp member'
  cases t with
  | nil => exact solid [] inItems rfl
  | cons c t =>
      simp only [Check.all, List.all_cons, Bool.and_eq_true] at inFirst inSecond
      rw [apart c inFirst.1] at inSecond
      cases inSecond.1

theorem index_nonempty {items : List Text} (solid : ∀ t ∈ items, t ≠ []) (bound : Bound) :
    (∃ t, (Value.list items).index bound = .ok (.string t) ∧ t ≠ []) ∨
    ∃ fault, (Value.list items).index bound = .error (.range fault) := by
  have foreseen := (Operator.index bound).apply_foreseen (.list items)
  simp only [Operator.apply] at foreseen
  cases found : (Value.list items).index bound with
  | ok w =>
      obtain ⟨t, member, rfl⟩ := index_cases found
      exact .inl ⟨t, rfl, solid t member⟩
  | error fault =>
      rw [found] at foreseen
      cases foreseen with
      | hidden _ unseen =>
          cases fault with
          | range fault => exact .inr ⟨fault, rfl⟩
          | stream fault => rcases unseen with same | same <;> cases same
          | kind | parse => exact unseen.elim

/-- No list that batch runs or sessions put on the queue has an empty element. So the classes of
    letters that exclude each other keep different elements of it, and picking an element of it gives
    a nonempty string, unless the bound does not fit. -/
theorem no_list_has_an_empty_element (m : Machine) (h : Arises m) :
    Arises (Session.turns m).2 ∧
    ∀ items, .list items ∈ m.queue →
      (∀ t ∈ items, t ≠ []) ∧
      (∃ vowels consonants, Value.filter .vowel (.list items) = .ok (.list vowels) ∧
        Value.filter .consonant (.list items) = .ok (.list consonants) ∧
        ∀ t ∈ vowels, t ∉ consonants) ∧
      (∃ lower upper, Value.filter .lower (.list items) = .ok (.list lower) ∧
        Value.filter .upper (.list items) = .ok (.list upper) ∧ ∀ t ∈ lower, t ∉ upper) ∧
      ∀ bound, (∃ t, (Value.list items).index bound = .ok (.string t) ∧ t ≠ []) ∨
        ∃ fault, (Value.list items).index bound = .error (.range fault) := by
  refine ⟨h.turns, ?_⟩
  intro items member
  have solid : ∀ t ∈ items, t ≠ [] := h.solid _ member
  exact ⟨solid, filter_disjoint vowel_apart_consonant solid, filter_disjoint lower_apart_upper solid,
    index_nonempty solid⟩

/-- A line cut at two hyphens in a row. -/
theorem no_list_has_an_empty_element_hyphens :
    let m : Machine := { console := { input := ['a', '-', '-', 'b'] } }
    let program : Text := ['<', '/', '"', '-', '"', '/']
    Arises (m.runProgram program [] false).2 ∧
    (m.runProgram program [] false).2.queue = [.list [['a'], ['b']]] ∧
    ∀ t ∈ [['a'], ['b']], t ≠ [] := by
  intro m program
  have arises : Arises (m.runProgram program [] false).2 := .batch program [] false (.fresh m.console)
  have read : tokenize program = .ok [(.input, 1), (.apply (.split (some ['-'])), 5)] := by
    rw [tokenize_of_scan rfl, tokenize_of_scan rfl, tokenize_of_empty rfl]
    rfl
  have cut : Value.split (some ['-']) (.string ['a', '-', '-', 'b']) = .ok (.list [['a'], ['b']]) := by
    simp [Value.split, Value.asString, Text.fragments, Text.breakOn]
  have queue : (m.runProgram program [] false).2.queue = [.list [['a'], ['b']]] := by
    rw [Run.runProgram_of_tokenize read rfl]
    simp [Run.perform, Run.fresh, Run.exec, Run.readLine, Console.readLine, Console.ask,
      Console.takeLine, Text.readLine?, Run.settle, Machine.push, Machine.logQueue, Operator.apply,
      cut, Except.map, m]
  have here := (no_list_has_an_empty_element _ arises).2 [['a'], ['b']] (by rw [queue]; simp)
  exact ⟨arises, queue, here.1⟩

end QueueScript
