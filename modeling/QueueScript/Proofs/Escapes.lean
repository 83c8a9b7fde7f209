import QueueScript.Proofs.Failures
import QueueScript.Proofs.Slices

/-! # Which faults escape

A fault escapes from a run if it comes that way from a stream or from a prompt, or if it is about a
range and has a number that is too long to be told. The numbers in a program are short, so the latter
takes a value with more items than any memory can hold (`Value.Fits`). Where no stream and no prompt has a
fault that escapes (`Console.Tame`), every run of a program comes to its end (`not_escapes_of_stop`).
-/

namespace QueueScript

/-! ## Streams and prompts -/

namespace Console

/-- The second console is the first one later on: it makes its prompts and fails as the first one. -/
structure Continues (c d : Console) : Prop where
  prompt : d.prompt = c.prompt
  inputEnd : d.inputEnd = c.inputEnd
  refusal : d.refusal = c.refusal
  errRefusal : d.errRefusal = c.errRefusal
  room : c.room = none → d.room = none
  errRoom : c.errRoom = none → d.errRoom = none

/-- No fault of the input and the output escapes from a run. If the run is interactive, none of its prompts
    and of the error stream does. -/
structure Tame (interactive : Bool) (c : Console) : Prop where
  input : (endFault c.inputEnd).escapes = false
  output : c.room = none ∨ c.refusal.escapes = false
  error : interactive = true → c.errRoom = none ∨ c.errRefusal.escapes = false
  prompt : interactive = true → ∀ channel span fault, c.prompt channel span = .error fault →
    fault.escapes = false

section Continues

variable {c d : Console}

theorem Continues.refl (c : Console) : c.Continues c :=
  ⟨rfl, rfl, rfl, rfl, id, id⟩

theorem Continues.trans {e : Console} (h : c.Continues d) (h' : d.Continues e) : c.Continues e :=
  ⟨h'.prompt.trans h.prompt, h'.inputEnd.trans h.inputEnd, h'.refusal.trans h.refusal,
    h'.errRefusal.trans h.errRefusal, h'.room ∘ h.room, h'.errRoom ∘ h.errRoom⟩

theorem continues_record (c : Console) (e : Event) : c.Continues (c.record e) :=
  ⟨rfl, rfl, rfl, rfl, id, id⟩

theorem continues_debug (c : Console) (topic : Topic) (message : Unit → Text) :
    c.Continues (c.debug topic message) := by
  unfold debug
  split
  · exact c.continues_record _
  · exact .refl c

theorem continues_writeErr (c : Console) (t : Text) : c.Continues (c.writeErr t).2 := by
  unfold writeErr
  split
  · exact c.continues_record _
  · exact .refl c
  · rename_i limited
    exact ⟨rfl, rfl, rfl, rfl, id, fun unlimited => by rw [limited] at unlimited; cases unlimited⟩

theorem continues_ask (c : Console) (span : Option Span) : c.Continues (c.ask span).2 := by
  unfold ask
  split
  · split
    · exact c.continues_writeErr _
    · exact .refl c
  · exact .refl c

theorem continues_notify (c : Console) (kind : Notice) (span : Option Span) (message : Text) :
    c.Continues (c.notify kind span message).2 := by
  unfold notify
  split
  · split
    · exact c.continues_writeErr _
    · exact .refl c
  · exact .refl c

theorem continues_takeLine (c : Console) : c.Continues c.takeLine.2 := by
  unfold takeLine
  split
  · exact ⟨rfl, rfl, rfl, rfl, id, id⟩
  · exact .refl c

theorem continues_readLine (c : Console) (span : Option Span) : c.Continues (c.readLine span).2 := by
  have asked := c.continues_ask span
  unfold readLine
  split
  · rename_i result
    rw [result] at asked
    exact asked.trans (continues_takeLine _)
  · rename_i result
    rw [result] at asked
    exact asked

theorem continues_writeValue (c : Console) (lead : Text) (v : Value) :
    c.Continues (c.writeValue lead v).2 := by
  unfold writeValue
  split
  · exact c.continues_record _
  · exact .refl c
  · rename_i limited
    exact ⟨rfl, rfl, rfl, rfl, fun unlimited => (by rw [limited] at unlimited; cases unlimited), id⟩

theorem continues_output (c : Console) (span : Option Span) (v : Value) :
    c.Continues (c.output span v).2 := by
  unfold output
  split
  · exact c.continues_record _
  · split
    · exact c.continues_writeValue _ v
    · exact .refl c

theorem Tame.continues {interactive : Bool} (h : c.Tame interactive) (later : c.Continues d) :
    d.Tame interactive := by
  refine ⟨by rw [later.inputEnd]; exact h.input, ?_, fun marked => ?_, ?_⟩
  · rw [later.refusal]
    exact h.output.imp_left later.room
  · rw [later.errRefusal]
    exact (h.error marked).imp_left later.errRoom
  · rw [later.prompt]
    exact h.prompt

theorem Smooth.continues (h : c.Smooth) (later : c.Continues d) : d.Smooth := by
  refine ⟨?_, later.errRoom h.errRoom⟩
  rw [later.prompt]
  exact h.renders

theorem Smooth.tame (h : c.Smooth) (input : (endFault c.inputEnd).escapes = false)
    (output : c.room = none ∨ c.refusal.escapes = false) (interactive : Bool) : c.Tame interactive := by
  refine ⟨input, output, fun _ => .inl h.errRoom, fun _ channel span fault failed => ?_⟩
  obtain ⟨t, made⟩ := h.renders channel span
  cases made.symm.trans failed

end Continues

section Tame

variable {c : Console} {interactive : Bool} {span : Option Span} {fault : StreamFault}

theorem Tame.of_writeErr (h : c.Tame true) {t : Text} (failed : (c.writeErr t).1 = .error fault) :
    fault.escapes = false := by
  unfold writeErr at failed
  split at failed
  · cases failed
  · rename_i full
    cases failed
    rcases h.error rfl with unlimited | harmless
    · cases full.symm.trans unlimited
    · exact harmless
  · cases failed

theorem Tame.of_readLine (h : c.Tame interactive) (unmarked : interactive = false → span = none)
    (failed : (c.readLine span).1 = .error fault) : fault.escapes = false := by
  have ofTakeLine : ∀ d : Console, d.inputEnd = c.inputEnd → d.takeLine.1 = .error fault →
      fault.escapes = false := by
    intro d same failed
    unfold takeLine at failed
    split at failed
    · cases failed
    · cases failed
      rw [same]
      exact h.input
  have later := c.continues_ask span
  unfold readLine at failed
  split at failed
  · rename_i asked
    rw [asked] at later
    exact ofTakeLine _ later.inputEnd failed
  · rename_i asked
    cases failed
    unfold ask at asked
    split at asked
    · have marked : interactive = true := by
        cases interactive with
        | true => rfl
        | false => cases unmarked rfl
      split at asked
      · subst marked
        exact h.of_writeErr (congrArg Prod.fst asked)
      · rename_i failed
        cases asked
        exact h.prompt marked _ _ _ failed
    · cases asked

theorem Tame.of_output (h : c.Tame interactive) (unmarked : interactive = false → span = none)
    {v : Value} (failed : (c.output span v).1 = .error fault) : fault.escapes = false := by
  unfold Console.output at failed
  split at failed
  · cases failed
  · split at failed
    · unfold writeValue at failed
      split at failed
      · cases failed
      · rename_i full
        cases failed
        rcases h.output with unlimited | harmless
        · cases full.symm.trans unlimited
        · exact harmless
      · cases failed
    · rename_i unmade
      cases failed
      unfold lead at unmade
      split at unmade
      · cases interactive with
        | true => exact h.prompt rfl _ _ _ unmade
        | false => cases unmarked rfl
      · cases unmade

end Tame

end Console

/-! ## Ranges -/

namespace Value

def size : Value → Nat
  | .string t => t.length
  | .list items => items.length
  | .bool _ => 0

/-- A value that a memory of 64-bit addresses can hold. -/
def Fits (v : Value) : Prop :=
  v.size < Nat.pow 2 63

instance (v : Value) : Decidable v.Fits :=
  inferInstanceAs (Decidable (_ < _))

theorem length_eq_ok {v : Value} {n : Nat} (h : v.length = .ok n) : n = v.size := by
  cases v <;> cases h <;> rfl

end Value

theorem Text.isWritable_of_le {k : Int} {n : Nat} (h : k.natAbs ≤ n) (writable : isWritable n = true) :
    isWritable k = true := by
  rw [isWritable_iff] at writable ⊢
  exact Nat.lt_of_le_of_lt h writable

theorem Text.isWritable_of_le_memory {k : Int} (h : k.natAbs ≤ Nat.pow 2 63) : isWritable k = true := by
  have memory : isWritable (Nat.pow 2 63 : Nat) = true := by decide +kernel
  exact isWritable_of_le h memory

theorem Bound.Canonical.nonneg {b : Bound} (h : b.Canonical) : 0 ≤ b.places := by
  cases b <;> exact h.1

theorem Bound.Canonical.writable {b : Bound} (h : b.Canonical) : Text.isWritable b.places = true := by
  cases b with
  | front n | back n =>
      obtain ⟨k, rfl⟩ := Int.eq_ofNat_of_zero_le h.1
      exact decide_eq_true h.2

section Ranges

variable {length : Nat} (fits : length < Nat.pow 2 63)

include fits

theorem Text.isWritable_length : isWritable length = true :=
  isWritable_of_le_memory (by omega)

theorem Bound.Canonical.writable_offset {b : Bound} (h : b.Canonical) :
    Text.isWritable (b.offset length) = true := by
  have nonneg := h.nonneg
  have writable := h.writable
  cases b with
  | front n => exact writable
  | back n =>
      simp only [offset, places] at nonneg writable ⊢
      rcases Int.le_total n length with le | le
      · exact Text.isWritable_of_le_memory (by omega)
      · obtain ⟨k, rfl⟩ := Int.eq_ofNat_of_zero_le nonneg
        exact Text.isWritable_of_le (by omega) writable

theorem Bound.Canonical.resolve_ne_unwritable {b : Bound} (h : b.Canonical) :
    b.resolve length ≠ .error .unwritable := by
  have told : Told [b.places, b.offset length, length] := by
    simp only [Told, List.forall_mem_cons]
    exact ⟨h.writable, h.writable_offset fits, Text.isWritable_length fits, List.forall_mem_nil _⟩
  intro failed
  simp only [resolve, RangeFault.told_of_told told] at failed
  split at failed <;> cases failed

theorem Range.resolve_ne_unwritable {range : Range} (first : ∀ b ∈ range.first, b.Canonical)
    (last : ∀ b ∈ range.last, b.Canonical) : range.resolve length ≠ .error .unwritable := by
  have lower : Text.isWritable (range.lower length) = true := by
    unfold Range.lower
    cases given : range.first with
    | none => exact Text.isWritable_of_le_memory (Nat.zero_le _)
    | some b => exact (first b given).writable_offset fits
  have upper : Text.isWritable (range.upper length) = true := by
    unfold Range.upper
    cases given : range.last with
    | none => exact Text.isWritable_length fits
    | some b => exact (last b given).writable_offset fits
  have positions : Told [range.lower length, range.upper length, length] := by
    simp only [Told, List.forall_mem_cons]
    exact ⟨lower, upper, Text.isWritable_length fits, List.forall_mem_nil _⟩
  have places : Told range.places := by
    intro k member
    obtain ⟨b, given, rfl⟩ := List.mem_map.mp member
    rcases List.mem_append.mp given with given | given
    · exact (first b (Option.mem_toList.mp given)).writable
    · exact (last b (Option.mem_toList.mp given)).writable
  intro failed
  simp only [resolve, RangeFault.told_of_told positions,
    RangeFault.told_of_told (told_append.mpr ⟨places, positions⟩)] at failed
  split at failed
  · split at failed <;> cases failed
  · cases failed

end Ranges

theorem Value.slice_ne_unwritable {range : Range} {v : Value} (fits : v.Fits)
    (first : ∀ b ∈ range.first, b.Canonical) (last : ∀ b ∈ range.last, b.Canonical) :
    v.slice range ≠ .error (.range .unwritable) := by
  intro failed
  unfold slice at failed
  split at failed
  · cases failed
  · rename_i length counted
    cases length_eq_ok counted
    split at failed
    · rename_i fault unresolved
      cases failed
      exact Range.resolve_ne_unwritable fits first last unresolved
    · split at failed <;> cases failed

theorem Value.index_ne_unwritable {bound : Bound} {v : Value} (fits : v.Fits)
    (canonical : bound.Canonical) : v.index bound ≠ .error (.range .unwritable) := by
  intro failed
  unfold index at failed
  split at failed
  · cases failed
  · rename_i length counted
    cases length_eq_ok counted
    split at failed
    · rename_i fault unresolved
      cases failed
      exact canonical.resolve_ne_unwritable fits unresolved
    · rename_i pos found
      have told : Told [bound.places, pos, pos + 1, v.size] := by
        have inside : 0 ≤ pos ∧ pos ≤ v.size := by
          simp only [Bound.resolve] at found
          split at found
          · rename_i within
            cases found
            exact within
          · cases found
        have few : v.size < Nat.pow 2 63 := fits
        simp only [Told, List.forall_mem_cons]
        exact ⟨canonical.writable, Text.isWritable_of_le_memory (by omega),
          Text.isWritable_of_le_memory (by omega), Text.isWritable_length fits, List.forall_mem_nil _⟩
      simp only [RangeFault.told_of_told told] at failed
      split at failed
      · rename_i t
        cases here : t[pos.toNat]? <;> rw [here] at failed <;> cases failed
      · rename_i items
        cases here : items[pos.toNat]? <;> rw [here] at failed <;> cases failed
      · cases failed

theorem Operator.not_escapes_of_apply {operator : Operator} {v : Value} {fault : Fault}
    (canonical : (Token.apply operator).Canonical) (fits : v.Fits) (h : operator.apply v = .error fault) :
    fault.escapes = false := by
  have foreseen := operator.apply_foreseen v
  rw [h] at foreseen
  generalize operator.onKind v.kind = kind at foreseen
  cases foreseen with
  | fault fault => rfl
  | hidden k unseen =>
      cases fault with
      | parse | kind => rfl
      | stream fault => rcases unseen with same | same <;> cases same
      | range fault =>
          -- Only a slice and an index have faults about ranges, and theirs can be told.
          have told : fault ≠ .unwritable := by
            rintro rfl
            obtain ⟨range, same⟩ | ⟨bound, same⟩ := unseen
            · cases same
              exact Value.slice_ne_unwritable fits canonical.1 canonical.2 h
            · cases same
              exact Value.index_ne_unwritable fits canonical h
          cases fault with
          | unwritable => exact absurd rfl told
          | outside | crossed => rfl

theorem Value.not_escapes_of_concat {left right : Value} {fault : Fault}
    (h : left.concat right = .error fault) : fault.escapes = false := by
  have foreseen := left.concat_foreseen right
  rw [h] at foreseen
  generalize left.kind.concat right.kind = kind at foreseen
  cases foreseen with
  | fault fault => rfl
  | hidden k unseen =>
      cases fault with
      | parse | kind => rfl
      | stream fault => rcases unseen with same | same <;> cases same
      | range fault => obtain ⟨_, same⟩ | ⟨_, same⟩ := unseen <;> cases same

/-! ## Runs -/

namespace Run

theorem not_escapes_of_exec {r : Run} {token : Token} {m : Machine} {fault : Fault}
    (tame : m.console.Tame r.interactive) (canonical : token.Canonical) (fits : ∀ v ∈ m.queue, v.Fits)
    (h : (r.exec token m).1 = .error fault) : fault.escapes = false := by
  have executed := r.exec_executes token m
  obtain ⟨queue, c⟩ := m
  rw [h] at executed
  generalize (r.exec token ⟨queue, c⟩).2.2.queue = after at executed
  cases executed with
  | short few => rfl
  | unread _ fault =>
      simp only [exec, readLine] at h
      split at h
      · cases h
      · rename_i failed
        cases h
        split at failed
        · cases failed
        · exact tame.of_readLine promptSpan_of_not_interactive (congrArg Prod.fst failed)
  | unwritten v rest fault =>
      simp only [exec] at h
      split at h
      · cases h
      · rename_i failed
        cases h
        exact tame.of_output promptSpan_of_not_interactive (congrArg Prod.fst failed)
  | unjoined rest failed => exact Value.not_escapes_of_concat failed
  | unapplied rest failed =>
      exact Operator.not_escapes_of_apply canonical (fits _ (List.mem_cons_self ..)) failed

/-- No value that the run has on its queue is too long for a memory. -/
def Fits (r : Run) (m : Machine) : Prop :=
  ∀ tokens s mₛ, Reaches r m tokens s mₛ → ∀ v ∈ mₛ.queue, v.Fits

theorem fits_of_script {r : Run} {m : Machine} {all : List (Token × Nat)} {ending : Option Fault}
    (running : r.result = none) (script : r.feed.script = some (all, ending))
    (h : ∀ k ≤ all.length, ∀ v ∈ (r.perform m (all.take k)).2.2.queue, v.Fits) : r.Fits m := by
  intro tokens s mₛ reached
  obtain ⟨late, rfl, -⟩ := reached.exists_late running script
  have performed : r.perform m tokens = (none, { s with feed := r.feed }, mₛ) := reached.perform r.feed
  have here := h tokens.length (by simp)
  rw [List.take_left, performed] at here
  exact here

theorem continues_resume {r r' : Run} {m m' : Machine} {found : Answer}
    (h : r.resume m = some (found, r', m')) : m.console.Continues m'.console :=
  resume_console .refl .trans Console.continues_debug Console.continues_readLine
    Console.continues_output h

/-- What stops a run on a tame console does not escape from it. -/
theorem not_escapes_of_stop {program : Text} {r s s' : Run} {m mₛ m' : Machine}
    {tokens : List (Token × Nat)} {found : Answer} {fault : Fault}
    (reachable : Feed.Reachable program r.feed) (tame : m.console.Tame r.interactive) (fits : r.Fits m)
    (reached : Reaches r m tokens s mₛ) (last : s.resume mₛ = some (found, s', m'))
    (stopped : found.stop = some (some fault)) : fault.escapes = false := by
  -- Along the run: its feed is one of the program, its console stays tame, and its values fit.
  induction reached with
  | refl r m =>
      obtain ⟨-, ⟨f', ending, next, rfl, -⟩ | ⟨f', token, n, outcome, args, next, done, rfl, -⟩⟩ :=
        resume_inversion last
      · cases stopped
        obtain ⟨text, rfl⟩ := Feed.parse_of_completed next
        rfl
      · cases outcome with
        | ok _ => cases stopped
        | error failure =>
            rw [answer_error_stop] at stopped
            cases stopped
            exact not_escapes_of_exec (r := { r with span := ⟨r.program, r.offset, n⟩ }) tame
              (canonical_of_yielded reachable next) (fits [] r m (.refl r m)) (congrArg Prod.fst done)
  | @step r r' s m m' mₛ token n tokens taken _ ih =>
      obtain ⟨-, -, next⟩ := feed_of_yielded taken
      obtain ⟨sameMode, -⟩ := resume_grows taken
      refine ih (reachable.resume next) ?_ ?_ last
      · rw [sameMode]
        exact tame.continues (continues_resume taken)
      · exact fun tokens s mₛ reached => fits _ s mₛ (.step taken reached)

theorem not_escapes_of_finish {program : Text} {inAdvance interactive : Bool} {args : Option (List Text)}
    {r r' : Run} {m m' : Machine} {fault : Fault}
    (begun : start program inAdvance args interactive = .ok r) (tame : m.console.Tame interactive)
    (fits : r.Fits m) (finished : r.finish m = some (some fault, r', m')) : fault.escapes = false := by
  obtain ⟨feed, made, rfl⟩ := start_eq begun
  obtain ⟨tokens, s, mₛ, found, reached, last, stopped⟩ := exists_reaches_of_finish finished
  exact not_escapes_of_stop (.start made) tame fits reached last stopped

end Run

namespace Machine

/-- No value that the run of a job has on its queue is too long for a memory. -/
def Fits (m : Machine) (job : Job) : Prop :=
  ∀ r, job.start = .ok r → r.Fits m

theorem runProgram_ne_raised {m : Machine} {job : Job} (tame : m.console.Tame false) (fits : m.Fits job)
    (fault : Fault) : (m.runProgram job.program job.inputs job.inAdvance).1 ≠ .raised fault := by
  cases begun : job.start with
  | error refusal =>
      rw [runProgram_of_refused begun]
      intro raised
      cases raised
  | ok r =>
      obtain ⟨ending, r', m', finished⟩ := Run.exists_finish begun m
      rw [runProgram_of_finish begun finished]
      intro raised
      obtain ⟨rfl, escapes⟩ := Verdict.ofFault_eq_raised_iff.mp raised
      cases escapes.symm.trans (Run.not_escapes_of_finish begun tame (fits r begun) finished)

end Machine

end QueueScript
