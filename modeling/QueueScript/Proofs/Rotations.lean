import Mathlib
import QueueScript.Proofs.Locations

/-! # Rotations add up

Rotating a queue by one integer and then by another is rotating it by their sum. The count is taken
modulo the length of the queue, so each rotation is one by a natural number
(`rotate_eq_of_emod`), and those add up by the laws of `List.rotate`. The empty queue has no such
remainder and stays as it is.

A program that only rotates leaves the queue rotated by the sum of its counts, and on the console
nothing but messages in the log (`perform_rotations`).
-/

namespace QueueScript

def toBack {α : Type} : List α → List α
  | [] => []
  | x :: rest => rest ++ [x]

section Rotate

variable {α : Type}

@[simp]
theorem rotate_nil (count : Int) : rotate count ([] : List α) = [] := by
  simp [rotate]

theorem rotate_eq_of_emod {queue : List α} {count : Int} {k : Nat}
    (h : (k : Int) % queue.length = count % queue.length) : rotate count queue = queue.rotate k := by
  have steps : (count % queue.length).toNat = k % queue.length := by
    rw [← h, ← Int.natCast_emod, Int.toNat_natCast]
  rw [rotate, steps, List.rotate_eq_drop_append_take_mod]

theorem exists_rotate_eq {queue : List α} (nonempty : queue ≠ []) (count : Int) :
    ∃ k : Nat, (k : Int) = count % queue.length ∧ rotate count queue = queue.rotate k := by
  have positive : (queue.length : Int) ≠ 0 := by simpa using nonempty
  obtain ⟨k, same⟩ := Int.eq_ofNat_of_zero_le (Int.emod_nonneg count positive)
  refine ⟨k, same.symm, rotate_eq_of_emod ?_⟩
  rw [← same, Int.emod_emod]

theorem rotate_rotate (queue : List α) (a b : Int) :
    rotate b (rotate a queue) = rotate (a + b) queue := by
  -- The remainder by the length of the empty queue is the count itself, which may be negative.
  by_cases empty : queue = []
  · simp [empty]
  · obtain ⟨k, first, rotated⟩ := exists_rotate_eq empty a
    have stillNonempty : queue.rotate k ≠ [] := by simpa using empty
    obtain ⟨l, second, rotated'⟩ := exists_rotate_eq stillNonempty b
    rw [List.length_rotate] at second
    have both : ((k + l : Nat) : Int) % queue.length = (a + b) % queue.length := by
      rw [Int.natCast_add, first, second, ← Int.add_emod]
    rw [rotated, rotated', List.rotate_rotate, rotate_eq_of_emod both]

theorem rotate_length_mul (queue : List α) (a : Int) : rotate (queue.length * a) queue = queue := by
  have whole : ((0 : Nat) : Int) % queue.length = (queue.length * a) % queue.length := by
    rw [Int.mul_emod_right, Int.natCast_zero, Int.zero_emod]
  rw [rotate_eq_of_emod whole, List.rotate_zero]

theorem rotate_zero (queue : List α) : rotate 0 queue = queue := by
  simpa using rotate_length_mul queue 0

theorem rotate_neg_rotate (queue : List α) (a : Int) : rotate (-a) (rotate a queue) = queue := by
  rw [rotate_rotate, Int.add_right_neg, rotate_zero]

theorem rotate_one (queue : List α) : rotate 1 queue = toBack queue := by
  have one : rotate 1 queue = queue.rotate 1 := rotate_eq_of_emod rfl
  rw [one]
  cases queue with
  | nil => rfl
  | cons x rest => rw [toBack, List.rotate_cons_succ, List.rotate_zero]

theorem rotate_natCast (queue : List α) (k : Nat) : rotate k queue = toBack^[k] queue := by
  induction k with
  | zero => exact rotate_zero queue
  | succ k ih => rw [Int.natCast_succ, ← rotate_rotate, ih, rotate_one, Function.iterate_succ_apply']

theorem rotate_perm (queue : List α) (count : Int) : (rotate count queue).Perm queue := by
  rw [rotate]
  exact List.perm_append_comm.trans (.of_eq (List.take_append_drop _ queue))

end Rotate

namespace Run

theorem exec_rotate (r : Run) (count : Int) (m : Machine) :
    ∃ m', r.exec (.rotate count) m = (.ok (), r, m') ∧ m'.queue = rotate count m.queue ∧
      m.console.Logs m'.console := by
  refine ⟨_, rfl, List.append_nil _, ?_⟩
  simp only [Machine.push, Machine.logQueue]
  exact m.console.logs_debug ..

theorem perform_rotations (r : Run) (m : Machine) (counts : List (Int × Nat)) :
    ∃ s m', r.perform m (counts.map fun (count, n) => (.rotate count, n)) = (none, s, m') ∧
      m'.queue = rotate (counts.map Prod.fst).sum m.queue ∧ m.console.Logs m'.console := by
  induction counts generalizing r m with
  | nil => exact ⟨r, m, rfl, (rotate_zero m.queue).symm, .refl m.console⟩
  | cons first counts ih =>
      obtain ⟨count, n⟩ := first
      obtain ⟨m₁, executed, queue, logs⟩ := exec_rotate { r with span := ⟨r.program, r.offset, n⟩ } count m
      obtain ⟨s, m', performed, queue', logs'⟩ :=
        ih { r with span := ⟨r.program, r.offset, n⟩, offset := r.offset + n } m₁
      refine ⟨s, m', ?_, ?_, logs.trans logs'⟩
      · simp only [List.map_cons, perform, executed]
        exact performed
      · rw [queue', queue, rotate_rotate, List.map_cons, List.sum_cons]

end Run

namespace Machine

theorem exists_run_of_tokenize {program : Text} {tokens : List (Token × Nat)}
    (read : tokenize program = .ok tokens) (m : Machine) (inputs : List Text) (inAdvance : Bool) :
    ∃ r : Run, ∀ s m', r.perform m tokens = (none, s, m') →
      m.runProgram program inputs inAdvance = (.success, m') := by
  obtain ⟨feed, made⟩ := Feed.exists_ofProgram read inAdvance
  have script : feed.script = some (tokens, none) :=
    (Feed.script_ofProgram made).trans (Feed.script_ofProgram_of_ok read)
  let r : Run :=
    { program, feed
      args := if inputs.isEmpty then none else some inputs.reverse
      interactive := false
      offset := 0
      span := ⟨program, 0, 0⟩
      result := none }
  have begun : (⟨program, inputs, inAdvance⟩ : Job).start = .ok r := Run.start_of_feed made _ false
  refine ⟨r, fun s m' performed => ?_⟩
  obtain ⟨f', finished⟩ := Run.finish_of_script script r rfl m
  rw [performed] at finished
  exact runProgram_of_finish begun finished

theorem runProgram_rotations {counts : List Int} (h : ∀ count ∈ counts, (Token.rotate count).Canonical)
    (m : Machine) (inputs : List Text) (inAdvance : Bool) :
    ∃ m', m.runProgram (counts.flatMap fun count => '@' :: Text.ofInt count) inputs inAdvance =
        (.success, m') ∧
      m'.queue = rotate counts.sum m.queue ∧ m.console.Logs m'.console := by
  have canonical : ∀ token ∈ counts.map Token.rotate, token.Canonical := by
    intro token member
    obtain ⟨count, inside, rfl⟩ := List.mem_map.mp member
    exact h count inside
  have read := tokenize_sources canonical
  rw [List.flatMap_map, List.map_map] at read
  obtain ⟨r, runs⟩ := exists_run_of_tokenize read m inputs inAdvance
  obtain ⟨s, m', performed, queue, logs⟩ :=
    r.perform_rotations m (counts.map fun count => (count, (Token.rotate count).source.length))
  rw [List.map_map] at performed queue
  refine ⟨m', runs s m' performed, ?_, logs⟩
  simpa [Function.comp_def] using queue

end Machine

/-- Rotations by integers add up, on every queue. Rotating by nothing, by any number of whole turns, or
    there and back leaves the queue as it is; a count that is not negative moves so many values from
    the front to the back one after the other; and no value is lost or doubled. So two rotations in a
    program can be replaced by one, as long as its count can be read. -/
theorem rotations_add_up :
    (∀ (α : Type) (queue : List α) (a b : Int),
      rotate b (rotate a queue) = rotate (a + b) queue ∧
      rotate 0 queue = queue ∧
      rotate (queue.length * a) queue = queue ∧
      rotate (-a) (rotate a queue) = queue ∧
      (0 ≤ a → rotate a queue = toBack^[a.toNat] queue) ∧
      (rotate a queue).Perm queue) ∧
    ∀ a b : Int, 1 ≤ a → 1 ≤ b → (Text.ofInt a).length ≤ 4300 → (Text.ofInt b).length ≤ 4300 →
      (Text.ofInt (a + b)).length ≤ 4300 →
      ∀ (m : Machine) (inputs : List Text) (mode mode' : Bool), ∃ m₁ m₂,
        m.runProgram ('@' :: Text.ofInt a ++ '@' :: Text.ofInt b) inputs mode = (.success, m₁) ∧
        m.runProgram ('@' :: Text.ofInt (a + b)) inputs mode' = (.success, m₂) ∧
        m₁.queue = rotate (a + b) m.queue ∧ m₂.queue = rotate (a + b) m.queue ∧
        m.console.Logs m₁.console ∧ m.console.Logs m₂.console := by
  constructor
  · intro α queue a b
    refine ⟨rotate_rotate queue a b, rotate_zero queue, rotate_length_mul queue a,
      rotate_neg_rotate queue a, ?_, rotate_perm queue a⟩
    intro positive
    obtain ⟨k, rfl⟩ := Int.eq_ofNat_of_zero_le positive
    exact rotate_natCast queue k
  · intro a b first second shortFirst shortSecond shortBoth m inputs mode mode'
    have two : ∀ count ∈ [a, b], (Token.rotate count).Canonical := by
      intro count member
      simp only [List.mem_cons, List.not_mem_nil, or_false] at member
      rcases member with rfl | rfl
      · exact ⟨first, shortFirst⟩
      · exact ⟨second, shortSecond⟩
    have one : ∀ count ∈ [a + b], (Token.rotate count).Canonical := by
      intro count member
      rw [List.mem_singleton.mp member]
      exact ⟨by omega, shortBoth⟩
    obtain ⟨m₁, ran, queue, logs⟩ := m.runProgram_rotations two inputs mode
    obtain ⟨m₂, ran', queue', logs'⟩ := m.runProgram_rotations one inputs mode'
    simp only [List.flatMap_cons, List.flatMap_nil, List.append_nil] at ran ran'
    simp only [List.sum_cons, List.sum_nil, add_zero] at queue queue'
    exact ⟨m₁, m₂, ran, ran', queue, queue', logs, logs'⟩

theorem rotations_add_up_nine_and_one :
    (Text.ofInt 9).length ≤ 4300 ∧ (Text.ofInt 1).length ≤ 4300 ∧ (Text.ofInt 10).length ≤ 4300 ∧
    (∀ m : Machine, ∃ m₁ m₂,
      m.runProgram "@9@1".toList [] false = (.success, m₁) ∧
      m.runProgram "@10".toList [] true = (.success, m₂) ∧
      m₁.queue = rotate 10 m.queue ∧ m₂.queue = rotate 10 m.queue ∧
      m.console.Logs m₁.console ∧ m.console.Logs m₂.console) ∧
    rotate 10 ['a', 'b', 'c'] = ['b', 'c', 'a'] := by
  refine ⟨by decide, by decide, by decide, fun m => ?_, by decide⟩
  exact rotations_add_up.2 9 1 (by decide) (by decide) (by decide) (by decide) (by decide) m [] false true

end QueueScript
