import QueueScript.Proofs.Failures

/-! # An output that takes no more

The room of a console bounds how many writes it takes. A run does not look at the room before a write
fails, so with less room it goes as it does with any room, up to the first write that does not fit, and
there it ends. Each step writes once or not at all: the room left is what the writes before have left
(`resume_withRoom`), and a run is cut at the write that exceeds it (`Cut`).
-/

namespace QueueScript

/-- The fault of a write that there is no room for. -/
def writeFault : Fault :=
  .stream (.device "write failed".toList)

namespace Console

/-- The console with an output that takes so many writes, and then fails as a device does. -/
def withRoom (c : Console) (room : Option Nat) : Console :=
  { c with room := room, refusal := .device "write failed".toList }

end Console

namespace Machine

def withRoom (m : Machine) (room : Option Nat) : Machine :=
  { m with console := m.console.withRoom room }

/-- A machine with any room has become the second one, and this has been written. -/
structure Writes (m m' : Machine) (written : List Text) : Prop where
  roomy : m'.console.room = none
  writes : m'.console.writes = m.console.writes ++ written

theorem Writes.trans {m₁ m₂ m₃ : Machine} {early late : List Text} (h : m₁.Writes m₂ early)
    (h' : m₂.Writes m₃ late) : m₁.Writes m₃ (early ++ late) :=
  ⟨h'.roomy, by rw [h'.writes, h.writes, List.append_assoc]⟩

end Machine

namespace Run

/-- A run with room for the first `k` of its writes. It goes as it does with any room up to the `>` that
    writes the next one, and fails there, with the value gone. -/
structure Cut (r : Run) (m : Machine) (written : List Text) (k : Nat) (early : List (Token × Nat))
    (n : Nat) (s s' : Run) (mₛ m₁ : Machine) : Prop where
  reached : Reaches r m early s mₛ
  next : s.resume mₛ = some (.yielded .output n, s', m₁)
  popped : ∃ v, mₛ.queue = v :: m₁.queue
  before : m.Writes mₛ (written.take k)
  after : m.Writes m₁ (written.take (k + 1))
  limited : Reaches r (m.withRoom (some k)) early s (mₛ.withRoom (some 0))
  failed : s.resume (mₛ.withRoom (some 0)) =
    some (.completed (some writeFault), { s' with result := some (some writeFault) },
      ⟨m₁.queue, mₛ.console.withRoom (some 0)⟩)

theorem Cut.later {r r' : Run} {m m' : Machine} {token : Token} {length k : Nat}
    {front written : List Text} {early : List (Token × Nat)} {n : Nat} {s s' : Run} {mₛ m₁ : Machine}
    (taken : r.resume m = some (.yielded token length, r', m')) (writes : m.Writes m' front)
    (limited : r.resume (m.withRoom (some k)) =
      some (.yielded token length, r', m'.withRoom (some (k - front.length))))
    (fits : front.length ≤ k) (h : Cut r' m' written (k - front.length) early n s s' mₛ m₁) :
    Cut r m (front ++ written) k ((token, length) :: early) n s s' mₛ m₁ := by
  have before : (front ++ written).take k = front ++ written.take (k - front.length) := by
    rw [List.take_append, List.take_of_length_le fits]
  have after : (front ++ written).take (k + 1) = front ++ written.take (k - front.length + 1) := by
    rw [List.take_append, List.take_of_length_le (Nat.le_succ_of_le fits), Nat.sub_add_comm fits]
  exact {
    reached := .step taken h.reached
    next := h.next
    popped := h.popped
    before := before ▸ writes.trans h.before
    after := after ▸ writes.trans h.after
    limited := .step limited h.limited
    failed := h.failed }

end Run

namespace Machine

end Machine

end QueueScript
