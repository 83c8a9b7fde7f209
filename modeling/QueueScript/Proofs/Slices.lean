import QueueScript.Operator

/-! # Slices and indices

A slice is cut out of a sequence without clamping: its bounds lie in the sequence in this order, or it
fails. `Value.Stretch` says what is cut out, by what stands before and after it, and `Value.Sliced` when
this or one of the faults is due; slicing gives just that (`Value.slice_eq_iff`), and the laws of
slices are laws of stretches. An index gives the stretch of length one at its position, taken out of the
list if there is one.

A fault has the numbers of the bounds in its message. If one of them has too many digits to be written,
there is no message and another fault stands in its place.
-/

namespace QueueScript

/-- The position of a bound in a sequence of `n` items, and that of a bound that is left out. -/
def placed (n absent : Int) : Option Bound → Int
  | none => absent
  | some (.front k) => k
  | some (.back k) => n - k

theorem placed_some (n : Int) (b : Bound) (absent : Int) : placed n absent (some b) = b.offset n := by
  cases b <;> rfl

/-- A position in a sequence of `n` items or at its end. -/
def Within (n pos : Int) : Prop :=
  0 ≤ pos ∧ pos ≤ n

instance (n pos : Int) : Decidable (Within n pos) :=
  inferInstanceAs (Decidable (0 ≤ pos ∧ pos ≤ n))

/-- The items of a list from one position up to another. -/
def Between {α : Type} (lower upper : Int) (xs inside : List α) : Prop :=
  ∃ before after, xs = before ++ inside ++ after ∧ before.length = lower ∧
    (before ++ inside).length = upper

/-- The second value is of the kind of the first, and holds its characters or its elements from one
    position up to another. -/
inductive Value.Stretch (lower upper : Int) : Value → Value → Prop where
  | string {t inside : Text} : Between lower upper t inside →
      Stretch lower upper (.string t) (.string inside)
  | list {items inside : List Text} : Between lower upper items inside →
      Stretch lower upper (.list items) (.list inside)

/-- No number has too many digits for a message. -/
def Told (numbers : List Int) : Prop :=
  ∀ k ∈ numbers, Text.isWritable k = true

instance (numbers : List Int) : Decidable (Told numbers) :=
  decidable_of_decidable_of_iff (p := numbers.all Text.isWritable = true) List.all_eq_true

theorem told_append {front back : List Int} : Told (front ++ back) ↔ Told front ∧ Told back :=
  List.forall_mem_append

theorem Text.length_ofNat_le_iff {n k : Nat} (h : 0 < k) : (ofNat n).length ≤ k ↔ n < Nat.pow 10 k :=
  Nat.length_toDigits_le_iff (by decide) h

theorem Text.isWritable_iff {n : Int} : isWritable n = true ↔ n.natAbs < Nat.pow 10 maxWritten := by
  rw [isWritable, decide_eq_true_iff, length_ofNat_le_iff (by decide)]

namespace RangeFault

theorem told_of_told {numbers : List Int} (h : Told numbers) (fault : RangeFault) :
    told numbers fault = fault :=
  if_pos (List.all_eq_true.mpr h)

theorem told_of_not_told {numbers : List Int} (h : ¬ Told numbers) (fault : RangeFault) :
    told numbers fault = .unwritable :=
  if_neg fun all => h (List.all_eq_true.mp all)

theorem told_eq (numbers : List Int) (fault : RangeFault) :
    told numbers fault = if Told numbers then fault else .unwritable := by
  by_cases h : Told numbers
  · rw [told_of_told h, if_pos h]
  · rw [told_of_not_told h, if_neg h]

end RangeFault

section Between

variable {α : Type} {lower upper : Int} {xs ys : List α}

theorem between_cut (start : 0 ≤ lower) (order : lower ≤ upper) (stop : upper ≤ xs.length) :
    Between lower upper xs (Value.cut lower upper xs) := by
  -- A cut takes up to its end first, and what it then drops is what stands before it.
  have front : xs.take lower.toNat ++ Value.cut lower upper xs = xs.take upper.toNat := by
    have less : min lower.toNat upper.toNat = lower.toNat := by omega
    rw [Value.cut, ← less, ← List.take_take, less, List.take_append_drop]
  refine ⟨xs.take lower.toNat, xs.drop upper.toNat, ?_, ?_, ?_⟩
  · rw [front, List.take_append_drop]
  · rw [List.length_take]
    omega
  · rw [front, List.length_take]
    omega

theorem Between.bounds (h : Between lower upper xs ys) :
    0 ≤ lower ∧ lower ≤ upper ∧ upper ≤ xs.length ∧ ys.length = upper - lower := by
  obtain ⟨before, after, rfl, rfl, rfl⟩ := h
  simp only [List.length_append]
  omega

theorem Between.unique {zs : List α} (h : Between lower upper xs ys) (h' : Between lower upper xs zs) :
    ys = zs := by
  obtain ⟨before, after, rfl, start, stop⟩ := h
  obtain ⟨before', after', same, start', stop'⟩ := h'
  obtain ⟨front, -⟩ := List.append_inj same (by omega)
  exact (List.append_inj front (by omega)).2

theorem Between.trans {start stop : Int} {zs : List α} (h : Between lower upper xs ys)
    (h' : Between start stop ys zs) : Between (lower + start) (lower + stop) xs zs := by
  obtain ⟨before, after, rfl, rfl, -⟩ := h
  obtain ⟨before', after', rfl, rfl, rfl⟩ := h'
  refine ⟨before ++ before', after' ++ after, by simp, ?_, ?_⟩
  · simp
  · simp only [List.length_append]
    omega

theorem Between.append {middle : Int} {zs : List α} (h : Between lower middle xs ys)
    (h' : Between middle upper xs zs) : Between lower upper xs (ys ++ zs) := by
  obtain ⟨before, after, rfl, rfl, rfl⟩ := h
  obtain ⟨before', after', same, start, rfl⟩ := h'
  rw [List.append_assoc before'] at same
  obtain ⟨rfl, rfl⟩ := List.append_inj same (by omega)
  exact ⟨before, after', by simp, rfl, by simp⟩

theorem between_all (xs : List α) : Between 0 xs.length xs xs :=
  ⟨[], [], by simp, rfl, rfl⟩

theorem exists_between_single {pos : Int} (start : 0 ≤ pos) (stop : pos < xs.length) :
    ∃ x, xs[pos.toNat]? = some x ∧ Between pos (pos + 1) xs [x] := by
  have inside : pos.toNat < xs.length := by omega
  refine ⟨_, List.getElem?_eq_getElem inside, xs.take pos.toNat, xs.drop (pos.toNat + 1), ?_, ?_, ?_⟩
  · rw [List.append_assoc, List.singleton_append, List.getElem_cons_drop, List.take_append_drop]
  · rw [List.length_take]
    omega
  · rw [List.length_append, List.length_take, List.length_singleton]
    omega

end Between

namespace Range

theorem lower_eq_placed (r : Range) (n : Int) : r.lower n = placed n 0 r.first := by
  obtain ⟨_ | _ | _, last⟩ := r <;> rfl

theorem upper_eq_placed (r : Range) (n : Int) : r.upper n = placed n n r.last := by
  obtain ⟨first, _ | _ | _⟩ := r <;> rfl

section Resolve

variable {r : Range} {n : Int}

theorem resolve_of_outside
    (h : ¬ (Within n (placed n 0 r.first) ∧ Within n (placed n n r.last))) :
    r.resolve n = .error (.told (r.places ++ [placed n 0 r.first, placed n n r.last, n])
      (.outside r.text (placed n 0 r.first, placed n n r.last) (0, n))) := by
  rw [← lower_eq_placed, ← upper_eq_placed] at h ⊢
  exact if_neg h

theorem resolve_of_crossed
    (h : Within n (placed n 0 r.first) ∧ Within n (placed n n r.last))
    (order : placed n n r.last < placed n 0 r.first) :
    r.resolve n = .error (.told [placed n 0 r.first, placed n n r.last, n]
      (.crossed (placed n 0 r.first, placed n n r.last) (0, n))) := by
  rw [← lower_eq_placed, ← upper_eq_placed] at h order ⊢
  exact (if_pos h).trans (if_neg (Int.not_le.mpr order))

theorem resolve_of_order
    (h : Within n (placed n 0 r.first) ∧ Within n (placed n n r.last))
    (order : placed n 0 r.first ≤ placed n n r.last) :
    r.resolve n = .ok (placed n 0 r.first, placed n n r.last) := by
  rw [← lower_eq_placed, ← upper_eq_placed] at h order ⊢
  exact (if_pos h).trans (if_pos order)

end Resolve

end Range

namespace Value

section Stretch

variable {lower upper : Int} {v w : Value}

theorem Stretch.within {n : Nat} (h : v.Stretch lower upper w) (sized : v.length = .ok n) :
    (Within n lower ∧ Within n upper) ∧ lower ≤ upper := by
  cases h with
  | string between | list between =>
      cases sized
      obtain ⟨start, order, stop, -⟩ := between.bounds
      exact ⟨⟨⟨start, Int.le_trans order stop⟩, Int.le_trans start order, stop⟩, order⟩

theorem Stretch.length_eq (h : v.Stretch lower upper w) :
    ∃ k : Nat, w.length = .ok k ∧ k = upper - lower := by
  cases h with
  | string between | list between => exact ⟨_, rfl, between.bounds.2.2.2⟩

theorem Stretch.unique {u : Value} (h : v.Stretch lower upper w) (h' : v.Stretch lower upper u) :
    w = u := by
  cases h with
  | string between =>
      cases h' with
      | string between' => rw [between.unique between']
  | list between =>
      cases h' with
      | list between' => rw [between.unique between']

theorem Stretch.trans {start stop : Int} {u : Value} (h : v.Stretch lower upper w)
    (h' : w.Stretch start stop u) : v.Stretch (lower + start) (lower + stop) u := by
  cases h with
  | string between =>
      cases h' with
      | string between' => exact .string (between.trans between')
  | list between =>
      cases h' with
      | list between' => exact .list (between.trans between')

theorem Stretch.concat {middle : Int} {n : Nat} {u : Value} (h : v.Stretch 0 middle w)
    (sized : v.length = .ok n) (h' : v.Stretch middle n u) : w.concat u = .ok v := by
  cases h with
  | string between =>
      cases sized
      cases h' with
      | string between' => rw [Value.concat, (between.append between').unique (between_all _)]
  | list between =>
      cases sized
      cases h' with
      | list between' => rw [Value.concat, (between.append between').unique (between_all _)]

end Stretch

/-- What a sequence of `n` items gives between two positions: one of two faults, if it can be told, or
    the stretch. -/
inductive Sliced (v : Value) (n lower upper : Int) (r : Range) : Except Fault Value → Prop where
  | outside : ¬ (Within n lower ∧ Within n upper) → Told (r.places ++ [lower, upper, n]) →
      Sliced v n lower upper r (.error (.range (.outside r.text (lower, upper) (0, n))))
  | outsideUntold : ¬ (Within n lower ∧ Within n upper) → ¬ Told (r.places ++ [lower, upper, n]) →
      Sliced v n lower upper r (.error (.range .unwritable))
  | crossed : Within n lower ∧ Within n upper → upper < lower → Told [lower, upper, n] →
      Sliced v n lower upper r (.error (.range (.crossed (lower, upper) (0, n))))
  | crossedUntold : Within n lower ∧ Within n upper → upper < lower → ¬ Told [lower, upper, n] →
      Sliced v n lower upper r (.error (.range .unwritable))
  | cut {w : Value} : v.Stretch lower upper w → Sliced v n lower upper r (.ok w)

section Slice

variable {v : Value} {n : Nat} (sized : v.length = .ok n)

include sized

theorem slice_of_resolve {r : Range} {fault : RangeFault} (h : r.resolve n = .error fault) :
    v.slice r = .error (.range fault) := by
  simp only [slice, sized, h]

theorem exists_slice (r : Range) {lower upper : Int} (first : placed n 0 r.first = lower)
    (last : placed n n r.last = upper) (start : 0 ≤ lower) (order : lower ≤ upper) (stop : upper ≤ n) :
    ∃ w, v.slice r = .ok w ∧ v.Stretch lower upper w := by
  subst first last
  have resolved := Range.resolve_of_order (r := r) (n := n)
    ⟨⟨start, Int.le_trans order stop⟩, Int.le_trans start order, stop⟩ order
  simp only [slice, sized, resolved]
  cases v with
  | string t =>
      cases sized
      exact ⟨_, rfl, .string (between_cut start order stop)⟩
  | list items =>
      cases sized
      exact ⟨_, rfl, .list (between_cut start order stop)⟩
  | bool truth => cases sized

theorem sliced_slice (r : Range) :
    v.Sliced n (placed n 0 r.first) (placed n n r.last) r (v.slice r) := by
  by_cases within : Within n (placed n 0 r.first) ∧ Within n (placed n n r.last)
  · by_cases order : placed n 0 r.first ≤ placed n n r.last
    · obtain ⟨w, cut, stretch⟩ := exists_slice sized r rfl rfl within.1.1 order within.2.2
      rw [cut]
      exact .cut stretch
    · have crossed := Int.not_le.mp order
      rw [slice_of_resolve sized (Range.resolve_of_crossed within crossed)]
      by_cases told : Told [placed n 0 r.first, placed n n r.last, n]
      · rw [RangeFault.told_of_told told]
        exact .crossed within crossed told
      · rw [RangeFault.told_of_not_told told]
        exact .crossedUntold within crossed told
  · rw [slice_of_resolve sized (Range.resolve_of_outside within)]
    by_cases told : Told (r.places ++ [placed n 0 r.first, placed n n r.last, n])
    · rw [RangeFault.told_of_told told]
      exact .outside within told
    · rw [RangeFault.told_of_not_told told]
      exact .outsideUntold within told

/-- Slicing gives what the positions of the bounds say, and nothing else. -/
theorem slice_eq_iff (r : Range) (outcome : Except Fault Value) :
    v.slice r = outcome ↔
      v.Sliced n (placed n 0 r.first) (placed n n r.last) r outcome := by
  constructor
  · rintro rfl
    exact sliced_slice sized r
  · intro given
    cases given with
    | outside outside told =>
        rw [slice_of_resolve sized (Range.resolve_of_outside outside), RangeFault.told_of_told told]
    | outsideUntold outside untold =>
        rw [slice_of_resolve sized (Range.resolve_of_outside outside),
          RangeFault.told_of_not_told untold]
    | crossed within order told =>
        rw [slice_of_resolve sized (Range.resolve_of_crossed within order),
          RangeFault.told_of_told told]
    | crossedUntold within order untold =>
        rw [slice_of_resolve sized (Range.resolve_of_crossed within order),
          RangeFault.told_of_not_told untold]
    | cut stretch =>
        obtain ⟨within, order⟩ := stretch.within sized
        obtain ⟨w, cut, stretch'⟩ := exists_slice sized r rfl rfl within.1.1 order within.2.2
        rw [cut, stretch.unique stretch']

end Slice

/-- The same value, or the same fault but for how the range was written. -/
inductive AlikeSlices : Except Fault Value → Except Fault Value → Prop where
  | value (w : Value) : AlikeSlices (.ok w) (.ok w)
  | outside (given given' : Text) (resolved valid : Int × Int) :
      AlikeSlices (.error (.range (.outside given resolved valid)))
        (.error (.range (.outside given' resolved valid)))
  | crossed (resolved valid : Int × Int) :
      AlikeSlices (.error (.range (.crossed resolved valid)))
        (.error (.range (.crossed resolved valid)))
  | untold : AlikeSlices (.error (.range .unwritable)) (.error (.range .unwritable))

/-- The second bound is the first one, or the first one counted from the front and not from the
    back. -/
inductive Recounted (n : Int) : Option Bound → Option Bound → Prop where
  | same (bound : Option Bound) : Recounted n bound bound
  | fromFront (k : Int) : Recounted n (some (.back k)) (some (.front (n - k)))

theorem Recounted.placed_eq {n : Int} {bound bound' : Option Bound} (h : Recounted n bound bound')
    (absent : Int) : placed n absent bound' = placed n absent bound := by
  cases h <;> rfl

theorem slice_recounted {v : Value} {n : Nat} (sized : v.length = .ok n) {r r' : Range}
    (first : Recounted n r.first r'.first) (last : Recounted n r.last r'.last)
    (told : Told r.places ↔ Told r'.places) : AlikeSlices (v.slice r) (v.slice r') := by
  have before := sliced_slice sized r
  have after := slice_eq_iff sized r'
  rw [first.placed_eq, last.placed_eq] at after
  generalize v.slice r = outcome at before
  cases before with
  | outside outside given =>
      rw [told_append, told, ← told_append] at given
      rw [(after _).mpr (.outside outside given)]
      exact .outside _ _ _ _
  | outsideUntold outside untold =>
      rw [told_append, told, ← told_append] at untold
      rw [(after _).mpr (.outsideUntold outside untold)]
      exact .untold
  | crossed within order given =>
      rw [(after _).mpr (.crossed within order given)]
      exact .crossed _ _
  | crossedUntold within order untold =>
      rw [(after _).mpr (.crossedUntold within order untold)]
      exact .untold
  | cut stretch =>
      rw [(after _).mpr (.cut stretch)]
      exact .value _

/-- Slices are exact. Slicing fails if one of the positions that the bounds denote is not in the
    sequence, fails otherwise if they are in the wrong order, and else gives what stands between them. It
    fails with a range fault that names the positions, unless a number in it is too long to be written.
    So a sequence is what it has up to a bound and what it has from there on, a slice of a slice is a
    slice, and it does not matter from which end a bound is counted, as long as both forms of it can be
    written or neither. -/
theorem slices_are_exact (v : Value) (n : Nat) (sized : v.length = .ok n) :
    (∀ r : Range,
      let lower := placed n 0 r.first
      let upper := placed n n r.last
      (v.slice r = .error (.range (.outside r.text (lower, upper) (0, n))) ↔
        ¬ (Within n lower ∧ Within n upper) ∧ Told (r.places ++ [lower, upper, (n : Int)])) ∧
      (v.slice r = .error (.range (.crossed (lower, upper) (0, n))) ↔
        (Within n lower ∧ Within n upper) ∧ upper < lower ∧ Told [lower, upper, (n : Int)]) ∧
      (v.slice r = .error (.range .unwritable) ↔
        ¬ (Within n lower ∧ Within n upper) ∧ ¬ Told (r.places ++ [lower, upper, (n : Int)]) ∨
        (Within n lower ∧ Within n upper) ∧ upper < lower ∧ ¬ Told [lower, upper, (n : Int)]) ∧
      ((Within n lower ∧ Within n upper) ∧ lower ≤ upper →
        ∃ w, v.slice r = .ok w ∧ v.Stretch lower upper w)) ∧
    (∀ b : Bound, Within n (b.offset n) →
      ∃ front back, v.slice ⟨none, some b⟩ = .ok front ∧ v.slice ⟨some b, none⟩ = .ok back ∧
        front.concat back = .ok v) ∧
    (∀ a b c d : Int, 0 ≤ a → a ≤ b → b ≤ n → 0 ≤ c → c ≤ d → d ≤ b - a →
      ∃ w u, v.slice ⟨some (.front a), some (.front b)⟩ = .ok w ∧
        w.slice ⟨some (.front c), some (.front d)⟩ = .ok u ∧
        v.slice ⟨some (.front (a + c)), some (.front (a + d))⟩ = .ok u) ∧
    ∀ r r' : Range, Recounted n r.first r'.first → Recounted n r.last r'.last →
      (r'.lower n, r'.upper n) = (r.lower n, r.upper n) ∧
      (∀ w, v.slice r = .ok w ↔ v.slice r' = .ok w) ∧
      ((Told r.places ↔ Told r'.places) → AlikeSlices (v.slice r) (v.slice r')) := by
  refine ⟨?_, ?_, ?_, ?_⟩
  · intro r lower upper
    refine ⟨?_, ?_, ?_, ?_⟩
    · rw [slice_eq_iff sized]
      refine ⟨fun given => ?_, fun ⟨outside, told⟩ => .outside outside told⟩
      cases given with
      | outside outside told => exact ⟨outside, told⟩
    · rw [slice_eq_iff sized]
      refine ⟨fun given => ?_, fun ⟨within, order, told⟩ => .crossed within order told⟩
      cases given with
      | crossed within order told => exact ⟨within, order, told⟩
    · rw [slice_eq_iff sized]
      refine ⟨fun given => ?_, ?_⟩
      · cases given with
        | outsideUntold outside untold => exact .inl ⟨outside, untold⟩
        | crossedUntold within order untold => exact .inr ⟨within, order, untold⟩
      · rintro (⟨outside, untold⟩ | ⟨within, order, untold⟩)
        · exact .outsideUntold outside untold
        · exact .crossedUntold within order untold
    · rintro ⟨⟨⟨start, -⟩, -, stop⟩, order⟩
      exact exists_slice sized r rfl rfl start order stop
  · intro b ⟨start, stop⟩
    have place := placed_some n b
    obtain ⟨front, cutFront, before⟩ :=
      exists_slice sized ⟨none, some b⟩ rfl (place n) (Int.le_refl 0) start stop
    obtain ⟨back, cutBack, behind⟩ :=
      exists_slice sized ⟨some b, none⟩ (place 0) rfl start stop (Int.le_refl n)
    exact ⟨front, back, cutFront, cutBack, before.concat sized behind⟩
  · intro a b c d startA orderA stopB startC orderC stopD
    obtain ⟨w, cut, stretch⟩ :=
      exists_slice sized ⟨some (.front a), some (.front b)⟩ rfl rfl startA orderA stopB
    obtain ⟨k, sized', long⟩ := stretch.length_eq
    obtain ⟨u, cut', stretch'⟩ :=
      exists_slice sized' ⟨some (.front c), some (.front d)⟩ rfl rfl startC orderC (long ▸ stopD)
    exact ⟨w, u, cut, cut', (slice_eq_iff sized _ _).mpr (.cut (stretch.trans stretch'))⟩
  · intro r r' first last
    refine ⟨?_, fun w => ?_, slice_recounted sized first last⟩
    · rw [r.lower_eq_placed, r.upper_eq_placed, r'.lower_eq_placed, r'.upper_eq_placed,
        first.placed_eq, last.placed_eq]
    · -- Success does not depend on whether a fault could be told, so no more is asked of the bounds.
      rw [slice_eq_iff sized, slice_eq_iff sized, first.placed_eq, last.placed_eq]
      refine ⟨fun given => ?_, fun given => ?_⟩
      all_goals
        cases given with
        | cut stretch => exact .cut stretch

theorem slices_are_exact_at_both_ends :
    let v : Value := .list [['a'], ['b'], ['c']]
    v.length = .ok 3 ∧
    v.slice ⟨some (.back 4), some (.back 0)⟩ =
      .error (.range (.outside "|-4.-0|".toList (-1, 3) (0, 3))) ∧
    v.slice ⟨some (.back 0), some (.front 2)⟩ = .error (.range (.crossed (3, 2) (0, 3))) ∧
    (∃ w, v.slice ⟨some (.back 2), some (.back 0)⟩ = .ok w ∧ v.Stretch 1 3 w) ∧
    (∃ front back, v.slice ⟨none, some (.back 0)⟩ = .ok front ∧
      v.slice ⟨some (.back 0), none⟩ = .ok back ∧ front.concat back = .ok v) ∧
    (∃ w u, v.slice ⟨some (.front 1), some (.front 3)⟩ = .ok w ∧
      w.slice ⟨some (.front 1), some (.front 2)⟩ = .ok u ∧
      v.slice ⟨some (.front 2), some (.front 3)⟩ = .ok u) ∧
    AlikeSlices (v.slice ⟨some (.back 4), none⟩) (v.slice ⟨some (.front (-1)), none⟩) := by
  intro v
  have sized : v.length = .ok 3 := rfl
  obtain ⟨outcome, halves, nested, recounted⟩ := slices_are_exact v 3 sized
  refine ⟨sized, ?_, ?_, ?_, ?_, ?_, ?_⟩
  · exact (outcome ⟨some (.back 4), some (.back 0)⟩).1.mpr (by decide)
  · exact (outcome ⟨some (.back 0), some (.front 2)⟩).2.1.mpr (by decide)
  · exact (outcome ⟨some (.back 2), some (.back 0)⟩).2.2.2 (by decide)
  · exact halves (.back 0) (by decide)
  · exact nested 1 3 1 2 (by decide) (by decide) (by decide) (by decide) (by decide) (by decide)
  · exact (recounted ⟨some (.back 4), none⟩ _ (.fromFront 4) (.same none)).2.2 (by decide)

/-- A bound so far behind the end that its position has a digit too many. The position is outside, but
    no fault says so. -/
theorem slice_of_long_position_is_not_reported :
    let v : Value := .string "abc".toList
    let r : Range := ⟨some (.back (1 - Nat.pow 10 Text.maxWritten)), none⟩
    v.length = .ok 3 ∧ ¬ Within 3 (placed 3 0 r.first) ∧ v.slice r = .error (.range .unwritable) := by
  intro v r
  have sized : v.length = .ok 3 := rfl
  have position : placed 3 0 r.first = 2 + Nat.pow 10 Text.maxWritten := by
    simp only [r, placed]
    omega
  have outside : ¬ Within 3 (placed 3 0 r.first) := by
    rw [position]
    intro ⟨_, before⟩
    have : 1 < Nat.pow 10 Text.maxWritten := by decide +kernel
    omega
  refine ⟨sized, outside, (slice_eq_iff sized r _).mpr (.outsideUntold (fun within => outside within.1) ?_)⟩
  intro told
  have short := told (placed 3 0 r.first) (by simp)
  rw [Text.isWritable_iff, position] at short
  omega

/-! ## Indices -/

section Index

variable {v : Value} {n : Nat} (sized : v.length = .ok n) {b : Bound}

include sized

theorem index_of_not_within (h : ¬ Within n (b.offset n)) :
    v.index b = .error (.range (if Told [b.places, b.offset n, (n : Int)] then
      .outside b.text (b.offset n, b.offset n) (0, n) else .unwritable)) := by
  rw [← RangeFault.told_eq]
  have resolved : b.resolve n = .error (.told [b.places, b.offset n, n]
      (.outside b.text (b.offset n, b.offset n) (0, n))) := if_neg h
  simp only [index, sized, resolved]

theorem index_of_end (h : b.offset n = n) :
    v.index b = .error (.range (if Told [b.places, (n : Int), n + 1] then
      .outside b.text (n, n + 1) (0, n) else .unwritable)) := by
  have same : Told [b.places, (n : Int), n + 1] ↔ Told [b.places, (n : Int), n + 1, (n : Int)] := by
    simp only [Told, List.forall_mem_cons]
    grind
  have resolved : b.resolve n = .ok n := by
    rw [Bound.resolve, h]
    exact if_pos ⟨Int.natCast_nonneg n, Int.le_refl n⟩
  simp only [same, ← RangeFault.told_eq, index, sized, resolved]
  cases v with
  | string t | list items =>
      cases sized
      simp
  | bool truth => cases sized

theorem index_of_inside (start : 0 ≤ b.offset n) (stop : b.offset n < n) :
    ∃ u w, v.Stretch (b.offset n) (b.offset n + 1) u ∧ v.index b = .ok w ∧
      (v.kind = .string → w = u) ∧ (v.kind = .list → u.join = .ok w) := by
  have resolved : b.resolve n = .ok (b.offset n) := if_pos ⟨start, Int.le_of_lt stop⟩
  simp only [index, sized, resolved]
  cases v with
  | string t =>
      cases sized
      obtain ⟨c, found, between⟩ := exists_between_single start stop
      simp only [found]
      refine ⟨_, _, .string between, rfl, fun _ => rfl, ?_⟩
      intro impossible
      cases impossible
  | list items =>
      cases sized
      obtain ⟨item, found, between⟩ := exists_between_single start stop
      simp only [found]
      refine ⟨_, _, .list between, rfl, ?_, fun _ => ?_⟩
      · intro impossible
        cases impossible
      · rw [join, asList]
        simp only [List.flatten_singleton]
  | bool truth => cases sized

end Index

end Value

/-- The range of the one item at a position. -/
def Range.single (pos : Int) : Range :=
  ⟨some (.front pos), some (.front (pos + 1))⟩

theorem Value.single_of_not_inside {v : Value} {n : Nat} (sized : v.length = .ok n) {p : Int}
    (h : ¬ (0 ≤ p ∧ p < n)) :
    v.slice (.single p) = .error (.range (if Told [p, p + 1, (n : Int)] then
      .outside (Range.single p).text (p, p + 1) (0, n) else .unwritable)) := by
  have outside : ¬ (Within n p ∧ Within n (p + 1)) := fun within =>
    h ⟨within.1.1, Int.lt_of_add_one_le within.2.2⟩
  have same : Told [p, p + 1, (n : Int)] ↔ Told ((Range.single p).places ++ [p, p + 1, (n : Int)]) := by
    simp only [Range.single, Range.places, Option.toList, List.cons_append, List.nil_append, List.map,
      Bound.places, Told, List.forall_mem_cons]
    grind
  have resolved := Range.resolve_of_outside (r := .single p) outside
  rw [slice_of_resolve sized resolved]
  simp only [same, RangeFault.told_eq]
  rfl

/-- An index gives the slice of length one at its position, taken out of its list if there is one. It
    gives nothing where there is no such slice, and both then fail with a bound that is not in the
    sequence, never with bounds in the wrong order; but a fault with a number that is too long cannot be
    told. A boolean has neither. -/
theorem Value.indices_are_single_slices (bound : Bound) :
    (∀ (v : Value) (n : Nat), v.length = .ok n →
      let p := bound.offset n
      ((∃ w, v.index bound = .ok w) ↔ 0 ≤ p ∧ p < n) ∧
      ((∃ w, v.slice (.single p) = .ok w) ↔ 0 ≤ p ∧ p < n) ∧
      (∀ w, v.index bound = .ok w → ∃ u, v.slice (.single p) = .ok u ∧
        (v.kind = .string → w = u) ∧ (v.kind = .list → u.join = .ok w)) ∧
      (¬ Within n p → v.index bound = .error (.range
        (if Told [bound.places, p, (n : Int)] then .outside bound.text (p, p) (0, n)
          else .unwritable))) ∧
      (p = n → v.index bound = .error (.range
        (if Told [bound.places, (n : Int), n + 1] then .outside bound.text (n, n + 1) (0, n)
          else .unwritable))) ∧
      (¬ (0 ≤ p ∧ p < n) → v.slice (.single p) = .error (.range
        (if Told [p, p + 1, (n : Int)] then .outside (Range.single p).text (p, p + 1) (0, n)
          else .unwritable)))) ∧
    ∀ (truth : Bool) (range : Range),
      (Value.bool truth).index bound = .error (.kind (.unexpected [.string, .list] .bool)) ∧
      (Value.bool truth).slice range = .error (.kind (.unexpected [.string, .list] .bool)) := by
  refine ⟨?_, fun truth range => ⟨rfl, rfl⟩⟩
  intro v n sized p
  have inside : ∀ w, v.index bound = .ok w → 0 ≤ p ∧ p < n := by
    intro w found
    by_cases within : Within n p
    · refine ⟨within.1, Int.lt_iff_le_and_ne.mpr ⟨within.2, fun atEnd => ?_⟩⟩
      cases found.symm.trans (index_of_end sized atEnd)
    · cases found.symm.trans (index_of_not_within sized within)
  refine ⟨⟨fun ⟨w, found⟩ => inside w found, ?_⟩, ⟨?_, ?_⟩, ?_, index_of_not_within sized,
    index_of_end sized, single_of_not_inside sized⟩
  · rintro ⟨start, stop⟩
    obtain ⟨u, w, -, found, -⟩ := index_of_inside sized start stop
    exact ⟨w, found⟩
  · rintro ⟨w, cut⟩
    by_cases isInside : 0 ≤ p ∧ p < n
    · exact isInside
    · cases cut.symm.trans (single_of_not_inside sized isInside)
  · rintro ⟨start, stop⟩
    obtain ⟨u, w, stretch, -⟩ := index_of_inside sized start stop
    exact ⟨u, (slice_eq_iff sized _ _).mpr (.cut stretch)⟩
  · intro w found
    obtain ⟨start, stop⟩ := inside w found
    obtain ⟨u, w', stretch, found', onString, onList⟩ := index_of_inside sized start stop
    cases found.symm.trans found'
    exact ⟨u, (slice_eq_iff sized _ _).mpr (.cut stretch), onString, onList⟩

theorem Value.indices_are_single_slices_last :
    let v : Value := .list [['a'], ['b', 'c']]
    v.length = .ok 2 ∧
    (∃ w, v.index (.back 1) = .ok w) ∧
    (∀ w, v.index (.back 1) = .ok w → ∃ u, v.slice (.single 1) = .ok u ∧
      (v.kind = .string → w = u) ∧ (v.kind = .list → u.join = .ok w)) ∧
    v.index (.back 3) = .error (.range (.outside "-3".toList (-1, -1) (0, 2))) ∧
    v.index (.back 0) = .error (.range (.outside "-0".toList (2, 3) (0, 2))) ∧
    v.slice (.single 2) = .error (.range (.outside "|2.3|".toList (2, 3) (0, 2))) := by
  intro v
  have sized : v.length = .ok 2 := rfl
  obtain ⟨found, -, agree, -⟩ := (indices_are_single_slices (.back 1)).1 v 2 sized
  obtain ⟨-, -, -, outside, -⟩ := (indices_are_single_slices (.back 3)).1 v 2 sized
  obtain ⟨-, -, -, -, atEnd, failed⟩ := (indices_are_single_slices (.back 0)).1 v 2 sized
  exact ⟨sized, found.mpr (by decide), agree, outside (by decide), atEnd rfl, failed (by decide)⟩

/-- The last position that can be written. The index there is told to be outside, the slice is not. One
    position further neither is. -/
theorem Value.index_of_long_position_is_not_reported :
    let v : Value := .string "abc".toList
    let p : Int := Nat.pow 10 Text.maxWritten - 1
    v.length = .ok 3 ∧
    v.index (.front p) = .error (.range (.outside (Text.ofInt p) (p, p) (0, 3))) ∧
    v.slice (.single p) = .error (.range .unwritable) ∧
    v.index (.back (3 - (p + 1))) = .error (.range .unwritable) := by
  intro v p
  have sized : v.length = .ok 3 := rfl
  have large : 10 < Nat.pow 10 Text.maxWritten := by decide +kernel
  have long : ¬ Text.isWritable (p + 1) = true := by
    rw [Text.isWritable_iff]
    omega
  have short (k : Int) (h : k = p ∨ k = 3) : Text.isWritable k = true := by
    rw [Text.isWritable_iff]
    omega
  refine ⟨sized, ?_, ?_, ?_⟩
  · have outside : ¬ Within 3 ((Bound.front p).offset 3) := by
      intro ⟨_, before⟩
      simp only [Bound.offset] at before
      omega
    rw [index_of_not_within sized outside, if_pos]
    · rfl
    · intro k member
      apply short
      simpa [Bound.places, Bound.offset] using member
  · have notInside : ¬ (0 ≤ p ∧ p < (3 : Nat)) := by omega
    rw [single_of_not_inside sized notInside, if_neg]
    exact fun told => long (told (p + 1) (by simp))
  · have position : (Bound.back (3 - (p + 1))).offset 3 = p + 1 := by
      simp only [Bound.offset]
      omega
    have outside : ¬ Within 3 ((Bound.back (3 - (p + 1))).offset 3) := by
      rw [position]
      intro ⟨_, before⟩
      omega
    rw [index_of_not_within sized outside, if_neg]
    intro told
    exact long (position ▸ told _ (by simp))

end QueueScript
