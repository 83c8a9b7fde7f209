import Mathlib.Data.List.Infix
import QueueScript.Operator

/-! # Splitting at a literal

A text is cut at a literal from the left: its first occurrence is found, and the search goes on behind
it. So occurrences that overlap are not all used, and where the search goes on matters. `Divides` says
what the parts of a text are without a search. No text has two such lists of parts (`Divides.unique`),
and the search finds one (`divides_fragments`).
-/

namespace QueueScript

namespace Text

/-- The leftmost occurrence of the pattern in the text begins at the offset. -/
structure FirstAt (pattern t : Text) (offset : Nat) : Prop where
  occurs : pattern <+: t.drop offset
  earliest : ∀ k < offset, ¬ pattern <+: t.drop k

/-- The text is the parts with the pattern between neighbours. Each part but the last ends where the
    leftmost pattern begins in what the text is from that part on, and the last has no pattern. -/
structure Divides (pattern t : Text) (parts : List Text) : Prop where
  nonempty : parts ≠ []
  whole : t = List.intercalate pattern parts
  leftmost : ∀ i (_ : i < parts.length - 1),
    FirstAt pattern (List.intercalate pattern (parts.drop i)) parts[i].length
  last : ∀ part ∈ parts.getLast?, ¬ pattern <:+: part

instance (pattern t : Text) (offset : Nat) : Decidable (FirstAt pattern t offset) :=
  decidable_of_iff (pattern <+: t.drop offset ∧ ∀ k < offset, ¬ pattern <+: t.drop k)
    ⟨fun ⟨occurs, earliest⟩ => ⟨occurs, earliest⟩, fun h => ⟨h.occurs, h.earliest⟩⟩

instance (pattern t : Text) (parts : List Text) : Decidable (Divides pattern t parts) :=
  decidable_of_iff
    (parts ≠ [] ∧ t = List.intercalate pattern parts ∧
      (∀ i (_ : i < parts.length - 1),
        FirstAt pattern (List.intercalate pattern (parts.drop i)) parts[i].length) ∧
      ∀ part ∈ parts.getLast?, ¬ pattern <:+: part)
    ⟨fun ⟨nonempty, whole, leftmost, last⟩ => ⟨nonempty, whole, leftmost, last⟩,
      fun h => ⟨h.nonempty, h.whole, h.leftmost, h.last⟩⟩

section Search

variable {pattern t : Text}

theorem FirstAt.unique {i k : Nat} (h : FirstAt pattern t i) (h' : FirstAt pattern t k) : i = k := by
  rcases Nat.lt_trichotomy i k with less | same | more
  · exact absurd h.occurs (h'.earliest i less)
  · exact same
  · exact absurd h'.occurs (h.earliest k more)

theorem FirstAt.cons {k : Nat} {c : Char} (h : FirstAt pattern t k) (notHere : ¬ pattern <+: c :: t) :
    FirstAt pattern (c :: t) (k + 1) := by
  refine ⟨h.occurs, fun i less => ?_⟩
  cases i with
  | zero => exact notHere
  | succ i => exact h.earliest i (Nat.lt_of_succ_lt_succ less)

theorem infix_iff_occurs : pattern <:+: t ↔ ∃ k, pattern <+: t.drop k := by
  constructor
  · rintro ⟨before, after, rfl⟩
    refine ⟨before.length, ?_⟩
    rw [List.append_assoc, List.drop_left]
    exact List.prefix_append pattern after
  · rintro ⟨k, occurs⟩
    exact occurs.isInfix.trans (List.drop_suffix k t).isInfix

theorem breakOn_cases (nonempty : pattern ≠ []) (t : Text) :
    (∃ before after, breakOn pattern t = some (before, after) ∧ FirstAt pattern t before.length) ∨
      breakOn pattern t = none ∧ ¬ pattern <:+: t := by
  induction t with
  | nil => exact .inr ⟨by simp [breakOn, nonempty], by simp [nonempty]⟩
  | cons c t ih =>
      rw [breakOn]
      by_cases here : pattern <+: c :: t
      · rw [if_pos (List.isPrefixOf_iff_prefix.mpr here)]
        exact .inl ⟨_, _, rfl, here, fun k less => absurd less (Nat.not_lt_zero k)⟩
      · rw [if_neg fun found => here (List.isPrefixOf_iff_prefix.mp found)]
        obtain ⟨before, after, found, first⟩ | ⟨none, notLater⟩ := ih
        · rw [found]
          exact .inl ⟨_, _, rfl, first.cons here⟩
        · rw [none, List.infix_cons_iff]
          exact .inr ⟨rfl, not_or.mpr ⟨here, notLater⟩⟩

end Search

section Divides

variable {pattern t : Text} {parts : List Text}

/-- A text without the pattern is its own only part. Any other has a first part, and behind the pattern
    that follows it a text with the other parts. -/
theorem divides_iff :
    Divides pattern t parts ↔ (parts = [t] ∧ ¬ pattern <:+: t) ∨
      ∃ first u later, parts = first :: later ∧ t = first ++ pattern ++ u ∧
        FirstAt pattern t first.length ∧ Divides pattern u later := by
  constructor
  · intro h
    cases parts with
    | nil => exact absurd rfl h.nonempty
    | cons first later =>
        have whole := h.whole
        cases later with
        | nil =>
            rw [List.intercalate_singleton] at whole
            subst whole
            exact .inl ⟨rfl, h.last t rfl⟩
        | cons second later =>
            rw [List.intercalate_cons_cons] at whole
            refine .inr ⟨first, _, second :: later, rfl, whole, ?_, List.cons_ne_nil _ _, rfl, ?_, ?_⟩
            · rw [h.whole]
              exact h.leftmost 0 (Nat.zero_lt_succ _)
            · intro i inside
              exact h.leftmost (i + 1) (Nat.succ_lt_succ inside)
            · intro part isLast
              exact h.last part (by rwa [List.getLast?_cons_cons])
  · rintro (⟨rfl, notIn⟩ | ⟨first, u, later, rfl, rfl, here, h⟩)
    · refine ⟨List.cons_ne_nil _ _, List.intercalate_singleton.symm, ?_, ?_⟩
      · intro i inside
        exact absurd inside (Nat.not_lt_zero i)
      · intro part isLast
        cases isLast
        exact notIn
    · obtain ⟨second, later, rfl⟩ := List.exists_cons_of_ne_nil h.nonempty
      have whole : first ++ pattern ++ u = List.intercalate pattern (first :: second :: later) := by
        rw [List.intercalate_cons_cons, ← h.whole]
      refine ⟨List.cons_ne_nil _ _, whole, ?_, ?_⟩
      · intro i inside
        cases i with
        | zero =>
            rw [List.drop_zero, ← whole]
            exact here
        | succ i => exact h.leftmost i (Nat.lt_of_succ_lt_succ inside)
      · intro part isLast
        rw [List.getLast?_cons_cons] at isLast
        exact h.last part isLast

theorem Divides.unique {others : List Text} (h : Divides pattern t parts)
    (h' : Divides pattern t others) : others = parts := by
  induction parts generalizing t others with
  | nil => exact absurd rfl h.nonempty
  | cons first later ih =>
      obtain ⟨same, notIn⟩ | ⟨_, u, _, same, rfl, here, h⟩ := divides_iff.mp h
      · cases same
        obtain ⟨rfl, -⟩ | ⟨_, _, _, -, -, here, -⟩ := divides_iff.mp h'
        · rfl
        · exact absurd (infix_iff_occurs.mpr ⟨_, here.occurs⟩) notIn
      · cases same
        obtain ⟨-, notIn⟩ | ⟨first', u', later', rfl, whole, here', later⟩ := divides_iff.mp h'
        · exact absurd (infix_iff_occurs.mpr ⟨_, here.occurs⟩) notIn
        · -- The first parts are equally long, so what stands behind them is the same too.
          rw [List.append_assoc, List.append_assoc] at whole
          obtain ⟨rfl, behind⟩ := List.append_inj whole (here.unique here')
          rw [List.append_cancel_left behind] at h
          rw [ih h later]

theorem Divides.not_infix (h : Divides pattern t parts) (nonempty : pattern ≠ []) :
    ∀ part ∈ parts, ¬ pattern <:+: part := by
  induction parts generalizing t with
  | nil => exact absurd rfl h.nonempty
  | cons first later ih =>
      intro part member
      obtain ⟨same, notIn⟩ | ⟨_, u, _, same, rfl, here, h⟩ := divides_iff.mp h
      · cases same
        rwa [List.mem_singleton.mp member]
      · cases same
        rcases List.mem_cons.mp member with rfl | member
        · -- An occurrence inside the first part would be one to the left of the leftmost.
          intro inside
          obtain ⟨k, occurs⟩ := infix_iff_occurs.mp inside
          have less : k < part.length := by
            rcases Nat.lt_or_ge k part.length with less | past
            · exact less
            · rw [List.drop_eq_nil_of_le past, List.prefix_nil] at occurs
              exact absurd occurs nonempty
          apply here.earliest k less
          rw [List.append_assoc, List.drop_append_of_le_length (Nat.le_of_lt less)]
          exact occurs.trans (List.prefix_append _ _)
        · exact ih h part member

theorem Divides.length_flatten (h : Divides pattern t parts) :
    parts.flatten.length + (parts.length - 1) * pattern.length = t.length := by
  induction parts generalizing t with
  | nil => exact absurd rfl h.nonempty
  | cons first later ih =>
      obtain ⟨same, -⟩ | ⟨_, u, _, same, rfl, -, h⟩ := divides_iff.mp h
      · cases same
        simp
      · cases same
        obtain ⟨second, later, rfl⟩ := List.exists_cons_of_ne_nil h.nonempty
        have rest := ih h
        simp only [List.flatten_cons, List.length_append, List.length_cons, Nat.add_sub_cancel,
          Nat.succ_mul] at rest ⊢
        omega

theorem divides_fragments (nonempty : pattern ≠ []) (t : Text) :
    Divides pattern t (fragments pattern t) := by
  fun_induction fragments pattern t with
  | case1 t empty => exact absurd empty nonempty
  | case2 t _ before after found ih =>
      obtain ⟨_, _, found', first⟩ | ⟨none, -⟩ := breakOn_cases nonempty t
      · cases found.symm.trans found'
        exact divides_iff.mpr (.inr ⟨before, after, _, rfl, eq_append_of_breakOn found, first, ih⟩)
      · cases found.symm.trans none
  | case3 t _ found =>
      obtain ⟨_, _, found', -⟩ | ⟨-, notIn⟩ := breakOn_cases nonempty t
      · cases found.symm.trans found'
      · exact divides_iff.mpr (.inl ⟨rfl, notIn⟩)

end Divides

end Text

namespace Value

theorem split_of_divides {pattern t : Text} {parts : List Text} (nonempty : pattern ≠ [])
    (h : Text.Divides pattern t parts) :
    (Value.string t).split (some pattern) = .ok (.list (parts.filter (!·.isEmpty))) := by
  rw [← h.unique (Text.divides_fragments nonempty t)]
  cases pattern with
  | nil => exact absurd rfl nonempty
  | cons c pattern => rfl

/-- Splitting finds the literal from the left. A text has exactly one list of parts between leftmost
    occurrences of a literal that is not empty, and splitting gives those that are not empty, in
    order. So no element is empty or has the literal, an element is not split any further, and the
    elements are as long as the text without the occurrences. Without a literal, or with the empty one,
    the elements are the single characters, which joined give the text again. -/
theorem splitting_finds_leftmost_literals (t : Text) :
    (∀ pattern : Text, pattern ≠ [] → ∃ parts : List Text,
      Text.Divides pattern t parts ∧ (∀ others, Text.Divides pattern t others → others = parts) ∧
      (Value.string t).split (some pattern) = .ok (.list (parts.filter (!·.isEmpty))) ∧
      (∀ element ∈ parts.filter (!·.isEmpty), element ≠ [] ∧ ¬ pattern <:+: element ∧
        (Value.string element).split (some pattern) = .ok (.list [element])) ∧
      (parts.filter (!·.isEmpty)).flatten.length + (parts.length - 1) * pattern.length = t.length) ∧
    ∀ literal : Option Text, literal = none ∨ literal = some [] →
      (Value.string t).split literal = .ok (.list (t.map ([·]))) ∧
      (Value.list (t.map ([·]))).join = .ok (.string t) := by
  constructor
  · intro pattern nonempty
    have divides := Text.divides_fragments nonempty t
    refine ⟨_, divides, fun _ => divides.unique, split_of_divides nonempty divides, ?_, ?_⟩
    · intro element member
      obtain ⟨isPart, notEmpty⟩ := List.mem_filter.mp member
      have notIn := divides.not_infix nonempty element isPart
      have alone : Text.Divides pattern element [element] := Text.divides_iff.mpr (.inl ⟨rfl, notIn⟩)
      refine ⟨by simpa using notEmpty, notIn, ?_⟩
      rw [split_of_divides nonempty alone]
      simp [notEmpty]
    · rw [List.flatten_filter_not_isEmpty]
      exact divides.length_flatten
  · have joined : (Value.list (t.map ([·]))).join = .ok (.string t) := by
      rw [join, asList]
      simp only [← List.flatMap_def, List.flatMap_singleton']
    rintro literal (rfl | rfl)
    · exact ⟨rfl, joined⟩
    · exact ⟨rfl, joined⟩

theorem splitting_finds_leftmost_literals_overlapping :
    "aba".toList ≠ [] ∧
    Text.Divides "aba".toList "ababaabacaba".toList [[], "ba".toList, ['c'], []] ∧
    (Value.string "ababaabacaba".toList).split (some "aba".toList) = .ok (.list ["ba".toList, ['c']]) := by
  have nonempty : "aba".toList ≠ [] := by decide
  have divides : Text.Divides "aba".toList "ababaabacaba".toList [[], "ba".toList, ['c'], []] := by
    decide
  obtain ⟨parts, -, unique, given, -⟩ :=
    (splitting_finds_leftmost_literals "ababaabacaba".toList).1 _ nonempty
  rw [← unique _ divides] at given
  exact ⟨nonempty, divides, given⟩

end Value

end QueueScript
