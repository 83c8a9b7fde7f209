import Mathlib.Data.List.Forall2
import QueueScript.Proofs.Elements
import QueueScript.Proofs.Filters

/-! # Changes of case

A change of case maps every character of a sequence by itself (`mapChars`). What only moves characters
about commutes with every such map, so the laws of the three changes are laws of their action on single
characters. There they have to be checked on the letters only, since any other character stays as it is.
-/

namespace QueueScript

/-! ## Single characters -/

namespace CaseMap

theorem onChar_of_not_mem {c : Char} (h : c ∉ letters) (change : CaseMap) : change.onChar c = c := by
  have notUpper : ¬ (65 ≤ c.val ∧ c.val ≤ 90) := by
    intro bounds
    have upper : c.isUpper = true := decide_eq_true bounds
    exact h (List.mem_append_right _ (isUpper_iff.mp upper))
  have notLower : ¬ (97 ≤ c.val ∧ c.val ≤ 122) := by
    intro bounds
    have lower : c.isLower = true := by
      have both : c.isLower = (decide (97 ≤ c.val) && decide (c.val ≤ 122)) := rfl
      rw [both, decide_eq_true bounds.1, decide_eq_true bounds.2]
      rfl
    exact h (List.mem_append_left _ (isLower_iff.mp lower))
  have lowered : c.toLower = c := dif_neg notUpper
  have raised : c.toUpper = c := dif_neg notLower
  cases change with
  | lower => exact lowered
  | upper => exact raised
  | swap => rw [onChar, lowered, raised, ite_self]

theorem swap_swap (c : Char) : swap.onChar (swap.onChar c) = c := by
  by_cases member : c ∈ letters
  · apply eq_of_letters member
    decide
  · rw [onChar_of_not_mem member, onChar_of_not_mem member]

theorem onChar_onChar {last : CaseMap} (h : last ≠ swap) (change : CaseMap) (c : Char) :
    last.onChar (change.onChar c) = last.onChar c := by
  by_cases member : c ∈ letters
  · cases last with
    | lower | upper =>
        cases change
        all_goals
          apply eq_of_letters member
          decide
    | swap => exact absurd rfl h
  · rw [onChar_of_not_mem member change]

theorem holds_onChar {check : Check} (h : check = .vowel ∨ check = .consonant) (change : CaseMap)
    (c : Char) : check.holds (change.onChar c) = check.holds c := by
  by_cases member : c ∈ letters
  · obtain rfl | rfl := h
    all_goals
      cases change
      all_goals
        apply eq_of_letters member
        decide
  · rw [onChar_of_not_mem member]

theorem upper_swap (c : Char) : Check.upper.holds (swap.onChar c) = Check.lower.holds c := by
  by_cases member : c ∈ letters
  · apply eq_of_letters member
    decide
  · rw [onChar_of_not_mem member, Check.holds_of_not_mem member, Check.holds_of_not_mem member]

theorem lower_swap (c : Char) : Check.lower.holds (swap.onChar c) = Check.upper.holds c := by
  rw [← upper_swap, swap_swap]

end CaseMap

namespace Value

def mapChars (f : Char → Char) : Value → Value
  | .string t => .string (t.map f)
  | .list items => .list (items.map (List.map f))
  | .bool truth => .bool truth

section MapChars

variable (f g : Char → Char) (v : Value)

@[simp]
theorem kind_mapChars : (v.mapChars f).kind = v.kind := by
  cases v <;> rfl

@[simp]
theorem length_mapChars : (v.mapChars f).length = v.length := by
  cases v with
  | string | list => simp [mapChars, length]
  | bool => rfl

theorem mapChars_mapChars : (v.mapChars f).mapChars g = v.mapChars (g ∘ f) := by
  cases v with
  | string t => simp [mapChars]
  | list items => simp [mapChars]
  | bool => rfl

theorem mapChars_id : v.mapChars id = v := by
  cases v <;> simp [mapChars]

theorem concat_mapChars (left right : Value) :
    (left.mapChars f).concat (right.mapChars f) = (left.concat right).map (mapChars f) := by
  cases left <;> cases right <;> simp [mapChars, concat, Except.map, kind]

end MapChars

end Value

/-- The operators that only move characters about. -/
inductive Operator.Moves : Operator → Prop where
  | join : Moves .join
  | characters : Moves (.split none)
  | charactersAtNothing : Moves (.split (some []))
  | slice (range : Range) : Moves (.slice range)
  | index (bound : Bound) : Moves (.index bound)

theorem Operator.Moves.apply_mapChars {operator : Operator} (h : operator.Moves) (f : Char → Char)
    (v : Value) : operator.apply (v.mapChars f) = (operator.apply v).map (Value.mapChars f) := by
  cases h with
  | join =>
      cases v with
      | list items => simp [apply, Value.mapChars, Value.join, Value.asList, Except.map]
      | string | bool => rfl
  | characters | charactersAtNothing =>
      cases v with
      | string t => simp [apply, Value.mapChars, Value.split, Value.asString, Except.map]
      | list | bool => rfl
  | slice range =>
      cases v with
      | string t | list t =>
          simp only [apply, Value.slice, Value.mapChars, Value.length, List.length_map]
          cases range.resolve t.length with
          | error fault => rfl
          | ok bounds => simp [Except.map, Value.mapChars, Value.cut, List.map_take, List.map_drop]
      | bool => rfl
  | index bound =>
      cases v with
      | string t | list t =>
          simp only [apply, Value.index, Value.mapChars, Value.length, List.length_map]
          cases bound.resolve t.length with
          | error fault => rfl
          | ok pos =>
              simp only [List.getElem?_map]
              cases t[pos.toNat]? <;> rfl
      | bool => rfl

theorem Operator.Moves.sequence {operator : Operator} (h : operator.Moves) {v w : Value}
    (computed : operator.apply v = .ok w) : w.kind ∈ Kind.sequences := by
  have known := kind_of_apply computed
  rw [Kind.mem_sequences]
  intro isBool
  rw [isBool] at known
  cases h <;> cases v <;> cases known

/-- The second text has the characters of the first in their places, but for letters. -/
def Text.Spares (t u : Text) : Prop :=
  List.Forall₂ (fun c d => c ∉ letters → d = c) t u

/-- The second value has the characters of the first in their places, but for letters. -/
def Value.Spares : Value → Value → Prop
  | .string t, .string u => t.Spares u
  | .list items, .list others => List.Forall₂ Text.Spares items others
  | _, _ => False

namespace Value

variable {v : Value} {change : CaseMap}

theorem filter_mapChars {check other : Check} {f : Char → Char}
    (h : ∀ c, check.holds (f c) = other.holds c) (v : Value) :
    (v.mapChars f).filter check = (v.filter other).map (mapChars f) := by
  have same : check.holds ∘ f = other.holds := funext h
  have sameAll : check.all ∘ List.map f = other.all := by
    funext t
    simp only [Function.comp_apply, Check.all, List.all_map, same]
  cases v with
  | string t => simp only [mapChars, filter, Except.map, List.filter_map, same]
  | list items => simp only [mapChars, filter, Except.map, List.filter_map, sameAll]
  | bool => rfl

theorem mapCase_eq (h : v.kind ∈ Kind.sequences) (change : CaseMap) :
    v.mapCase change = .ok (v.mapChars change.onChar) := by
  cases v with
  | string | list => rfl
  | bool => exact absurd rfl (Kind.mem_sequences.mp h)

theorem bind_mapCase {x : Except Fault Value} (h : ∀ w, x = .ok w → w.kind ∈ Kind.sequences)
    (change : CaseMap) : (x >>= mapCase change) = x.map (mapChars change.onChar) := by
  cases x with
  | error fault => rfl
  | ok w => exact mapCase_eq (h w rfl) change

theorem mapCase_mapCase (h : v.kind ∈ Kind.sequences) (first last : CaseMap) :
    (v.mapCase first >>= mapCase last) = .ok (v.mapChars (last.onChar ∘ first.onChar)) := by
  rw [mapCase_eq h]
  have again : (v.mapChars first.onChar).kind ∈ Kind.sequences := by rwa [kind_mapChars]
  exact (mapCase_eq again last).trans (congrArg Except.ok (mapChars_mapChars ..))

theorem mapCase_concat {other : Value} (h : v.kind ∈ Kind.sequences) (h' : other.kind ∈ Kind.sequences)
    (change : CaseMap) :
    (do
      let left ← v.mapCase change
      let right ← other.mapCase change
      left.concat right) = (v.concat other >>= mapCase change) := by
  have together : ∀ w, v.concat other = .ok w → w.kind ∈ Kind.sequences := by
    intro w joined
    rw [Kind.mem_sequences]
    intro isBool
    cases v <;> cases other <;> cases joined <;> cases isBool
  rw [bind_mapCase together, ← concat_mapChars, mapCase_eq h, mapCase_eq h']
  rfl

theorem mapCase_filter (h : v.kind ∈ Kind.sequences) {check other : Check}
    (same : ∀ c, check.holds (change.onChar c) = other.holds c) :
    (v.mapCase change >>= filter check) = (v.filter other >>= mapCase change) := by
  have kept : ∀ w, v.filter other = .ok w → w.kind ∈ Kind.sequences := by
    intro w filtered
    obtain ⟨_, filtered', kind⟩ := exists_filter h other
    cases filtered.symm.trans filtered'
    rwa [kind]
  rw [bind_mapCase kept, ← filter_mapChars same, mapCase_eq h]
  rfl

theorem spares_mapChars (h : v.kind ∈ Kind.sequences) (change : CaseMap) :
    v.Spares (v.mapChars change.onChar) := by
  have text (t : Text) : t.Spares (t.map change.onChar) := by
    refine List.forall₂_map_right_iff.mpr (List.forall₂_same.mpr ?_)
    intro c _ notLetter
    exact CaseMap.onChar_of_not_mem notLetter change
  cases v with
  | string t => exact text t
  | list items => exact List.forall₂_map_right_iff.mpr (List.forall₂_same.mpr fun t _ => text t)
  | bool => exact absurd rfl (Kind.mem_sequences.mp h)

/-- Changes of case keep structure. A change keeps the kind and the length of a sequence and all
    characters that are not letters. Before or after joining, cutting into characters, slicing, picking
    and putting together it leads to the same value or the same fault. Swapping twice gives the sequence
    back, and lowering or raising forgets every change before. The filters for vowels and consonants can
    be swapped with every change; swapping the case swaps the filters for lower and upper letters. -/
theorem case_maps_keep_structure (v : Value) (sequence : v.kind ∈ Kind.sequences) (change : CaseMap) :
    (∃ w, v.mapCase change = .ok w ∧ w.kind = v.kind ∧ w.length = v.length ∧ v.Spares w) ∧
    (∀ operator : Operator, operator.Moves →
      (v.mapCase change >>= operator.apply) = (operator.apply v >>= mapCase change)) ∧
    (∀ other : Value, other.kind ∈ Kind.sequences →
      (do
        let left ← v.mapCase change
        let right ← other.mapCase change
        left.concat right) = (v.concat other >>= mapCase change)) ∧
    (v.mapCase .swap >>= mapCase .swap) = .ok v ∧
    (v.mapCase change >>= mapCase .lower) = v.mapCase .lower ∧
    (v.mapCase change >>= mapCase .upper) = v.mapCase .upper ∧
    (v.mapCase change >>= filter .vowel) = (v.filter .vowel >>= mapCase change) ∧
    (v.mapCase change >>= filter .consonant) = (v.filter .consonant >>= mapCase change) ∧
    (v.mapCase .swap >>= filter .upper) = (v.filter .lower >>= mapCase .swap) ∧
    (v.mapCase .swap >>= filter .lower) = (v.filter .upper >>= mapCase .swap) := by
  have swapped : CaseMap.swap.onChar ∘ CaseMap.swap.onChar = id := funext CaseMap.swap_swap
  have forgotten {last : CaseMap} (h : last ≠ .swap) : last.onChar ∘ change.onChar = last.onChar :=
    funext (CaseMap.onChar_onChar h change)
  refine ⟨⟨_, mapCase_eq sequence change, kind_mapChars .., length_mapChars ..,
    spares_mapChars sequence change⟩, ?_, fun other h => mapCase_concat sequence h change, ?_, ?_, ?_,
    mapCase_filter sequence (CaseMap.holds_onChar (.inl rfl) change),
    mapCase_filter sequence (CaseMap.holds_onChar (.inr rfl) change),
    mapCase_filter sequence CaseMap.upper_swap, mapCase_filter sequence CaseMap.lower_swap⟩
  · intro operator moves
    rw [bind_mapCase (fun _ => moves.sequence), ← moves.apply_mapChars, mapCase_eq sequence]
    rfl
  · rw [mapCase_mapCase sequence, swapped, mapChars_id]
  · rw [mapCase_mapCase sequence, forgotten (by decide), mapCase_eq sequence]
  · rw [mapCase_mapCase sequence, forgotten (by decide), mapCase_eq sequence]

/-- The case of a letter with an accent is not changed, and where there is no element there is none after
    the change. -/
theorem case_maps_keep_structure_accent :
    let v : Value := .list [['é', 'B'], []]
    v.kind ∈ Kind.sequences ∧
    v.mapCase .swap = .ok (.list [['é', 'b'], []]) ∧
    (v.mapCase .swap >>= mapCase .swap) = .ok v ∧
    (v.mapCase .swap >>= index (.back 0)) = (v.index (.back 0) >>= mapCase .swap) ∧
    (v.mapCase .swap >>= filter .lower) = (v.filter .upper >>= mapCase .swap) := by
  intro v
  have sequence : v.kind ∈ Kind.sequences := by decide
  obtain ⟨-, moving, -, twice, -, -, -, -, -, filters⟩ := case_maps_keep_structure v sequence .swap
  exact ⟨sequence, by decide, twice, moving _ (.index (.back 0)), filters⟩

end Value

end QueueScript
