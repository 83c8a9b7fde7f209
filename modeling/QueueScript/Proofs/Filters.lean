import QueueScript.Operator

/-! # Checks and filters

A filter keeps of a sequence what passes the check of the same class: the characters of a string one by
one, and the elements of a list as a whole. So what it keeps passes the check, and it keeps everything
if and only if the sequence passes.

The classes are those of the ASCII letters. Every letter is either a vowel or a consonant, and either a
lower or an upper one, and no other character is any of these (`holds_cases`).
-/

namespace QueueScript

/-! ## Letters -/

def lowerLetters : Text :=
  "abcdefghijklmnopqrstuvwxyz".toList

def upperLetters : Text :=
  "ABCDEFGHIJKLMNOPQRSTUVWXYZ".toList

def letters : Text :=
  lowerLetters ++ upperLetters

theorem eq_of_letters {c : Char} (member : c ∈ letters) {α : Type} {f g : Char → α}
    (h : letters.map f = letters.map g) : f c = g c :=
  List.map_inj_left.mp h c member

theorem mem_of_between {t : Text} {first : Nat}
    (h : (List.range t.length).all (fun k => t[k]? == some (Char.ofNat (first + k))) = true) {c : Char}
    (low : first ≤ c.toNat) (high : c.toNat < first + t.length) : c ∈ t := by
  have inside : c.toNat - first ∈ List.range t.length := List.mem_range.mpr (by omega)
  have found := List.all_eq_true.mp h _ inside
  rw [Nat.add_sub_cancel' low, Char.ofNat_toNat, beq_iff_eq] at found
  exact List.mem_of_getElem? found

theorem isLower_iff {c : Char} : c.isLower = true ↔ c ∈ lowerLetters := by
  constructor
  · intro h
    have bounds : (decide (97 ≤ c.val) && decide (c.val ≤ 122)) = true := h
    rw [Bool.and_eq_true, decide_eq_true_eq, decide_eq_true_eq] at bounds
    have low : 97 ≤ c.toNat := bounds.1
    have high : c.toNat ≤ 122 := bounds.2
    exact mem_of_between (t := lowerLetters) (by decide) low (Nat.lt_succ_of_le high)
  · intro member
    exact List.all_eq_true.mp (show lowerLetters.all Char.isLower = true by decide) c member

theorem isUpper_iff {c : Char} : c.isUpper = true ↔ c ∈ upperLetters := by
  constructor
  · intro h
    have bounds : decide (65 ≤ c.val ∧ c.val ≤ 90) = true := h
    rw [decide_eq_true_eq] at bounds
    have low : 65 ≤ c.toNat := bounds.1
    have high : c.toNat ≤ 90 := bounds.2
    exact mem_of_between (t := upperLetters) (by decide) low (Nat.lt_succ_of_le high)
  · intro member
    exact List.all_eq_true.mp (show upperLetters.all Char.isUpper = true by decide) c member

namespace Check

theorem holds_of_not_mem {c : Char} (h : c ∉ letters) (check : Check) : check.holds c = false := by
  have notLower : c.isLower = false := by
    rw [Bool.eq_false_iff]
    exact fun lower => h (List.mem_append_left _ (isLower_iff.mp lower))
  have notUpper : c.isUpper = false := by
    rw [Bool.eq_false_iff]
    exact fun upper => h (List.mem_append_right _ (isUpper_iff.mp upper))
  cases check with
  | vowel =>
      rw [Bool.eq_false_iff]
      intro vowel
      have sub : "aeiouAEIOU".toList.all letters.contains = true := by decide
      exact h (List.contains_iff_mem.mp (List.all_eq_true.mp sub c (List.contains_iff_mem.mp vowel)))
  | consonant =>
      have both : c.isAlpha = (c.isUpper || c.isLower) := rfl
      rw [holds, both, notUpper, notLower, Bool.or_self, Bool.false_and]
  | lower => exact notLower
  | upper => exact notUpper

theorem holds_cases (c : Char) :
    (c ∈ letters ∧ consonant.holds c = !vowel.holds c ∧ upper.holds c = !lower.holds c) ∨
    (c ∉ letters ∧ ∀ check : Check, check.holds c = false) := by
  by_cases member : c ∈ letters
  · have vowels : consonant.holds c = !vowel.holds c := by
      apply eq_of_letters member
      decide
    have cases : upper.holds c = !lower.holds c := by
      apply eq_of_letters member
      decide
    exact .inl ⟨member, vowels, cases⟩
  · exact .inr ⟨member, holds_of_not_mem member⟩

end Check

/-! ## Sequences -/

theorem Kind.mem_sequences {kind : Kind} : kind ∈ sequences ↔ kind ≠ .bool := by
  cases kind <;> decide

namespace Value

/-- The first value is left of the second when parts of it are dropped. -/
def Subsequence : Value → Value → Prop
  | .string t, .string u => t.Sublist u
  | .list items, .list others => items.Sublist others
  | _, _ => False

theorem exists_filter {v : Value} (h : v.kind ∈ Kind.sequences) (check : Check) :
    ∃ w, v.filter check = .ok w ∧ w.kind = v.kind := by
  cases v with
  | string t | list items => exact ⟨_, rfl, rfl⟩
  | bool truth => exact absurd rfl (Kind.mem_sequences.mp h)

section Filter

variable {v w : Value} {check : Check}

theorem check_of_filter (h : v.filter check = .ok w) : w.check check = .ok (.bool true) := by
  cases v with
  | string t =>
      cases h
      have passes : check.all (t.filter check.holds) = true :=
        List.all_eq_true.mpr fun c member => (List.mem_filter.mp member).2
      rw [Value.check, passes]
  | list items =>
      cases h
      have pass : (items.filter check.all).all check.all = true :=
        List.all_eq_true.mpr fun item member => (List.mem_filter.mp member).2
      rw [Value.check, pass]
  | bool truth => cases h

theorem filter_eq_self_iff (h : v.filter check = .ok w) :
    w = v ↔ v.check check = .ok (.bool true) := by
  cases v with
  | string t =>
      cases h
      simp [Value.check, Check.all]
  | list items =>
      cases h
      simp [Value.check]
  | bool truth => cases h

theorem filter_comm {other : Check} {w' : Value} (h : v.filter check = .ok w)
    (h' : v.filter other = .ok w') : w.filter other = w'.filter check := by
  cases v with
  | string t | list items =>
      cases h
      cases h'
      simp only [Value.filter, List.filter_filter, Bool.and_comm]
  | bool truth => cases h

theorem subsequence_of_filter (h : v.filter check = .ok w) : w.Subsequence v := by
  cases v with
  | string t | list items =>
      cases h
      exact List.filter_sublist
  | bool truth => cases h

theorem check_join (items : List Text) (check : Check) :
    ∃ joined, (list items).join = .ok joined ∧ joined.check check = (list items).check check := by
  have same : check.all items.flatten = items.all check.all := List.all_flatten
  exact ⟨_, rfl, by rw [Value.check, same]; rfl⟩

theorem check_concat {left right : Value} (h : left.concat right = .ok w) (check : Check) :
    ∃ p q, left.check check = .ok (.bool p) ∧ right.check check = .ok (.bool q) ∧
      w.check check = .ok (.bool (p && q)) := by
  cases left with
  | string a =>
      cases right with
      | string b =>
          cases h
          exact ⟨_, _, rfl, rfl, by rw [Value.check, Check.all, List.all_append]; rfl⟩
      | list | bool => cases h
  | list a =>
      cases right with
      | list b =>
          cases h
          exact ⟨_, _, rfl, rfl, by rw [Value.check, List.all_append]⟩
      | string | bool => cases h
  | bool a => cases right <;> cases h

end Filter

end Value

/-- Filtering a string leaves `kept` of the character between `before` and `after`. -/
def Check.Leaves (check : Check) (before : Text) (c : Char) (after kept : Text) : Prop :=
  ∃ front back, Value.filter check (.string before) = .ok (.string front) ∧
    Value.filter check (.string after) = .ok (.string back) ∧
    Value.filter check (.string (before ++ c :: after)) = .ok (.string (front ++ kept ++ back))

theorem Check.leaves_of_holds {check : Check} {c : Char} {truth : Bool} (h : check.holds c = truth)
    (before after : Text) : check.Leaves before c after (if truth then [c] else []) := by
  refine ⟨_, _, rfl, rfl, ?_⟩
  rw [Value.filter, List.filter_append, List.filter_cons, h, List.append_assoc]
  cases truth <;> rfl

theorem Check.leaves_one {one other : Check} {c : Char} (opposite : other.holds c = !one.holds c)
    (before after : Text) :
    (one.Leaves before c after [c] ∧ other.Leaves before c after []) ∨
    (one.Leaves before c after [] ∧ other.Leaves before c after [c]) := by
  cases here : one.holds c with
  | true =>
      rw [here] at opposite
      exact .inl ⟨leaves_of_holds here before after, leaves_of_holds opposite before after⟩
  | false =>
      rw [here] at opposite
      exact .inr ⟨leaves_of_holds here before after, leaves_of_holds opposite before after⟩

/-- Checks and filters cohere. What a filter keeps of a sequence is part of it in the same order and
    passes the check, and it is the whole sequence if and only if that passes. Filtering once more by the
    same class changes nothing, and filters of two classes can be swapped. A list passes a check as its
    elements joined do, and two sequences put together pass it if both do. In a string every letter is
    kept by one of the filters for vowels and consonants and dropped by the other, and so by those for
    lower and upper letters; any other character is dropped by all four. -/
theorem checks_and_filters_cohere :
    (∀ (v : Value) (check other : Check), v.kind ∈ Kind.sequences →
      ∃ w, v.filter check = .ok w ∧ w.kind = v.kind ∧ w.Subsequence v ∧
        w.check check = .ok (.bool true) ∧ (w = v ↔ v.check check = .ok (.bool true)) ∧
        w.filter check = .ok w ∧
        ∃ w' both, v.filter other = .ok w' ∧ w.filter other = .ok both ∧ w'.filter check = .ok both) ∧
    (∀ (items : List Text) (check : Check), ∃ joined,
      (Value.list items).join = .ok joined ∧ joined.check check = (Value.list items).check check) ∧
    (∀ (left right v : Value) (check : Check), left.concat right = .ok v →
      ∃ p q, left.check check = .ok (.bool p) ∧ right.check check = .ok (.bool q) ∧
        v.check check = .ok (.bool (p && q))) ∧
    (∀ (before : Text) (c : Char) (after : Text),
      (c ∈ letters →
        ((Check.vowel.Leaves before c after [c] ∧ Check.consonant.Leaves before c after []) ∨
          (Check.vowel.Leaves before c after [] ∧ Check.consonant.Leaves before c after [c])) ∧
        ((Check.lower.Leaves before c after [c] ∧ Check.upper.Leaves before c after []) ∨
          (Check.lower.Leaves before c after [] ∧ Check.upper.Leaves before c after [c]))) ∧
      (c ∉ letters → ∀ check : Check, check.Leaves before c after [])) := by
  refine ⟨?_, Value.check_join, fun _ _ _ check joined => Value.check_concat joined check, ?_⟩
  · intro v check other sequence
    obtain ⟨w, kept, kind⟩ := Value.exists_filter sequence check
    obtain ⟨w', kept', -⟩ := Value.exists_filter sequence other
    obtain ⟨both, keptBoth, -⟩ := Value.exists_filter (kind ▸ sequence) other
    have passes := Value.check_of_filter kept
    -- What is kept passes the check, so nothing of it is dropped the second time.
    obtain ⟨again, keptAgain, -⟩ := Value.exists_filter (kind ▸ sequence) check
    have same : again = w := (Value.filter_eq_self_iff keptAgain).mpr passes
    rw [same] at keptAgain
    refine ⟨w, kept, kind, Value.subsequence_of_filter kept, passes,
      Value.filter_eq_self_iff kept, keptAgain, w', both, kept', keptBoth, ?_⟩
    rw [← Value.filter_comm kept kept', keptBoth]
  · intro before c after
    obtain ⟨member, vowels, cases⟩ | ⟨notMember, none⟩ := Check.holds_cases c
    · exact ⟨fun _ => ⟨Check.leaves_one vowels before after, Check.leaves_one cases before after⟩,
        fun notMember => absurd member notMember⟩
    · exact ⟨fun member => absurd member notMember,
        fun _ check => Check.leaves_of_holds (none check) before after⟩

/-- An empty element passes every check, and a letter with an accent passes none. -/
theorem checks_and_filters_cohere_accent :
    let v : Value := .list [[], ['a', 'b'], ['e']]
    v.kind ∈ Kind.sequences ∧
    (∃ w, v.filter .vowel = .ok w ∧ w = .list [[], ['e']] ∧ w.Subsequence v ∧
      w.check .vowel = .ok (.bool true) ∧ w.filter .vowel = .ok w) ∧
    'b' ∈ letters ∧ Check.consonant.Leaves ['a'] 'b' ['é'] ['b'] ∧
    'é' ∉ letters ∧ ∀ check : Check, check.Leaves ['a', 'b'] 'é' [] [] := by
  intro v
  have sequence : v.kind ∈ Kind.sequences := by decide
  obtain ⟨filters, -, -, characters⟩ := checks_and_filters_cohere
  obtain ⟨w, kept, -, part, passes, -, again, -⟩ := filters v .vowel .vowel sequence
  have letter : 'b' ∈ letters := by decide
  have other : 'é' ∉ letters := by decide
  refine ⟨sequence, ⟨w, kept, ?_, part, passes, again⟩, letter, ?_, other, ?_⟩
  · cases kept
    decide
  · obtain ⟨⟨⟨front, back, before, after, whole⟩, -⟩ | ⟨-, left⟩, -⟩ := (characters ['a'] 'b' ['é']).1 letter
    · cases before
      cases after
      cases whole
    · exact left
  · exact (characters ['a', 'b'] 'é' []).2 other

end QueueScript
