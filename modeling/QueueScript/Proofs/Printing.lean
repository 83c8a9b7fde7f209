import QueueScript.Proofs.Grammar
import QueueScript.Proofs.Feeds

/-! # Printing and reading programs

A token is canonical if it can be written: its numbers are in range and its literal can be quoted.
The canonical tokens are exactly those that some leaf of the grammar denotes, and the printed form
of one is such a leaf. No leaf begins with a digit or a blank, so printed tokens may be put side by
side, with or without blanks, and are read back one by one.
-/

namespace QueueScript

open Grammar

namespace Text

theorem isDigit_of_mem_ofNat {n : Nat} {c : Char} (h : c ∈ ofNat n) : isDigit c = true := by
  have digit := Nat.isDigit_of_mem_toDigits (by decide) (by decide) h
  simp only [Char.isDigit, Bool.and_eq_true, decide_eq_true_eq] at digit
  simp only [isDigit, Bool.and_eq_true, decide_eq_true_eq]
  exact digit

theorem ofNat_ne_nil (n : Nat) : ofNat n ≠ [] :=
  Nat.toDigits_ne_nil

@[simp]
theorem toNat_ofNat (n : Nat) : toNat (ofNat n) = n :=
  Nat.ofDigitChars_ten_toDigits

theorem toNat_cons (c : Char) (digits : Text) :
    toNat (c :: digits) = Nat.pow 10 digits.length * digitValue c + toNat digits := by
  have split : Nat.ofDigitChars 10 digits (digitValue c) =
      Nat.pow 10 digits.length * digitValue c + Nat.ofDigitChars 10 digits 0 :=
    Nat.ofDigitChars_eq_ofDigitChars_zero
  simpa [toNat, Nat.ofDigitChars, digitValue] using split

theorem digitValue_le {c : Char} (h : isDigit c = true) : digitValue c ≤ 9 := by
  simp only [isDigit, Bool.and_eq_true, decide_eq_true_eq] at h
  have top : c.toNat ≤ '9'.toNat := h.2
  simp only [digitValue]
  have nine : '9'.toNat = 57 := rfl
  have zero : '0'.toNat = 48 := rfl
  omega

theorem toNat_lt {digits : Text} (h : Digits digits) :
    toNat digits < Nat.pow 10 digits.length := by
  induction digits with
  | nil => decide
  | cons c digits ih =>
      have first : digitValue c ≤ 9 := digitValue_le (h c (List.mem_cons_self ..))
      have rest := ih fun c' member => h c' (List.mem_cons_of_mem c member)
      have most := Nat.mul_le_mul_left (Nat.pow 10 digits.length) first
      have grown : Nat.pow 10 (c :: digits).length = Nat.pow 10 digits.length * 10 := rfl
      rw [toNat_cons, grown]
      omega

/-- Writing a number again never takes more digits than it was read from. -/
theorem length_ofNat_toNat_le {digits : Text} (h : Digits digits) {k : Nat} (room : 0 < k)
    (short : digits.length ≤ k) : (ofNat (toNat digits)).length ≤ k := by
  rw [ofNat, Nat.length_toDigits_le_iff (by decide) room]
  exact Nat.lt_of_lt_of_le (toNat_lt h) (Nat.pow_le_pow_right (by decide) short)

end Text

/-- A bound that a program can write. -/
def Bound.Canonical : Bound → Prop
  | .front n | .back n => 0 ≤ n ∧ (Text.ofInt n).length ≤ 4300

def Token.Canonical : Token → Prop
  | .rotate count => 1 ≤ count ∧ (Text.ofInt count).length ≤ 4300
  | .apply (.split (some literal)) => '"' ∉ literal ∧ '/' ∉ literal
  | .apply (.slice range) => (∀ b ∈ range.first, b.Canonical) ∧ (∀ b ∈ range.last, b.Canonical)
  | .apply (.index bound) => bound.Canonical
  | _ => True

instance (b : Bound) : Decidable b.Canonical :=
  match b with
  | .front n | .back n => inferInstanceAs (Decidable (0 ≤ n ∧ (Text.ofInt n).length ≤ 4300))

instance : DecidablePred Token.Canonical
  | .rotate count => inferInstanceAs (Decidable (1 ≤ count ∧ (Text.ofInt count).length ≤ 4300))
  | .apply (.split (some literal)) => inferInstanceAs (Decidable ('"' ∉ literal ∧ '/' ∉ literal))
  | .apply (.slice range) =>
      inferInstanceAs
        (Decidable ((∀ b ∈ range.first, b.Canonical) ∧ (∀ b ∈ range.last, b.Canonical)))
  | .apply (.index bound) => inferInstanceAs (Decidable bound.Canonical)
  | .input | .output | .concat | .copy | .apply .join | .apply (.split none) | .apply (.check _)
  | .apply (.mapCase _) | .apply (.filter _) => isTrue trivial

theorem digits_ofNat (k : Nat) : Digits (Text.ofNat k) :=
  fun _ member => Text.isDigit_of_mem_ofNat member

theorem Bound.Canonical.signed {b : Bound} (h : b.Canonical) :
    ∃ digits, Signed b.text digits b ∧ digits.length ≤ 4300 := by
  cases b with
  | front n =>
      obtain ⟨k, rfl⟩ := Int.eq_ofNat_of_zero_le h.1
      have written := Signed.front (Text.ofNat_ne_nil k) (digits_ofNat k)
      rw [Text.toNat_ofNat] at written
      exact ⟨_, written, h.2⟩
  | back n =>
      obtain ⟨k, rfl⟩ := Int.eq_ofNat_of_zero_le h.1
      have written := Signed.back (Text.ofNat_ne_nil k) (digits_ofNat k)
      rw [Text.toNat_ofNat] at written
      exact ⟨_, written, h.2⟩

theorem canonical_of_signed {a digits : Text} {b : Bound} (h : Signed a digits b)
    (short : digits.length ≤ 4300) : b.Canonical := by
  cases h with
  | front _ inside =>
      exact ⟨Int.natCast_nonneg _, Text.length_ofNat_toNat_le inside (by decide) short⟩
  | back _ inside =>
      exact ⟨Int.natCast_nonneg _, Text.length_ofNat_toNat_le inside (by decide) short⟩

theorem optional_of_canonical {bound : Option Bound} (h : ∀ b ∈ bound, b.Canonical) :
    ∃ numbers, Optional ((bound.map Bound.text).getD []) numbers bound ∧ Short numbers := by
  cases bound with
  | none => exact ⟨[], .absent, short_nil⟩
  | some b =>
      obtain ⟨digits, signed, short⟩ := (h b rfl).signed
      exact ⟨[digits], .present signed, short_singleton.mpr short⟩

theorem canonical_of_optional {a : Text} {numbers : List Text} {bound : Option Bound}
    (h : Optional a numbers bound) (short : Short numbers) : ∀ b ∈ bound, b.Canonical := by
  cases h with
  | absent =>
      intro b member
      cases member
  | present signed =>
      intro b member
      cases member
      exact canonical_of_signed signed (short_singleton.mp short)

/-- A canonical token is printed as a leaf that denotes it. -/
theorem Token.Canonical.leaf {token : Token} (h : token.Canonical) :
    ∃ rule numbers, Leaf rule token.source numbers token ∧ Short numbers := by
  cases token with
  | input | output | concat | copy => exact ⟨_, _, .opcode (by decide), short_nil⟩
  | rotate count =>
      obtain ⟨k, rfl⟩ := Int.eq_ofNat_of_zero_le (Int.le_trans (by decide) h.1)
      have positive : k ≠ 0 := by
        have := h.1
        omega
      have written := Leaf.rotate (digits_ofNat k)
      rw [Text.toNat_ofNat, if_neg positive] at written
      exact ⟨_, _, written, short_singleton.mpr h.2⟩
  | apply operator =>
      cases operator with
      | join => exact ⟨_, _, .opcode (by decide), short_nil⟩
      | check letters => cases letters <;> exact ⟨_, _, .opcode (by decide), short_nil⟩
      | mapCase change => exact ⟨_, _, .map change, short_nil⟩
      | filter letters => exact ⟨_, _, .filter letters, short_nil⟩
      | split literal =>
          cases literal with
          | none => exact ⟨_, _, .characters, short_nil⟩
          | some literal => exact ⟨_, _, .literal h.1 h.2, short_nil⟩
      | slice range =>
          obtain ⟨before, start, shortBefore⟩ := optional_of_canonical h.1
          obtain ⟨after, stop, shortAfter⟩ := optional_of_canonical h.2
          exact ⟨_, _, .slice start stop, short_append.mpr ⟨shortBefore, shortAfter⟩⟩
      | index bound =>
          obtain ⟨digits, signed, short⟩ := h.signed
          exact ⟨_, _, .index signed, short_singleton.mpr short⟩

theorem canonical_of_leaf {rule leaf : Text} {numbers : List Text} {token : Token}
    (h : Leaf rule leaf numbers token) (short : Short numbers) : token.Canonical := by
  cases h with
  | opcode member =>
      simp only [opcodes, List.mem_cons, Prod.mk.injEq, List.not_mem_nil, or_false] at member
      rcases member with ⟨-, rfl⟩ | ⟨-, rfl⟩ | ⟨-, rfl⟩ | ⟨-, rfl⟩ | ⟨-, rfl⟩ | ⟨-, rfl⟩ |
        ⟨-, rfl⟩ | ⟨-, rfl⟩ | ⟨-, rfl⟩
      all_goals trivial
  | rotate inside =>
      have written := Text.length_ofNat_toNat_le inside (by decide) (short_singleton.mp short)
      split
      · exact ⟨by decide, by decide⟩
      · rename_i positive
        exact ⟨by omega, written⟩
  | characters | map | filter => trivial
  | literal noQuote noSlash => exact ⟨noQuote, noSlash⟩
  | slice start stop =>
      obtain ⟨shortBefore, shortAfter⟩ := short_append.mp short
      exact ⟨canonical_of_optional start shortBefore, canonical_of_optional stop shortAfter⟩
  | index signed => exact canonical_of_signed signed (short_singleton.mp short)

theorem canonical_of_scan {t : Text} {token : Token} {n : Nat} (h : scan t = .ok (token, n)) :
    token.Canonical := by
  obtain ⟨gap, body, rfl, blank, head⟩ := exists_gap t
  obtain ⟨-, outcome⟩ | ⟨leaf, numbers, found, begins, short, outcome⟩ | ⟨-, -, outcome⟩ :=
    scan_cases blank head
  · rw [h] at outcome
    cases outcome
  · rw [h] at outcome
    cases outcome
    obtain ⟨rule, rest, -, isLeaf, -⟩ := begins
    exact canonical_of_leaf isLeaf short
  · rw [h] at outcome
    cases outcome

/-! ## Whole programs -/

/-- Tokens in their printed form, each after a gap of its own. -/
def printed (pieces : List (Text × Token)) : Text :=
  pieces.flatMap fun (gap, token) => gap ++ token.source

theorem isDigit_of_mem_blanks {c : Char} (h : c ∈ blanks) : Text.isDigit c = false := by
  simp only [blanks, List.mem_cons, List.not_mem_nil, or_false] at h
  rcases h with rfl | rfl | rfl | rfl | rfl <;> decide

theorem noDigitNext_gap {gap rest : Text} (blank : ∀ c ∈ gap, c ∈ blanks)
    (ends : NoDigitNext rest) : NoDigitNext (gap ++ rest) := by
  cases gap with
  | nil => exact ends
  | cons c gap => exact noDigitNext_cons (isDigit_of_mem_blanks (blank c (List.mem_cons_self ..)))

/-- No printed token lengthens a count in front of it. -/
theorem noDigitNext_source {token : Token} {rest : Text} (h : token.Canonical) :
    NoDigitNext (token.source ++ rest) := by
  obtain ⟨rule, numbers, isLeaf, -⟩ := h.leaf
  obtain ⟨c, tail, same, -, notDigit⟩ := isLeaf.head
  rw [same]
  exact noDigitNext_cons notDigit

theorem scan_source {gap rest : Text} {token : Token} (blank : ∀ c ∈ gap, c ∈ blanks)
    (h : token.Canonical) (ends : NoDigitNext rest) :
    scan (gap ++ (token.source ++ rest)) = .ok (token, gap.length + token.source.length) := by
  obtain ⟨rule, numbers, isLeaf, short⟩ := h.leaf
  exact scan_of_begins blank ⟨rule, rest, rfl, isLeaf, fun _ => ends⟩ short

theorem noDigitNext_printed {pieces : List (Text × Token)} {last : Text}
    (h : ∀ piece ∈ pieces, (∀ c ∈ piece.1, c ∈ blanks) ∧ piece.2.Canonical)
    (blank : ∀ c ∈ last, c ∈ blanks) : NoDigitNext (printed pieces ++ last) := by
  cases pieces with
  | nil =>
      intro c member
      exact isDigit_of_mem_blanks (blank c (List.mem_of_mem_head? member))
  | cons piece pieces =>
      obtain ⟨blankGap, canonical⟩ := h piece (List.mem_cons_self ..)
      simp only [printed, List.flatMap_cons, List.append_assoc]
      exact noDigitNext_gap blankGap (noDigitNext_source canonical)

/-- A printed program is read back token by token, whatever stands in its gaps. -/
theorem tokenize_printed {pieces : List (Text × Token)} (last : Text)
    (h : ∀ piece ∈ pieces, (∀ c ∈ piece.1, c ∈ blanks) ∧ piece.2.Canonical)
    (blank : ∀ c ∈ last, c ∈ blanks) :
    tokenize (printed pieces ++ last) =
      .ok (pieces.map fun (gap, token) => (token, gap.length + token.source.length)) := by
  induction pieces with
  | nil =>
      apply tokenize_of_empty
      simpa [printed] using scan_of_empty blank
  | cons piece pieces ih =>
      obtain ⟨gap, token⟩ := piece
      obtain ⟨blankGap, canonical⟩ := h (gap, token) (List.mem_cons_self ..)
      have later : ∀ piece ∈ pieces, (∀ c ∈ piece.1, c ∈ blanks) ∧ piece.2.Canonical :=
        fun piece member => h piece (List.mem_cons_of_mem _ member)
      have whole : printed ((gap, token) :: pieces) ++ last =
          gap ++ (token.source ++ (printed pieces ++ last)) := by
        simp [printed]
      have left : (gap ++ (token.source ++ (printed pieces ++ last))).drop
          (gap.length + token.source.length) = printed pieces ++ last := by
        rw [← List.append_assoc, ← List.length_append, List.drop_left]
      have first := scan_source blankGap canonical (noDigitNext_printed later blank)
      rw [whole, tokenize_of_scan first, left, ih later]
      rfl

theorem canonical_of_tokenize {t : Text} {tokens : List (Token × Nat)}
    (h : tokenize t = .ok tokens) : ∀ entry ∈ tokens, entry.1.Canonical := by
  fun_induction tokenize t generalizing tokens with
  | case1 t found =>
      cases h
      intro entry member
      cases member
  | case2 t fault notEmpty found => cases h
  | case3 t token n found ih =>
      cases rest : tokenize (t.drop n) with
      | error fault =>
          rw [rest] at h
          cases h
      | ok later =>
          rw [rest] at h
          cases h
          intro entry member
          rcases List.mem_cons.mp member with rfl | member
          · exact canonical_of_scan found
          · exact ih rest entry member

theorem canonical_of_yielded {program : Text} {f f' : Feed} {token : Token} {n : Nat}
    (h : Feed.Reachable program f) (next : f.resume = some (.yielded token n, f')) :
    token.Canonical := by
  have plays := h.plays
  cases f with
  | cursor c =>
      obtain ⟨-, ⟨_, _, found, yielded, -⟩ | ⟨_, yielded, _⟩ | ⟨_, _, yielded, _⟩⟩ :=
        Feed.resume_cursor_cases next
      · cases yielded
        exact canonical_of_scan found
      · cases yielded
      · cases yielded
  | tape t =>
      obtain ⟨-, ⟨_, _, found, yielded, -⟩ | ⟨_, yielded, _⟩⟩ := Feed.resume_tape_cases next
      · cases yielded
        exact canonical_of_tokenize plays _ (List.mem_of_getElem? found)
      · cases yielded

theorem tokenize_sources {tokens : List Token} (h : ∀ token ∈ tokens, token.Canonical) :
    tokenize (tokens.flatMap Token.source) =
      .ok (tokens.map fun token => (token, token.source.length)) := by
  have pieces : ∀ piece ∈ tokens.map fun token => (([] : Text), token),
      (∀ c ∈ piece.1, c ∈ blanks) ∧ piece.2.Canonical := by
    intro piece member
    obtain ⟨token, inside, rfl⟩ := List.mem_map.mp member
    exact ⟨fun c none => (List.not_mem_nil none).elim, h token inside⟩
  have read := tokenize_printed [] pieces (fun c none => (List.not_mem_nil none).elim)
  simpa [printed, List.flatMap_map, List.map_map, Function.comp_def] using read

/-- Printing and reading are inverse on whole programs. Canonical tokens, with any blanks between
    them, are read back in order, each with its gap and its text. Conversely only canonical tokens
    are ever handed out, so a program can be replaced by the printed forms of its tokens. -/
theorem tokenize_inverts_printing :
    (∀ (pieces : List (Text × Token)) (last : Text),
      (∀ piece ∈ pieces, (∀ c ∈ piece.1, c ∈ blanks) ∧ piece.2.Canonical) →
      (∀ c ∈ last, c ∈ blanks) →
      tokenize (printed pieces ++ last) =
        .ok (pieces.map fun (gap, token) => (token, gap.length + token.source.length)) ∧
      ∀ inAdvance, ∃ f f', Feed.ofProgram inAdvance (printed pieces ++ last) = .ok f ∧
        f.drain = some
          (pieces.map fun (gap, token) => (token, gap.length + token.source.length), none, f')) ∧
    (∀ (program : Text) (f f' : Feed) (token : Token) (n : Nat), Feed.Reachable program f →
      f.resume = some (.yielded token n, f') → token.Canonical) ∧
    (∀ (program : Text) (tokens : List (Token × Nat)), tokenize program = .ok tokens →
      ∃ again, tokenize (tokens.flatMap fun (token, _) => token.source) = .ok again ∧
        again.map Prod.fst = tokens.map Prod.fst) := by
  refine ⟨?_, fun _ _ _ _ _ => canonical_of_yielded, ?_⟩
  · intro pieces last h blank
    have read := tokenize_printed last h blank
    exact ⟨read, Feed.drain_ofProgram_of_ok read⟩
  · intro program tokens read
    have canonical : ∀ token ∈ tokens.map Prod.fst, token.Canonical := by
      intro token member
      obtain ⟨entry, inside, rfl⟩ := List.mem_map.mp member
      exact canonical_of_tokenize read entry inside
    have again := tokenize_sources canonical
    rw [List.flatMap_map] at again
    exact ⟨_, again, by simp⟩

theorem tokenize_inverts_printing_adjacent :
    (∀ piece ∈ [([], Token.rotate 1), (['\n'], .apply (.index (.back 0))), ([], .apply .join)],
      (∀ c ∈ piece.1, c ∈ blanks) ∧ piece.2.Canonical) ∧
    tokenize "@1\n|-0|. ".toList =
      .ok [(.rotate 1, 2), (.apply (.index (.back 0)), 5), (.apply .join, 1)] := by
  have pieces : ∀ piece ∈ [([], Token.rotate 1), (['\n'], .apply (.index (.back 0))),
      ([], .apply .join)], (∀ c ∈ piece.1, c ∈ blanks) ∧ piece.2.Canonical := by
    intro piece member
    simp only [List.mem_cons, List.not_mem_nil, or_false] at member
    rcases member with rfl | rfl | rfl
    · exact ⟨by simp, by decide⟩
    · exact ⟨by simp [blanks], by decide⟩
    · exact ⟨by simp, by decide⟩
  exact ⟨pieces, (tokenize_inverts_printing.1 _ [' '] pieces (by simp [blanks])).1⟩

end QueueScript
