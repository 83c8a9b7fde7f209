import QueueScript.Proofs.Printing

/-! # Reading a program piece by piece

`Reads t tokens rest` holds if the tokens are read off the front of `t` one after the other and
`rest` is left. Each token takes a piece of the text, which is its blanks and its own characters,
and would be read from that piece alone as well. So the pieces lie side by side, and what has been
read is as long as all of them together (`extent`).

No piece depends on what stands behind it, up to a digit that would lengthen a count. As no program
begins with a digit, two programs put together read as the tokens of the one and then those of the
other (`tokenize_append`).
-/

namespace QueueScript

open Grammar

def extent : List (Token × Nat) → Nat
  | [] => 0
  | (_, n) :: tokens => n + extent tokens

/-- Blanks, and then one token as it is written. -/
def Piece (t : Text) (token : Token) : Prop :=
  ∃ gap leaf rule numbers, t = gap ++ leaf ∧ (∀ c ∈ gap, c ∈ blanks) ∧
    Leaf rule leaf numbers token ∧ Short numbers

/-- The tokens are read off the front of the text, and the rest is left. -/
inductive Reads : Text → List (Token × Nat) → Text → Prop where
  | stop (t : Text) : Reads t [] t
  | next {t rest : Text} {token : Token} {n : Nat} {tokens : List (Token × Nat)} :
      scan t = .ok (token, n) → Reads (t.drop n) tokens rest → Reads t ((token, n) :: tokens) rest

theorem extent_append (early late : List (Token × Nat)) :
    extent (early ++ late) = extent early + extent late := by
  induction early with
  | nil => simp [extent]
  | cons first early ih =>
      obtain ⟨token, n⟩ := first
      simp only [List.cons_append, extent, ih]
      omega

/-! ## Pieces -/

theorem noDigitNext_nil : NoDigitNext [] := by
  intro c member
  cases member

theorem noDigitNext_append {t more : Text} (h : NoDigitNext t) (ends : NoDigitNext more) :
    NoDigitNext (t ++ more) := by
  cases t with
  | nil => exact ends
  | cons c t => exact h

theorem noDigitNext_blank {t : Text} (blank : ∀ c ∈ t, c ∈ blanks) : NoDigitNext t := by
  intro c member
  exact isDigit_of_mem_blanks (blank c (List.mem_of_mem_head? member))

theorem Piece.scan_append {t more : Text} {token : Token} (h : Piece t token)
    (ends : NoDigitNext more) : scan (t ++ more) = .ok (token, t.length) := by
  obtain ⟨gap, leaf, rule, numbers, rfl, blank, isLeaf, short⟩ := h
  have begins : Begins (leaf ++ more) leaf numbers token := ⟨rule, more, rfl, isLeaf, fun _ => ends⟩
  rw [List.append_assoc, scan_of_begins blank begins short, List.length_append]

theorem Grammar.Leaf.last {rule leaf : Text} {numbers : List Text} {token : Token}
    (h : Leaf rule leaf numbers token) : ∃ front c, leaf = front ++ [c] ∧ c ∉ blanks := by
  cases h with
  | opcode member =>
      obtain ⟨c, tail, same, notBlank, -⟩ := (Leaf.opcode member).head
      exact ⟨[], c, by simp_all, notBlank⟩
  | @rotate digits inside =>
      obtain rfl | ⟨front, c, rfl⟩ := List.eq_nil_or_concat digits
      · exact ⟨[], '@', rfl, by decide⟩
      · refine ⟨'@' :: front, c, by simp, ?_⟩
        intro blank
        have digit := inside c (by simp)
        rw [isDigit_of_mem_blanks blank] at digit
        cases digit
  | characters => exact ⟨['/'], '/', rfl, by decide⟩
  | @literal literal _ _ => exact ⟨"/\"".toList ++ literal ++ ['"'], '/', by simp, by decide⟩
  | map change => exact ⟨['\x7b', change.symbol], '\x7d', rfl, by decide⟩
  | filter letters => exact ⟨['[', letters.symbol], ']', rfl, by decide⟩
  | slice | index => exact ⟨_, '|', rfl, by decide⟩

theorem Piece.last {t : Text} {token : Token} (h : Piece t token) :
    ∃ front c, t = front ++ [c] ∧ c ∉ blanks := by
  obtain ⟨gap, leaf, rule, numbers, rfl, -, isLeaf, -⟩ := h
  obtain ⟨front, c, rfl, notBlank⟩ := isLeaf.last
  exact ⟨gap ++ front, c, by simp, notBlank⟩

theorem exists_leaf_of_scan {t : Text} {token : Token} {n : Nat} (h : scan t = .ok (token, n)) :
    ∃ gap leaf rest rule numbers, t = gap ++ (leaf ++ rest) ∧ n = gap.length + leaf.length ∧
      (∀ c ∈ gap, c ∈ blanks) ∧ Leaf rule leaf numbers token ∧ Short numbers ∧
      (rule = "rotate".toList → NoDigitNext rest) := by
  obtain ⟨gap, body, rfl, blank, head⟩ := exists_gap t
  obtain ⟨-, outcome⟩ | ⟨leaf, numbers, found, begins, short, outcome⟩ | ⟨-, -, outcome⟩ :=
    scan_cases blank head
  · rw [h] at outcome
    cases outcome
  · rw [h] at outcome
    cases outcome
    obtain ⟨rule, rest, rfl, isLeaf, ends⟩ := begins
    exact ⟨gap, leaf, rest, rule, numbers, rfl, rfl, blank, isLeaf, short, ends⟩
  · rw [h] at outcome
    cases outcome

/-- The piece that a scan takes is read alone as it is read here. -/
theorem scan_take {t : Text} {token : Token} {n : Nat} (h : scan t = .ok (token, n)) :
    Piece (t.take n) token ∧ scan (t.take n) = .ok (token, n) := by
  obtain ⟨gap, leaf, rest, rule, numbers, rfl, rfl, blank, isLeaf, short, -⟩ :=
    exists_leaf_of_scan h
  have isPiece : Piece (gap ++ leaf) token := ⟨gap, leaf, rule, numbers, rfl, blank, isLeaf, short⟩
  have alone := isPiece.scan_append noDigitNext_nil
  rw [List.append_nil] at alone
  rw [← List.append_assoc, ← List.length_append, List.take_left]
  exact ⟨isPiece, alone⟩

/-- A scan does not look behind its token, up to a digit, and counts any blanks put before it. -/
theorem scan_between {gap t more : Text} {token : Token} {n : Nat} (h : scan t = .ok (token, n))
    (blank : ∀ c ∈ gap, c ∈ blanks) (noDigit : NoDigitNext more) :
    scan (gap ++ (t ++ more)) = .ok (token, gap.length + n) := by
  obtain ⟨inner, leaf, rest, rule, numbers, rfl, rfl, blankInner, isLeaf, short, ends⟩ :=
    exists_leaf_of_scan h
  have begins : Begins (leaf ++ (rest ++ more)) leaf numbers token :=
    ⟨rule, rest ++ more, rfl, isLeaf, fun count => noDigitNext_append (ends count) noDigit⟩
  have blankBoth : ∀ c ∈ gap ++ inner, c ∈ blanks := by
    intro c member
    exact (List.mem_append.mp member).elim (blank c) (blankInner c)
  have read := scan_of_begins blankBoth begins short
  simp only [List.append_assoc, List.length_append, Nat.add_assoc] at read ⊢
  exact read

theorem scan_eq_empty_iff {t : Text} : scan t = .error .empty ↔ ∀ c ∈ t, c ∈ blanks := by
  constructor
  · intro h
    obtain ⟨gap, body, rfl, blank, head⟩ := exists_gap t
    obtain ⟨rfl, -⟩ | ⟨leaf, numbers, found, begins, short, outcome⟩ | ⟨-, -, outcome⟩ :=
      scan_cases blank head
    · simpa using blank
    · rw [h] at outcome
      cases outcome
    · rw [h] at outcome
      cases outcome
  · intro blank
    have read := scan_of_empty blank
    rwa [List.append_nil] at read

theorem unknown_of_scan {t : Text} {fault : ParseFault} (h : scan t = .error fault)
    (notEmpty : fault ≠ .empty) : fault = .unknownToken (Text.skipBlanks t) := by
  obtain ⟨gap, body, rfl, blank, head⟩ := exists_gap t
  obtain ⟨-, outcome⟩ | ⟨leaf, numbers, found, begins, short, outcome⟩ | ⟨-, -, outcome⟩ :=
    scan_cases blank head
  · rw [h] at outcome
    cases outcome
    exact absurd rfl notEmpty
  · rw [h] at outcome
    cases outcome
  · rw [h] at outcome
    cases outcome
    rw [skipBlanks_append blank head]

/-! ## Whole texts -/

namespace Reads

variable {t rest : Text} {tokens early late : List (Token × Nat)}

theorem trans {u : Text} (first : Reads t early u) (second : Reads u late rest) :
    Reads t (early ++ late) rest := by
  induction first with
  | stop t => exact second
  | next found _ ih => exact .next found (ih second)

theorem rest_eq (h : Reads t tokens rest) :
    extent tokens ≤ t.length ∧ rest = t.drop (extent tokens) := by
  induction h with
  | stop t => simp [extent]
  | @next t rest token n tokens found _ ih =>
      obtain ⟨inside, rfl⟩ := ih
      have taken := le_length_of_scan found
      rw [List.length_drop] at inside
      rw [List.drop_drop]
      exact ⟨by simp only [extent]; omega, rfl⟩

theorem split (h : Reads t (early ++ late) rest) :
    Reads t early (t.drop (extent early)) ∧ Reads (t.drop (extent early)) late rest := by
  induction early generalizing t with
  | nil => exact ⟨.stop t, h⟩
  | cons first early ih =>
      obtain ⟨token, n⟩ := first
      cases h with
      | next found later =>
          obtain ⟨front, back⟩ := ih later
          rw [List.drop_drop] at front back
          exact ⟨.next found front, back⟩

theorem append_right (h : Reads t tokens rest) {more : Text} (noDigit : NoDigitNext more) :
    Reads (t ++ more) tokens (rest ++ more) := by
  induction h with
  | stop t => exact .stop (t ++ more)
  | @next t rest token n tokens found _ ih =>
      have again : scan ([] ++ (t ++ more)) = .ok (token, 0 + n) :=
        scan_between found (by simp) noDigit
      rw [List.nil_append, Nat.zero_add] at again
      rw [← List.drop_append_of_le_length (le_length_of_scan found)] at ih
      exact .next again ih

theorem last_not_blank (h : Reads t tokens rest) :
    ∀ c ∈ (t.take (extent tokens)).getLast?, c ∉ blanks := by
  induction h with
  | stop t => simp [extent]
  | @next t rest token n tokens found _ ih =>
      intro c member
      rw [extent, List.take_add, List.getLast?_append] at member
      cases behind : ((t.drop n).take (extent tokens)).getLast? with
      | some last =>
          rw [behind, Option.some_or] at member
          exact ih c (behind ▸ member)
      | none =>
          obtain ⟨front, last, same, notBlank⟩ := (scan_take found).1.last
          rw [behind, Option.none_or, same, List.getLast?_concat] at member
          cases member
          exact notBlank

theorem tokenize (h : Reads t tokens rest) :
    tokenize t = (QueueScript.tokenize rest).map (tokens ++ ·) := by
  induction h with
  | stop t => cases QueueScript.tokenize t <;> rfl
  | @next t rest token n tokens found _ ih =>
      rw [tokenize_of_scan found, ih]
      cases QueueScript.tokenize rest <;> rfl

end Reads

theorem reads_of_tokenize {t : Text} {tokens : List (Token × Nat)} (h : tokenize t = .ok tokens) :
    ∃ rest, Reads t tokens rest ∧ ∀ c ∈ rest, c ∈ blanks := by
  fun_induction tokenize t generalizing tokens with
  | case1 t found =>
      cases h
      exact ⟨t, .stop t, scan_eq_empty_iff.mp found⟩
  | case2 t fault notEmpty found => cases h
  | case3 t token n found ih =>
      cases later : tokenize (t.drop n) with
      | error fault =>
          rw [later] at h
          cases h
      | ok tokens' =>
          rw [later] at h
          cases h
          obtain ⟨rest, reads, blank⟩ := ih later
          exact ⟨rest, .next found reads, blank⟩

/-- A program ends, but for its last blanks, where its last token does. -/
theorem extent_of_tokenize {t : Text} {tokens : List (Token × Nat)} (h : tokenize t = .ok tokens) :
    extent tokens = (t.reverse.dropWhile Text.isBlank).length := by
  obtain ⟨rest, reads, blank⟩ := reads_of_tokenize h
  obtain ⟨inside, same⟩ := reads.rest_eq
  have whole : t.reverse = rest.reverse ++ (t.take (extent tokens)).reverse := by
    rw [← List.reverse_append, same, List.take_append_drop]
  have blankRest : ∀ c ∈ rest.reverse, Text.isBlank c = true := by
    intro c member
    exact isBlank_iff.mpr (blank c (List.mem_reverse.mp member))
  have stops : ∀ c ∈ (t.take (extent tokens)).reverse.head?, Text.isBlank c = false := by
    intro c member
    rw [List.head?_reverse] at member
    rw [Bool.eq_false_iff]
    exact fun isBlank => reads.last_not_blank c member (isBlank_iff.mp isBlank)
  rw [whole, (span_append blankRest stops).2, List.length_reverse, List.length_take]
  omega

theorem scan_after {t : Text} {tokens : List (Token × Nat)} (h : tokenize t = .ok tokens)
    (k : Nat) :
    scan (t.drop (extent (tokens.take k))) =
      match tokens[k]? with
      | some entry => .ok entry
      | none => .error .empty := by
  obtain ⟨rest, reads, blank⟩ := reads_of_tokenize h
  rw [← List.take_append_drop k tokens] at reads
  obtain ⟨-, later⟩ := reads.split
  cases entry : tokens[k]? with
  | none =>
      rw [List.drop_eq_nil_of_le (List.getElem?_eq_none_iff.mp entry)] at later
      cases later
      exact scan_eq_empty_iff.mpr blank
  | some found =>
      obtain ⟨inside, rfl⟩ := List.getElem?_eq_some_iff.mp entry
      rw [List.drop_eq_getElem_cons inside] at later
      generalize tokens[k] = first at later
      cases later with
      | next here _ => exact here

/-! ## Programs put together -/

/-- The tokens with more blanks in front of the first. -/
def widen (k : Nat) : List (Token × Nat) → List (Token × Nat)
  | [] => []
  | (token, n) :: tokens => (token, k + n) :: tokens

theorem map_fst_widen (k : Nat) (tokens : List (Token × Nat)) :
    (widen k tokens).map Prod.fst = tokens.map Prod.fst := by
  cases tokens <;> rfl

theorem widen_zero (tokens : List (Token × Nat)) : widen 0 tokens = tokens := by
  cases tokens with
  | nil => rfl
  | cons first tokens => simp [widen]

theorem noDigitNext_of_tokenize {t : Text} {tokens : List (Token × Nat)}
    (h : tokenize t = .ok tokens) : NoDigitNext t := by
  obtain ⟨rest, reads, blank⟩ := reads_of_tokenize h
  cases reads with
  | stop => exact noDigitNext_blank blank
  | next found _ =>
      obtain ⟨gap, leaf, behind, rule, numbers, rfl, -, blankGap, isLeaf, -⟩ :=
        exists_leaf_of_scan found
      obtain ⟨c, tail, rfl, -, notDigit⟩ := isLeaf.head
      exact noDigitNext_gap blankGap (noDigitNext_cons notDigit)

theorem tokenize_gap {gap t : Text} {tokens : List (Token × Nat)} (blank : ∀ c ∈ gap, c ∈ blanks)
    (h : tokenize t = .ok tokens) : tokenize (gap ++ t) = .ok (widen gap.length tokens) := by
  obtain ⟨rest, reads, blankRest⟩ := reads_of_tokenize h
  cases reads with
  | stop =>
      apply tokenize_of_empty
      rw [scan_eq_empty_iff]
      intro c member
      exact (List.mem_append.mp member).elim (blank c) (blankRest c)
  | @next _ _ token n tokens found later =>
      have read := scan_between found blank noDigitNext_nil
      rw [List.append_nil] at read
      rw [tokenize_of_scan read, List.drop_append, List.drop_eq_nil_of_le (by omega),
        List.nil_append, Nat.add_sub_cancel_left, later.tokenize,
        tokenize_of_empty (scan_eq_empty_iff.mpr blankRest)]
      simp [widen, Except.map]

/-- Two programs put together: the blanks that end the first count for the second. -/
theorem tokenize_append {p q : Text} {early late : List (Token × Nat)}
    (first : tokenize p = .ok early) (second : tokenize q = .ok late) :
    extent early ≤ p.length ∧
      tokenize (p ++ q) = .ok (early ++ widen (p.length - extent early) late) := by
  obtain ⟨rest, reads, blank⟩ := reads_of_tokenize first
  obtain ⟨inside, same⟩ := reads.rest_eq
  have long : rest.length = p.length - extent early := by rw [same, List.length_drop]
  refine ⟨inside, ?_⟩
  rw [(reads.append_right (noDigitNext_of_tokenize second)).tokenize, tokenize_gap blank second, long]
  rfl

end QueueScript
