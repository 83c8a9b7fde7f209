import QueueScript.Token.Lexer

/-! # The grammar of tokens

`Leaf` says which texts each rule of the grammar matches, which numbers are spelled out in them
and which token they denote, whatever the size of the numbers. `Begins` puts a leaf in front of a
text. A scan finds exactly the leaves of the grammar: `scan?_of_leaf` reads every leaf back, and
`leaf_of_scan?` finds one behind every lexeme that was read. The grammar has one ambiguity, a
count that could stop before its last digit, and `Begins` settles it.
-/

namespace QueueScript.Grammar

def blanks : Text :=
  [' ', '\t', '\n', '\x0c', '\r']

def opcodes : List (Char × Token) :=
  [('<', .input), ('>', .output), ('.', .apply .join), ('~', .concat), ('*', .copy),
    ('v', .apply (.check .vowel)), ('c', .apply (.check .consonant)),
    ('_', .apply (.check .lower)), ('^', .apply (.check .upper))]

def Digits (t : Text) : Prop :=
  ∀ c ∈ t, Text.isDigit c = true

instance (t : Text) : Decidable (Digits t) :=
  decidable_of_decidable_of_iff (p := t.all Text.isDigit = true) List.all_eq_true

def NoDigitNext (t : Text) : Prop :=
  ∀ c ∈ t.head?, Text.isDigit c = false

/-- A signed number as written, its digits, and the bound it denotes. The sign tells the end from
    which the bound counts, so `-0` is not `0`. -/
inductive Signed : Text → Text → Bound → Prop where
  | front {digits : Text} : digits ≠ [] → Digits digits →
      Signed digits digits (.front (Text.toNat digits))
  | back {digits : Text} : digits ≠ [] → Digits digits →
      Signed ('-' :: digits) digits (.back (Text.toNat digits))

inductive Optional : Text → List Text → Option Bound → Prop where
  | absent : Optional [] [] none
  | present {t digits : Text} {bound : Bound} : Signed t digits bound →
      Optional t [digits] (some bound)

/-- `Leaf rule t numbers token`: the rule matches `t`, which denotes `token`. The digits of each
    number in `t` are listed in `numbers`; those inside a literal are not numbers. -/
inductive Leaf : Text → Text → List Text → Token → Prop where
  | opcode {symbol : Char} {token : Token} : (symbol, token) ∈ opcodes →
      Leaf "opcode".toList [symbol] [] token
  | rotate {digits : Text} : Digits digits →
      Leaf "rotate".toList ('@' :: digits) [digits]
        (.rotate (if Text.toNat digits = 0 then 1 else Text.toNat digits))
  | characters : Leaf "split".toList "//".toList [] (.apply (.split none))
  | literal {literal : Text} : '"' ∉ literal → '/' ∉ literal →
      Leaf "split".toList ("/\"".toList ++ literal ++ "\"/".toList) []
        (.apply (.split (some literal)))
  | map (change : CaseMap) :
      Leaf "map".toList ['\x7b', change.symbol, '\x7d'] [] (.apply (.mapCase change))
  | filter (letters : Check) :
      Leaf "filter".toList ['[', letters.symbol, ']'] [] (.apply (.filter letters))
  | slice {a b : Text} {before after : List Text} {first last : Option Bound} :
      Optional a before first → Optional b after last →
      Leaf "slice".toList (['|'] ++ a ++ ['.'] ++ b ++ ['|']) (before ++ after)
        (.apply (.slice ⟨first, last⟩))
  | index {a digits : Text} {bound : Bound} : Signed a digits bound →
      Leaf "index".toList (['|'] ++ a ++ ['|']) [digits] (.apply (.index bound))

/-- No number is too long to be read. -/
def Short (numbers : List Text) : Prop :=
  ∀ digits ∈ numbers, digits.length ≤ 4300

instance (numbers : List Text) : Decidable (Short numbers) :=
  decidable_of_decidable_of_iff (p := numbers.all (·.length ≤ 4300) = true) (by simp [Short])

/-- The text begins with a leaf. The count of a rotation goes on as long as there are digits. -/
def Begins (body leaf : Text) (numbers : List Text) (token : Token) : Prop :=
  ∃ rule rest, body = leaf ++ rest ∧ Leaf rule leaf numbers token ∧
    (rule = "rotate".toList → NoDigitNext rest)

theorem isBlank_iff {c : Char} : Text.isBlank c = true ↔ c ∈ blanks := by
  simp [Text.isBlank, blanks, or_assoc]

theorem noDigitNext_cons {c : Char} {t : Text} (h : Text.isDigit c = false) :
    NoDigitNext (c :: t) := by
  intro next member
  cases member
  exact h

/-- A class of characters that holds in a whole run and fails right after it cuts the text there. -/
theorem span_append {p : Char → Bool} {run rest : Text} (inside : ∀ c ∈ run, p c = true)
    (outside : ∀ c ∈ rest.head?, p c = false) :
    (run ++ rest).takeWhile p = run ∧ (run ++ rest).dropWhile p = rest := by
  rw [List.takeWhile_append_of_pos inside, List.dropWhile_append_of_pos inside]
  cases rest with
  | nil => simp
  | cons c rest => simp [outside c rfl]

theorem noDigitNext_dropWhile (t : Text) : NoDigitNext (t.dropWhile Text.isDigit) := by
  intro c member
  have := List.head?_dropWhile_not Text.isDigit t
  rw [Option.mem_def.mp member] at this
  simpa using this

theorem digits_takeWhile (t : Text) : Digits (t.takeWhile Text.isDigit) :=
  List.all_eq_true.mp List.all_takeWhile

/-! ## Numbers -/

theorem scan?_numeral {n : Numeral} (rest : Text) (nonempty : n.digits ≠ [])
    (inside : Digits n.digits) (ends : NoDigitNext rest) :
    Numeral.scan? (n.text ++ rest) = some (n, rest) := by
  obtain ⟨taken, left⟩ := span_append inside ends
  obtain ⟨negative, digits⟩ := n
  cases digits with
  | nil => exact absurd rfl nonempty
  | cons c digits =>
      simp only [List.cons_append] at taken left
      cases negative with
      | true => simp [Numeral.scan?, Numeral.text, taken, left]
      | false =>
          have unsigned : c ≠ '-' := by
            rintro rfl
            exact absurd (inside '-' (List.mem_cons_self ..)) (by decide)
          simp [Numeral.scan?, Numeral.text, unsigned, taken, left]

theorem bound?_eq (n : Numeral) :
    n.bound? = if n.digits.length ≤ 4300 then
      some (if n.negative then .back (Text.toNat n.digits) else .front (Text.toNat n.digits))
    else none := by
  by_cases short : n.digits.length ≤ 4300
  · simp [Numeral.bound?, number?, maxDigits, short]
  · simp [Numeral.bound?, number?, maxDigits, short]

theorem Signed.numeral {a digits : Text} {bound : Bound} (h : Signed a digits bound) :
    ∃ n : Numeral, n.text = a ∧ n.digits = digits ∧ digits ≠ [] ∧ Digits digits ∧
      n.bound? = if digits.length ≤ 4300 then some bound else none := by
  cases h with
  | front nonempty inside => exact ⟨⟨false, a⟩, rfl, rfl, nonempty, inside, bound?_eq _⟩
  | back nonempty inside => exact ⟨⟨true, digits⟩, rfl, rfl, nonempty, inside, bound?_eq _⟩

theorem signed_numeral {n : Numeral} (nonempty : n.digits ≠ []) (inside : Digits n.digits) :
    ∃ bound, Signed n.text n.digits bound := by
  obtain ⟨negative, digits⟩ := n
  cases negative with
  | true => exact ⟨_, .back nonempty inside⟩
  | false => exact ⟨_, .front nonempty inside⟩

theorem signed_of_scan? {t rest : Text} {n : Numeral} (h : Numeral.scan? t = some (n, rest)) :
    ∃ bound, Signed n.text n.digits bound := by
  unfold Numeral.scan? at h
  simp only at h
  split at h
  · cases h
  · rename_i nonempty
    simp only [Option.some.injEq, Prod.mk.injEq] at h
    obtain ⟨rfl, -⟩ := h
    exact signed_numeral nonempty (digits_takeWhile _)

theorem Optional.scanOptional {a : Text} {numbers : List Text} {bound : Option Bound}
    (h : Optional a numbers bound) (c : Char) (rest : Text) (notDigit : Text.isDigit c = false)
    (notSign : c ≠ '-') :
    ∃ n, Numeral.scanOptional (a ++ c :: rest) = (n, c :: rest) ∧
      (n.map Numeral.text).getD [] = a ∧
      Lexeme.optionalBound? n = if Short numbers then some bound else none := by
  cases h with
  | absent =>
      refine ⟨none, ?_, rfl, ?_⟩
      · simp [Numeral.scanOptional, Numeral.scan?, notDigit, notSign]
      · simp [Lexeme.optionalBound?, Short]
  | present signed =>
      obtain ⟨n, rfl, rfl, nonempty, inside, denoted⟩ := signed.numeral
      refine ⟨some n, ?_, rfl, ?_⟩
      · simp [Numeral.scanOptional, scan?_numeral _ nonempty inside (noDigitNext_cons notDigit)]
      · simp only [Lexeme.optionalBound?, denoted, Short, List.mem_singleton, forall_eq]
        split <;> rfl

theorem optional_of_scanOptional {t rest : Text} {n : Option Numeral}
    (h : Numeral.scanOptional t = (n, rest)) :
    ∃ numbers bound, Optional ((n.map Numeral.text).getD []) numbers bound := by
  unfold Numeral.scanOptional at h
  split at h
  · rename_i found
    simp only [Prod.mk.injEq] at h
    obtain ⟨rfl, rfl⟩ := h
    obtain ⟨bound, signed⟩ := signed_of_scan? found
    exact ⟨_, _, .present signed⟩
  · simp only [Prod.mk.injEq] at h
    obtain ⟨rfl, rfl⟩ := h
    exact ⟨_, _, .absent⟩

/-! ## Leaves -/

/-- What a leaf is read as: a lexeme with its text and, unless a number is too long, its token. -/
def ReadAs (leaf rest : Text) (numbers : List Text) (token : Token) : Prop :=
  ∃ lexeme, Lexeme.scan? (leaf ++ rest) = some (lexeme, rest) ∧ lexeme.text = leaf ∧
    lexeme.token? = if Short numbers then some token else none

theorem short_nil : Short [] := by
  intro digits member
  cases member

theorem short_singleton {digits : Text} : Short [digits] ↔ digits.length ≤ 4300 := by
  simp [Short]

theorem short_append {before after : List Text} :
    Short (before ++ after) ↔ Short before ∧ Short after := by
  simp [Short, or_imp, forall_and]

theorem readAs_literal {literal rest : Text} (noQuote : '"' ∉ literal) (noSlash : '/' ∉ literal) :
    ReadAs ("/\"".toList ++ literal ++ "\"/".toList) rest []
      (.apply (.split (some literal))) := by
  have inside : ∀ c ∈ literal, Lexeme.isLiteralChar c = true := by
    intro c member
    have quote : c ≠ '"' := fun same => noQuote (same ▸ member)
    have slash : c ≠ '/' := fun same => noSlash (same ▸ member)
    simp [Lexeme.isLiteralChar, quote, slash]
  have outside : ∀ c ∈ ('"' :: '/' :: rest).head?, Lexeme.isLiteralChar c = false := by
    intro c member
    cases member
    rfl
  obtain ⟨taken, left⟩ := span_append inside outside
  refine ⟨.plain (.apply (.split (some literal))), ?_, ?_, ?_⟩
  · have body : "/\"".toList ++ literal ++ "\"/".toList ++ rest =
        '/' :: '"' :: (literal ++ '"' :: '/' :: rest) := by simp
    rw [body]
    simp only [Lexeme.scan?, Lexeme.scanLiteral?, left, taken]
  · rfl
  · simp [short_nil, Lexeme.token?]

theorem readAs_slice {a b rest : Text} {before after : List Text} {first last : Option Bound}
    (start : Optional a before first) (stop : Optional b after last) :
    ReadAs (['|'] ++ a ++ ['.'] ++ b ++ ['|']) rest (before ++ after)
      (.apply (.slice ⟨first, last⟩)) := by
  obtain ⟨n, readFirst, textFirst, boundFirst⟩ :=
    start.scanOptional '.' (b ++ '|' :: rest) (by decide) (by decide)
  obtain ⟨k, readLast, textLast, boundLast⟩ :=
    stop.scanOptional '|' rest (by decide) (by decide)
  refine ⟨.slice n k, ?_, ?_, ?_⟩
  · have body : ['|'] ++ a ++ ['.'] ++ b ++ ['|'] ++ rest =
        '|' :: (a ++ '.' :: (b ++ '|' :: rest)) := by simp
    rw [body]
    simp only [Lexeme.scan?, Lexeme.scanBar?, readFirst, readLast]
  · simp only [Lexeme.text, textFirst, textLast]
  · simp only [Lexeme.token?, boundFirst, boundLast, short_append]
    by_cases shortFirst : Short before
    · by_cases shortLast : Short after
      · simp [shortFirst, shortLast]
      · simp [shortFirst, shortLast]
    · simp [shortFirst]

theorem readAs_index {a digits rest : Text} {bound : Bound} (signed : Signed a digits bound) :
    ReadAs (['|'] ++ a ++ ['|']) rest [digits] (.apply (.index bound)) := by
  obtain ⟨n, rfl, rfl, nonempty, inside, denoted⟩ := signed.numeral
  have read := scan?_numeral ('|' :: rest) nonempty inside (noDigitNext_cons (by decide))
  refine ⟨.index n, ?_, rfl, ?_⟩
  · have body : ['|'] ++ n.text ++ ['|'] ++ rest = '|' :: (n.text ++ '|' :: rest) := by simp
    rw [body]
    simp only [Lexeme.scan?, Lexeme.scanBar?, Numeral.scanOptional, read]
  · simp only [Lexeme.token?, denoted, short_singleton]
    split <;> rfl

theorem readAs_rotate {digits rest : Text} (inside : Digits digits) (ends : NoDigitNext rest) :
    ReadAs ('@' :: digits) rest [digits]
      (.rotate (if Text.toNat digits = 0 then 1 else Text.toNat digits)) := by
  obtain ⟨taken, left⟩ := span_append inside ends
  refine ⟨.rotate digits, ?_, rfl, ?_⟩
  · simp only [List.cons_append, Lexeme.scan?, taken, left]
  · simp only [Lexeme.token?, number?, maxDigits, short_singleton]
    by_cases short : digits.length ≤ 4300
    · simp [short]
    · simp [short]

/-- Every leaf is read back, in front of any text that does not lengthen its count. -/
theorem scan?_of_leaf {rule leaf rest : Text} {numbers : List Text} {token : Token}
    (h : Leaf rule leaf numbers token) (ends : rule = "rotate".toList → NoDigitNext rest) :
    ReadAs leaf rest numbers token := by
  cases h with
  | opcode member =>
      simp only [opcodes, List.mem_cons, Prod.mk.injEq, List.not_mem_nil, or_false] at member
      rcases member with ⟨rfl, rfl⟩ | ⟨rfl, rfl⟩ | ⟨rfl, rfl⟩ | ⟨rfl, rfl⟩ | ⟨rfl, rfl⟩ |
        ⟨rfl, rfl⟩ | ⟨rfl, rfl⟩ | ⟨rfl, rfl⟩ | ⟨rfl, rfl⟩
      all_goals exact ⟨.plain _, rfl, rfl, rfl⟩
  | rotate inside => exact readAs_rotate inside (ends rfl)
  | characters => exact ⟨.plain _, rfl, rfl, rfl⟩
  | literal noQuote noSlash => exact readAs_literal noQuote noSlash
  | map change => cases change <;> exact ⟨.plain _, rfl, rfl, rfl⟩
  | filter letters => cases letters <;> exact ⟨.plain _, rfl, rfl, rfl⟩
  | slice start stop => exact readAs_slice start stop
  | index signed => exact readAs_index signed

theorem leaf_of_scanLiteral? {t rest : Text} {lexeme : Lexeme}
    (h : Lexeme.scanLiteral? t = some (lexeme, rest)) :
    ∃ token, Leaf "split".toList lexeme.text [] token := by
  unfold Lexeme.scanLiteral? at h
  split at h
  · simp only [Option.some.injEq, Prod.mk.injEq] at h
    obtain ⟨rfl, -⟩ := h
    have inside : ∀ c ∈ t.takeWhile Lexeme.isLiteralChar, Lexeme.isLiteralChar c = true :=
      List.all_eq_true.mp List.all_takeWhile
    refine ⟨_, .literal ?_ ?_⟩
    · intro member
      exact absurd (inside _ member) (by decide)
    · intro member
      exact absurd (inside _ member) (by decide)
  · cases h

theorem leaf_of_scanBar? {t rest : Text} {lexeme : Lexeme}
    (h : Lexeme.scanBar? t = some (lexeme, rest)) :
    ∃ rule numbers token, rule ≠ "rotate".toList ∧ Leaf rule lexeme.text numbers token := by
  unfold Lexeme.scanBar? at h
  split at h
  · rename_i readFirst
    split at h
    · rename_i readLast
      simp only [Option.some.injEq, Prod.mk.injEq] at h
      obtain ⟨rfl, -⟩ := h
      obtain ⟨_, _, start⟩ := optional_of_scanOptional readFirst
      obtain ⟨_, _, stop⟩ := optional_of_scanOptional readLast
      exact ⟨_, _, _, by decide, .slice start stop⟩
    · cases h
  · rename_i bound rest' read
    simp only [Option.some.injEq, Prod.mk.injEq] at h
    obtain ⟨rfl, -⟩ := h
    unfold Numeral.scanOptional at read
    split at read
    · rename_i found
      simp only [Prod.mk.injEq, Option.some.injEq] at read
      obtain ⟨rfl, -⟩ := read
      obtain ⟨_, signed⟩ := signed_of_scan? found
      exact ⟨_, _, _, by decide, .index signed⟩
    · cases read
  · cases h

theorem leaf_of_opcode {symbol : Char} {token : Token} {rest : Text}
    (written : token.source = [symbol]) (member : (symbol, token) ∈ opcodes) :
    ∃ rule numbers denoted, Leaf rule (Lexeme.plain token).text numbers denoted ∧
      (rule = "rotate".toList → NoDigitNext rest) := by
  refine ⟨"opcode".toList, [], token, ?_, fun same => absurd same (by decide)⟩
  simpa only [Lexeme.text, written] using Leaf.opcode member

/-- Behind every lexeme that was read stands a leaf. -/
theorem leaf_of_scan? {t rest : Text} {lexeme : Lexeme}
    (h : Lexeme.scan? t = some (lexeme, rest)) :
    ∃ rule numbers token, Leaf rule lexeme.text numbers token ∧
      (rule = "rotate".toList → NoDigitNext rest) := by
  unfold Lexeme.scan? at h
  split at h
  case h_10 =>
    simp only [Option.some.injEq, Prod.mk.injEq] at h
    obtain ⟨rfl, rfl⟩ := h
    exact ⟨_, _, _, .rotate (digits_takeWhile _), fun _ => noDigitNext_dropWhile _⟩
  case h_11 =>
    simp only [Option.some.injEq, Prod.mk.injEq] at h
    obtain ⟨rfl, -⟩ := h
    exact ⟨_, _, _, .characters, fun same => absurd same (by decide)⟩
  case h_12 =>
    obtain ⟨_, leaf⟩ := leaf_of_scanLiteral? h
    exact ⟨_, _, _, leaf, fun same => absurd same (by decide)⟩
  case h_13 =>
    obtain ⟨change, found, eq⟩ := Option.map_eq_some_iff.mp h
    simp only [Prod.mk.injEq] at eq
    obtain ⟨rfl, -⟩ := eq
    exact ⟨_, _, _, .map change, fun same => absurd same (by decide)⟩
  case h_14 =>
    obtain ⟨letters, found, eq⟩ := Option.map_eq_some_iff.mp h
    simp only [Prod.mk.injEq] at eq
    obtain ⟨rfl, -⟩ := eq
    exact ⟨_, _, _, .filter letters, fun same => absurd same (by decide)⟩
  case h_15 =>
    obtain ⟨_, _, _, other, leaf⟩ := leaf_of_scanBar? h
    exact ⟨_, _, _, leaf, fun same => absurd same other⟩
  case h_16 => cases h
  -- The opcodes are left.
  all_goals
    simp only [Option.some.injEq, Prod.mk.injEq] at h
    obtain ⟨rfl, -⟩ := h
    exact leaf_of_opcode rfl (by decide)

/-- No leaf begins with a blank, nor with a digit that a count in front of it could take. -/
theorem Leaf.head {rule leaf : Text} {numbers : List Text} {token : Token}
    (h : Leaf rule leaf numbers token) :
    ∃ c tail, leaf = c :: tail ∧ c ∉ blanks ∧ Text.isDigit c = false := by
  cases h with
  | opcode member =>
      refine ⟨_, _, rfl, ?_⟩
      simp only [opcodes, List.mem_cons, Prod.mk.injEq, List.not_mem_nil, or_false] at member
      rcases member with ⟨rfl, -⟩ | ⟨rfl, -⟩ | ⟨rfl, -⟩ | ⟨rfl, -⟩ | ⟨rfl, -⟩ | ⟨rfl, -⟩ |
        ⟨rfl, -⟩ | ⟨rfl, -⟩ | ⟨rfl, -⟩
      all_goals decide
  | rotate | characters | literal | map | filter | slice | index => exact ⟨_, _, rfl, by decide⟩

/-! ## Scanning -/

section Scanning

variable {gap body : Text}

theorem skipBlanks_append (blank : ∀ c ∈ gap, c ∈ blanks) (head : ∀ c ∈ body.head?, c ∉ blanks) :
    Text.skipBlanks (gap ++ body) = body := by
  have inside : ∀ c ∈ gap, Text.isBlank c = true := fun c member => isBlank_iff.mpr (blank c member)
  have outside : ∀ c ∈ body.head?, Text.isBlank c = false := by
    intro c member
    rw [Bool.eq_false_iff]
    exact fun blank => head c member (isBlank_iff.mp blank)
  exact (span_append inside outside).2

theorem scan_of_empty (blank : ∀ c ∈ gap, c ∈ blanks) : scan (gap ++ []) = .error .empty := by
  have skipped : Text.skipBlanks (gap ++ []) = [] := skipBlanks_append blank (by simp)
  simp only [scan, skipped]

theorem scan_append (blank : ∀ c ∈ gap, c ∈ blanks) (head : ∀ c ∈ body.head?, c ∉ blanks)
    (nonempty : body ≠ []) :
    scan (gap ++ body) =
      match Lexeme.scan? body with
      | none => .error (.unknownToken body)
      | some (lexeme, _) =>
          match lexeme.token? with
          | none => .error (.unknownToken body)
          | some token => .ok (token, gap.length + lexeme.text.length) := by
  have skipped := skipBlanks_append blank head
  cases body with
  | nil => exact absurd rfl nonempty
  | cons c tail =>
      cases read : Lexeme.scan? (c :: tail) with
      | none => simp [scan, skipped, read]
      | some found =>
          obtain ⟨lexeme, rest⟩ := found
          cases denoted : lexeme.token? <;> simp [scan, skipped, read, denoted]

theorem scan_of_leaf {rule leaf rest : Text} {numbers : List Text} {token : Token}
    (blank : ∀ c ∈ gap, c ∈ blanks) (isLeaf : Leaf rule leaf numbers token)
    (ends : rule = "rotate".toList → NoDigitNext rest) :
    scan (gap ++ (leaf ++ rest)) =
      if Short numbers then .ok (token, gap.length + leaf.length)
      else .error (.unknownToken (leaf ++ rest)) := by
  obtain ⟨lexeme, read, rfl, denoted⟩ := scan?_of_leaf isLeaf ends
  obtain ⟨c, tail, same, notBlank, -⟩ := isLeaf.head
  have head : ∀ c' ∈ (lexeme.text ++ rest).head?, c' ∉ blanks := by
    intro c' member
    rw [same, List.cons_append, List.head?_cons, Option.mem_some_iff] at member
    exact member ▸ notBlank
  rw [scan_append blank head (by simp [same])]
  by_cases short : Short numbers
  · simp only [read, denoted, if_pos short]
  · simp only [read, denoted, if_neg short]

theorem scan_of_begins {leaf : Text} {numbers : List Text} {token : Token}
    (blank : ∀ c ∈ gap, c ∈ blanks) (h : Begins body leaf numbers token) (short : Short numbers) :
    scan (gap ++ body) = .ok (token, gap.length + leaf.length) := by
  obtain ⟨rule, rest, rfl, isLeaf, ends⟩ := h
  rw [scan_of_leaf blank isLeaf ends, if_pos short]

theorem scan_of_not_begins (blank : ∀ c ∈ gap, c ∈ blanks) (head : ∀ c ∈ body.head?, c ∉ blanks)
    (nonempty : body ≠ [])
    (nothing : ¬ ∃ leaf numbers token, Begins body leaf numbers token ∧ Short numbers) :
    scan (gap ++ body) = .error (.unknownToken body) := by
  rw [scan_append blank head nonempty]
  cases found : Lexeme.scan? body with
  | none => rfl
  | some read =>
      obtain ⟨lexeme, rest⟩ := read
      obtain ⟨rule, numbers, token, isLeaf, ends⟩ := leaf_of_scan? found
      have whole := Lexeme.eq_append_of_scan? found
      -- Reading the leaf again gives the same lexeme, so only a long number can be at fault.
      obtain ⟨lexeme', again, -, denoted⟩ := scan?_of_leaf isLeaf ends
      rw [← whole, found] at again
      cases again
      have long : ¬ Short numbers := fun short =>
        nothing ⟨_, numbers, token, ⟨rule, rest, whole, isLeaf, ends⟩, short⟩
      simp only [denoted, if_neg long]

theorem scan_cases (blank : ∀ c ∈ gap, c ∈ blanks) (head : ∀ c ∈ body.head?, c ∉ blanks) :
    (body = [] ∧ scan (gap ++ body) = .error .empty) ∨
    (∃ leaf numbers token, Begins body leaf numbers token ∧ Short numbers ∧
      scan (gap ++ body) = .ok (token, gap.length + leaf.length)) ∨
    (body ≠ [] ∧ (¬ ∃ leaf numbers token, Begins body leaf numbers token ∧ Short numbers) ∧
      scan (gap ++ body) = .error (.unknownToken body)) := by
  by_cases empty : body = []
  · subst empty
    exact .inl ⟨rfl, scan_of_empty blank⟩
  · by_cases found : ∃ leaf numbers token, Begins body leaf numbers token ∧ Short numbers
    · obtain ⟨leaf, numbers, token, begins, short⟩ := found
      exact .inr (.inl ⟨leaf, numbers, token, begins, short, scan_of_begins blank begins short⟩)
    · exact .inr (.inr ⟨empty, found, scan_of_not_begins blank head empty found⟩)

end Scanning

theorem not_begins_nil {leaf : Text} {numbers : List Text} {token : Token} :
    ¬ Begins [] leaf numbers token := by
  rintro ⟨rule, rest, split, isLeaf, -⟩
  obtain ⟨c, tail, rfl, -⟩ := isLeaf.head
  cases split

theorem exists_gap (t : Text) :
    ∃ gap body, t = gap ++ body ∧ (∀ c ∈ gap, c ∈ blanks) ∧ (∀ c ∈ body.head?, c ∉ blanks) := by
  refine ⟨t.takeWhile Text.isBlank, t.dropWhile Text.isBlank,
    List.takeWhile_append_dropWhile.symm, ?_, ?_⟩
  · intro c member
    exact isBlank_iff.mp (List.all_eq_true.mp List.all_takeWhile c member)
  · intro c member blank
    have stops := List.head?_dropWhile_not Text.isBlank t
    rw [Option.mem_def.mp member] at stops
    simp [isBlank_iff.mpr blank] at stops

theorem suffixFrom_eq_drop (t : Text) (pos : Int) :
    t.suffixFrom pos = t.drop (if pos < 0 then (pos + t.length).toNat else pos.toNat) := by
  unfold Text.suffixFrom Text.clamp
  split
  · rfl
  · rw [List.drop_eq_drop_iff]
    omega

/-! ## Tokens by their rules

The token of a leaf is taken out of its text at fixed places, by its rule. On the leaves of the grammar
this is the token that a scan finds (`ofLeaf_eq_ok_iff_scan`).
-/

section Fragments

variable {c : Char} {t u : Text}

theorem breakOn_of_notMem (h : c ∉ t) : Text.breakOn [c] t = none := by
  induction t with
  | nil => rfl
  | cons d t ih =>
      obtain ⟨other, later⟩ := not_or.mp (mt List.mem_cons.mpr h)
      simp [Text.breakOn, List.isPrefixOf, other, ih later]

theorem breakOn_append (h : c ∉ t) : Text.breakOn [c] (t ++ c :: u) = some (t, u) := by
  induction t with
  | nil => simp [Text.breakOn, List.isPrefixOf]
  | cons d t ih =>
      obtain ⟨other, later⟩ := not_or.mp (mt List.mem_cons.mpr h)
      simp [Text.breakOn, List.isPrefixOf, other, ih later]

theorem fragments_of_notMem (h : c ∉ t) : Text.fragments [c] t = [t] := by
  unfold Text.fragments
  split
  · rfl
  · split
    · rename_i found
      cases found.symm.trans (breakOn_of_notMem h)
    · rfl

theorem fragments_append (h : c ∉ t) :
    Text.fragments [c] (t ++ c :: u) = t :: Text.fragments [c] u := by
  rw [Text.fragments, dif_neg (List.cons_ne_nil c [])]
  split
  · rename_i found
    cases found.symm.trans (breakOn_append h)
    rfl
  · rename_i found
    cases found.symm.trans (breakOn_append h)

end Fragments

theorem segment_append (before inside after : Text) (h : after ≠ []) :
    (before ++ inside ++ after).segment before.length (-after.length) = inside := by
  have long := List.length_pos_iff.mpr h
  have last : Text.clamp (before ++ inside ++ after).length (-after.length) =
      (before ++ inside).length := by
    rw [Text.clamp, if_pos (by omega), List.length_append]
    omega
  have first : Text.clamp (before ++ inside ++ after).length before.length = before.length := by
    rw [Text.clamp, if_neg (by omega), List.length_append, List.length_append]
    omega
  rw [Text.segment, Text.upTo, last, first, List.take_left, List.drop_left]

theorem isDigit_bounds {c : Char} (h : Text.isDigit c = true) : 0x30 ≤ c.toNat ∧ c.toNat ≤ 0x39 := by
  simp only [Text.isDigit, Bool.and_eq_true, decide_eq_true_eq] at h
  exact h

theorem Digits.notMem {digits : Text} (h : Digits digits) {c : Char} (other : Text.isDigit c = false) :
    c ∉ digits :=
  fun member => Bool.false_ne_true (other.symm.trans (h c member))

theorem isSpace_of_isDigit {c : Char} (h : Text.isDigit c = true) : Text.isSpace c = false := by
  obtain ⟨lower, upper⟩ := isDigit_bounds h
  simp only [Text.isSpace, Bool.or_eq_false_iff, Bool.and_eq_false_iff, decide_eq_false_iff_not,
    beq_eq_false_iff_ne]
  omega

theorem anyDigitValue?_of_isDigit {c : Char} (h : Text.isDigit c = true) :
    Text.anyDigitValue? c = some (Text.digitValue c) := by
  obtain ⟨lower, upper⟩ := isDigit_bounds h
  have first : (decide (0x30 ≤ c.toNat) && decide (c.toNat < 0x30 + 10)) = true := by
    simp only [Bool.and_eq_true, decide_eq_true_eq]
    omega
  have found : Text.zeros.find? (fun k => k ≤ c.toNat && c.toNat < k + 10) = some 0x30 :=
    List.find?_cons_of_pos first
  rw [Text.anyDigitValue?, found]
  rfl

theorem dropWhile_isSpace {t : Text} (h : ∀ c ∈ t, Text.isDigit c = true) :
    t.dropWhile Text.isSpace = t := by
  cases t with
  | nil => rfl
  | cons c t => exact List.dropWhile_cons_of_neg (by simp [isSpace_of_isDigit (h c (.head _))])

theorem mapM_anyDigitValue? {digits : Text} (inside : Digits digits) :
    digits.mapM Text.anyDigitValue? = some (digits.map Text.digitValue) := by
  induction digits with
  | nil => rfl
  | cons c digits ih =>
      simp [List.mapM_cons, anyDigitValue?_of_isDigit (inside c (.head _)),
        ih fun d member => inside d (.tail _ member)]

theorem toInt?_of_digits {digits : Text} (nonempty : digits ≠ []) (inside : Digits digits) :
    Text.toInt? digits = some (Text.toNat digits : Int) := by
  have kept : ((digits.dropWhile Text.isSpace).reverse.dropWhile Text.isSpace).reverse = digits := by
    rw [dropWhile_isSpace inside,
      dropWhile_isSpace fun c member => inside c (List.mem_reverse.mp member), List.reverse_reverse]
  have unsigned (c : Char) (h : Text.isDigit c = false) : (digits.head? == some c) = false :=
    beq_eq_false_iff_ne.mpr fun same => inside.notMem h (List.mem_of_mem_head? same)
  have whole : Text.fragments ['_'] digits = [digits] := fragments_of_notMem (inside.notMem (by decide))
  simp only [Text.toInt?, kept, unsigned '-' (by decide), unsigned '+' (by decide), Bool.or_self,
    Bool.false_eq_true, if_false, whole, List.any_cons, List.any_nil, Bool.or_false,
    List.isEmpty_iff, nonempty, List.flatten_cons, List.flatten_nil, List.append_nil,
    mapM_anyDigitValue? inside, Option.map_some, List.foldl_map, Text.toNat]

def longNumber : Problem :=
  .malformed "number longer than 4300 digits".toList

theorem number_of_digits {digits : Text} (nonempty : digits ≠ []) (inside : Digits digits) :
    Leaf.number digits = if digits.length ≤ 4300 then .ok (Text.toNat digits) else .error longNumber := by
  by_cases short : digits.length ≤ 4300
  · rw [if_pos short, Leaf.number, maxDigits, if_neg (Nat.not_lt.mpr short)]
    simp only [toInt?_of_digits nonempty inside]
  · rw [if_neg short, Leaf.number, maxDigits, if_pos (Nat.not_le.mp short)]
    rfl

theorem bound?_of_signed {a digits : Text} {bound : Bound} (h : Signed a digits bound) :
    Leaf.bound? a = if digits.length ≤ 4300 then .ok (some bound) else .error longNumber := by
  cases h with
  | front nonempty inside =>
      have read : Leaf.bound? a = (Leaf.number a).map fun n => some (.front n) := by
        unfold Leaf.bound?
        split
        · exact absurd rfl nonempty
        · exact absurd (List.mem_cons_self ..) (inside.notMem (c := '-') (by decide))
        · rfl
      rw [read, number_of_digits nonempty inside]
      split <;> rfl
  | back nonempty inside =>
      rw [Leaf.bound?, number_of_digits nonempty inside]
      split <;> rfl

theorem bound?_of_optional {a : Text} {numbers : List Text} {bound : Option Bound}
    (h : Optional a numbers bound) :
    Leaf.bound? a = if Short numbers then .ok bound else .error longNumber := by
  cases h with
  | absent => rw [if_pos short_nil, Leaf.bound?]
  | present signed => simp only [bound?_of_signed signed, short_singleton]

theorem Optional.notMem {a : Text} {numbers : List Text} {bound : Option Bound}
    (h : Optional a numbers bound) : '.' ∉ a := by
  cases h with
  | absent => exact List.not_mem_nil
  | present signed =>
      cases signed with
      | front _ inside => exact inside.notMem (by decide)
      | back _ inside => simp [inside.notMem (c := '.') (by decide)]

theorem range_of_optional {a b : Text} {before after : List Text} {first last : Option Bound}
    (start : Optional a before first) (stop : Optional b after last) :
    Leaf.range (a ++ '.' :: b) =
      if Short (before ++ after) then .ok ⟨first, last⟩ else .error longNumber := by
  simp only [Leaf.range, fragments_append start.notMem, fragments_of_notMem stop.notMem,
    bound?_of_optional start, bound?_of_optional stop, short_append]
  by_cases shortFirst : Short before
  · by_cases shortLast : Short after
    · simp only [shortFirst, shortLast, if_true, and_self]
      rfl
    · simp only [shortFirst, shortLast, if_true, if_false, and_false]
      rfl
  · simp only [shortFirst, if_false, false_and]
    rfl

theorem ofLeaf_rotate {digits : Text} (inside : Digits digits) :
    Lexeme.ofLeaf "rotate".toList ('@' :: digits) =
      if Short [digits] then .ok (.rotate (if Text.toNat digits = 0 then 1 else Text.toNat digits))
      else .error longNumber := by
  by_cases empty : digits = []
  · subst empty
    rfl
  · have counted : 1 < ('@' :: digits).length := Nat.succ_lt_succ (List.length_pos_iff.mpr empty)
    simp only [Lexeme.ofLeaf, String.ofList_toList, if_pos counted, List.drop_succ_cons, List.drop_zero,
      number_of_digits empty inside, short_singleton]
    by_cases short : digits.length ≤ 4300
    · have same : (Text.toNat digits : Int) = 0 ↔ Text.toNat digits = 0 := Int.natCast_eq_zero
      simp only [if_pos short, ← same]
      rfl
    · simp only [if_neg short]
      rfl

theorem ofLeaf_of_leaf {rule leaf : Text} {numbers : List Text} {token : Token}
    (h : Leaf rule leaf numbers token) :
    Lexeme.ofLeaf rule leaf = if Short numbers then .ok token else .error longNumber := by
  cases h with
  | opcode member =>
      simp only [opcodes, List.mem_cons, Prod.mk.injEq, List.not_mem_nil, or_false] at member
      rcases member with ⟨rfl, rfl⟩ | ⟨rfl, rfl⟩ | ⟨rfl, rfl⟩ | ⟨rfl, rfl⟩ | ⟨rfl, rfl⟩ |
        ⟨rfl, rfl⟩ | ⟨rfl, rfl⟩ | ⟨rfl, rfl⟩ | ⟨rfl, rfl⟩
      all_goals rfl
  | rotate inside => exact ofLeaf_rotate inside
  | characters => rfl
  | literal noQuote noSlash =>
      rename_i literal
      have inside := segment_append "/\"".toList literal "\"/".toList (by decide)
      have long : 2 < ("/\"".toList ++ literal ++ "\"/".toList).length := by simp
      exact congrArg (fun part => Except.ok (Token.apply (.split part)))
        ((if_pos long).trans (congrArg some inside))
  | map change => cases change <;> rfl
  | filter letters => cases letters <;> rfl
  | slice start stop =>
      rename_i a b before after first last
      have inside : Text.segment (['|'] ++ a ++ ['.'] ++ b ++ ['|']) 1 (-1) = a ++ '.' :: b := by
        simpa using segment_append ['|'] (a ++ '.' :: b) ['|'] (by decide)
      have read : Lexeme.ofLeaf "slice".toList (['|'] ++ a ++ ['.'] ++ b ++ ['|']) =
          (Leaf.range (a ++ '.' :: b)).map fun range => .apply (.slice range) :=
        congrArg (fun part => (Leaf.range part).map fun range => Token.apply (.slice range)) inside
      rw [read, range_of_optional start stop]
      split <;> rfl
  | index signed =>
      rename_i a digits bound
      have inside : Text.segment (['|'] ++ a ++ ['|']) 1 (-1) = a :=
        segment_append ['|'] a ['|'] (by decide)
      have read : Lexeme.ofLeaf "index".toList (['|'] ++ a ++ ['|']) =
          (Leaf.bound a).map fun bound => .apply (.index bound) :=
        congrArg (fun part => (Leaf.bound part).map fun bound => Token.apply (.index bound)) inside
      rw [read]
      by_cases short : digits.length ≤ 4300
      · simp only [Leaf.bound, bound?_of_signed signed, short_singleton, if_pos short]
        rfl
      · simp only [Leaf.bound, bound?_of_signed signed, short_singleton, if_neg short]
        rfl

/-- On the leaves of the grammar the token by the rule is the token of a scan. -/
theorem ofLeaf_eq_ok_iff_scan {rule leaf : Text} {numbers : List Text} {token : Token}
    (h : Leaf rule leaf numbers token) (found : Token) :
    Lexeme.ofLeaf rule leaf = .ok found ↔ scan leaf = .ok (found, leaf.length) := by
  have ends : rule = "rotate".toList → NoDigitNext [] := fun _ c member => by cases member
  have read := scan_of_leaf (List.forall_mem_nil _) h ends
  rw [List.nil_append, List.append_nil, List.length_nil, Nat.zero_add] at read
  rw [ofLeaf_of_leaf h, read]
  by_cases short : Short numbers
  · simp [short]
  · simp [short]

/-- Tokens are read as the grammar says. From any signed position, the blanks are skipped; then
    nothing is left, or the text begins with a leaf without overlong numbers, and its token is
    read, or the whole rest is reported. A leaf on its own denotes its token, unless a number in it
    is too long. -/
theorem scanAt_follows_grammar (program : Text) (pos : Int) :
    (∃ gap body,
      program.drop (if pos < 0 then (pos + program.length).toNat else pos.toNat) = gap ++ body ∧
      (∀ c ∈ gap, c ∈ blanks) ∧ (∀ c ∈ body.head?, c ∉ blanks) ∧
      (scanAt program pos = .error .empty ↔ body = []) ∧
      (∀ token n, scanAt program pos = .ok (token, n) ↔
        ∃ leaf numbers, Begins body leaf numbers token ∧ Short numbers ∧
          n = gap.length + leaf.length) ∧
      (∀ text, scanAt program pos = .error (.unknownToken text) ↔
        body ≠ [] ∧ text = body ∧
          ¬ ∃ leaf numbers token, Begins body leaf numbers token ∧ Short numbers)) ∧
    (∀ rule leaf numbers token, Leaf rule leaf numbers token →
      Lexeme.ofLeaf rule leaf =
        if Short numbers then .ok token
        else .error (.malformed "number longer than 4300 digits".toList)) := by
  refine ⟨?_, fun rule leaf numbers token isLeaf => ofLeaf_of_leaf isLeaf⟩
  obtain ⟨gap, body, whole, blank, head⟩ := exists_gap (program.suffixFrom pos)
  refine ⟨gap, body, by rw [← suffixFrom_eq_drop, whole], blank, head, ?_⟩
  rw [scanAt, whole]
  obtain ⟨rfl, outcome⟩ | ⟨leaf, numbers, token, begins, short, outcome⟩ |
    ⟨nonempty, nothing, outcome⟩ := scan_cases blank head
  · rw [outcome]
    simp [not_begins_nil]
  · have nonempty : body ≠ [] := fun empty => not_begins_nil (empty ▸ begins)
    refine ⟨by simp [outcome, nonempty], ?_, ?_⟩
    · intro token' n
      constructor
      · intro same
        rw [outcome] at same
        cases same
        exact ⟨leaf, numbers, begins, short, rfl⟩
      · rintro ⟨leaf', numbers', begins', short', rfl⟩
        exact scan_of_begins blank begins' short'
    · intro text
      constructor
      · intro same
        rw [outcome] at same
        cases same
      · rintro ⟨-, -, nothing⟩
        exact absurd ⟨leaf, numbers, token, begins, short⟩ nothing
  · refine ⟨by simp [outcome, nonempty], ?_, ?_⟩
    · intro token n
      constructor
      · intro same
        rw [outcome] at same
        cases same
      · rintro ⟨leaf, numbers, begins, short, -⟩
        exact absurd ⟨leaf, numbers, token, begins, short⟩ nothing
    · intro text
      constructor
      · intro same
        rw [outcome] at same
        cases same
        exact ⟨nonempty, rfl, nothing⟩
      · rintro ⟨-, rfl, -⟩
        exact outcome

theorem scanAt_follows_grammar_slice :
    Leaf "slice".toList "|-0.07|".toList ["0".toList, "07".toList]
      (.apply (.slice ⟨some (.back 0), some (.front 7)⟩)) ∧
    Lexeme.ofLeaf "slice".toList "|-0.07|".toList =
      .ok (.apply (.slice ⟨some (.back 0), some (.front 7)⟩)) := by
  have start : Signed "-0".toList "0".toList (.back 0) := .back (by decide) (by decide)
  have stop : Signed "07".toList "07".toList (.front 7) := .front (by decide) (by decide)
  have isLeaf := Leaf.slice (.present start) (.present stop)
  exact ⟨isLeaf, (scanAt_follows_grammar [] 0).2 _ _ _ _ isLeaf⟩

end QueueScript.Grammar
