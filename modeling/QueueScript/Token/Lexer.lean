import QueueScript.Token
import QueueScript.Text.Quoted

/-! # Reading tokens

A lexeme is an instruction as it is written, with its numbers still spelled out. `Lexeme.scan?`
takes the longest lexeme at the front of a text and gives the rest; `Lexeme.token?` is the token
that the lexeme denotes, which fails only for a number with too many digits. `scan` skips the
blanks in front, and reports how many characters it took in all.

`eq_append_of_scan?` says that a lexeme and the rest after it make up the text, so every scan
takes at least one character (`pos_of_scan`) and none that is not there (`le_length_of_scan`).
-/

namespace QueueScript

/-- A number as written: an optional minus sign and digits. -/
structure Numeral where
  negative : Bool
  digits : Text
  deriving Repr, DecidableEq

/-- The longest run of digits that is read as a number. -/
def maxDigits : Nat := 4300

/-- The number that a run of digits spells, unless the run is too long. -/
def number? (digits : Text) : Option Nat :=
  if digits.length ≤ maxDigits then some (Text.toNat digits) else none

namespace Numeral

def text (n : Numeral) : Text :=
  (if n.negative then ['-'] else []) ++ n.digits

/-- The bound that a numeral denotes. A minus sign counts from the back, before a zero too. -/
def bound? (n : Numeral) : Option Bound :=
  (number? n.digits).map fun k => if n.negative then .back k else .front k

/-- A numeral at the front of a text, and the rest. -/
def scan? (t : Text) : Option (Numeral × Text) :=
  let negative := t.head? == some '-'
  let body := if negative then t.drop 1 else t
  match body.takeWhile Text.isDigit with
  | [] => none
  | digits => some (⟨negative, digits⟩, body.dropWhile Text.isDigit)

/-- A numeral at the front of a text, if there is one, and the rest. -/
def scanOptional (t : Text) : Option Numeral × Text :=
  match scan? t with
  | some (n, rest) => (some n, rest)
  | none => (none, t)

end Numeral

/-- An instruction as written. -/
inductive Lexeme where
  /-- A lexeme without numbers. -/
  | plain (token : Token)
  | rotate (digits : Text)
  | slice (first last : Option Numeral)
  | index (bound : Numeral)
  deriving Repr, DecidableEq

namespace Lexeme

def text : Lexeme → Text
  | .plain token => token.source
  | .rotate digits => '@' :: digits
  | .slice first last =>
      ['|'] ++ (first.map Numeral.text).getD [] ++ ['.'] ++ (last.map Numeral.text).getD [] ++ ['|']
  | .index bound => ['|'] ++ bound.text ++ ['|']

/-- The bound of an optional numeral; a numeral that is left out denotes no bound. -/
def optionalBound? : Option Numeral → Option (Option Bound)
  | none => some none
  | some n => n.bound?.map some

/-- The token that a lexeme denotes, unless a number in it is too long. A rotation by nothing
    or by zero is one by one. -/
def token? : Lexeme → Option Token
  | .plain token => some token
  | .rotate digits => (number? digits).map fun n => .rotate (if n = 0 then 1 else n)
  | .slice first last => do
      let first ← optionalBound? first
      let last ← optionalBound? last
      return .apply (.slice ⟨first, last⟩)
  | .index bound => bound.bound?.map fun b => .apply (.index b)

def isLiteralChar (c : Char) : Bool :=
  c != '"' && c != '/'

/-- What follows the slash and the quote of a literal. -/
def scanLiteral? (t : Text) : Option (Lexeme × Text) :=
  match t.dropWhile isLiteralChar with
  | '"' :: '/' :: rest => some (.plain (.apply (.split (some (t.takeWhile isLiteralChar)))), rest)
  | _ => none

/-- What follows the opening bar of a slice or an index. -/
def scanBar? (t : Text) : Option (Lexeme × Text) :=
  match Numeral.scanOptional t with
  | (first, '.' :: tail) =>
      match Numeral.scanOptional tail with
      | (last, '|' :: rest) => some (.slice first last, rest)
      | _ => none
  | (some bound, '|' :: rest) => some (.index bound, rest)
  | _ => none

/-- The lexeme at the front of a text, and the rest. -/
def scan? : Text → Option (Lexeme × Text)
  | '<' :: rest => some (.plain .input, rest)
  | '>' :: rest => some (.plain .output, rest)
  | '.' :: rest => some (.plain (.apply .join), rest)
  | '~' :: rest => some (.plain .concat, rest)
  | '*' :: rest => some (.plain .copy, rest)
  | 'v' :: rest => some (.plain (.apply (.check .vowel)), rest)
  | 'c' :: rest => some (.plain (.apply (.check .consonant)), rest)
  | '_' :: rest => some (.plain (.apply (.check .lower)), rest)
  | '^' :: rest => some (.plain (.apply (.check .upper)), rest)
  | '@' :: rest => some (.rotate (rest.takeWhile Text.isDigit), rest.dropWhile Text.isDigit)
  | '/' :: '/' :: rest => some (.plain (.apply (.split none)), rest)
  | '/' :: '"' :: rest => scanLiteral? rest
  | '\x7b' :: symbol :: '\x7d' :: rest =>
      (CaseMap.ofSymbol? symbol).map fun change => (.plain (.apply (.mapCase change)), rest)
  | '[' :: symbol :: ']' :: rest =>
      (Check.ofSymbol? symbol).map fun letters => (.plain (.apply (.filter letters)), rest)
  | '|' :: rest => scanBar? rest
  | _ => none

end Lexeme

theorem Check.eq_symbol_of_ofSymbol? {c : Char} {check : Check} (h : Check.ofSymbol? c = some check) :
    c = check.symbol := by
  unfold Check.ofSymbol? at h
  split at h <;> simp_all [Check.symbol] <;> subst h <;> rfl

theorem CaseMap.eq_symbol_of_ofSymbol? {c : Char} {change : CaseMap}
    (h : CaseMap.ofSymbol? c = some change) : c = change.symbol := by
  unfold CaseMap.ofSymbol? at h
  split at h <;> simp_all [CaseMap.symbol] <;> subst h <;> rfl

theorem Numeral.eq_append_of_scan? {t rest : Text} {n : Numeral}
    (h : Numeral.scan? t = some (n, rest)) : t = n.text ++ rest := by
  unfold Numeral.scan? at h
  simp only at h
  split at h
  · simp at h
  · simp only [Option.some.injEq, Prod.mk.injEq] at h
    obtain ⟨rfl, rfl⟩ := h
    cases t with
    | nil => simp [Numeral.text]
    | cons c tail =>
        by_cases hc : c = '-'
        · subst hc
          simp [Numeral.text]
        · simp [Numeral.text, hc]

theorem Numeral.eq_append_of_scanOptional {t rest : Text} {n : Option Numeral}
    (h : Numeral.scanOptional t = (n, rest)) : t = (n.map Numeral.text).getD [] ++ rest := by
  unfold Numeral.scanOptional at h
  split at h
  · rename_i found
    simp only [Prod.mk.injEq] at h
    obtain ⟨rfl, rfl⟩ := h
    simpa using Numeral.eq_append_of_scan? found
  · simp only [Prod.mk.injEq] at h
    obtain ⟨rfl, rfl⟩ := h
    simp

namespace Lexeme

theorem eq_append_of_scanLiteral? {t rest : Text} {lexeme : Lexeme}
    (h : scanLiteral? t = some (lexeme, rest)) : '/' :: '"' :: t = lexeme.text ++ rest := by
  unfold scanLiteral? at h
  split at h
  · rename_i tail found
    simp only [Option.some.injEq, Prod.mk.injEq] at h
    obtain ⟨rfl, rfl⟩ := h
    have whole := List.takeWhile_append_dropWhile (p := isLiteralChar) (l := t)
    rw [found] at whole
    calc
      '/' :: '"' :: t = '/' :: '"' :: (t.takeWhile isLiteralChar ++ '"' :: '/' :: tail) := by
        rw [whole]
      _ = _ := by simp [text, Token.source, Operator.source]
  · simp at h

theorem eq_append_of_scanBar? {t rest : Text} {lexeme : Lexeme}
    (h : scanBar? t = some (lexeme, rest)) : '|' :: t = lexeme.text ++ rest := by
  unfold scanBar? at h
  split at h
  · rename_i first tail eqFirst
    split at h
    · rename_i last rest' eqLast
      simp only [Option.some.injEq, Prod.mk.injEq] at h
      obtain ⟨rfl, rfl⟩ := h
      rw [Numeral.eq_append_of_scanOptional eqFirst, Numeral.eq_append_of_scanOptional eqLast]
      simp [text]
    · simp at h
  · rename_i bound rest' eqBound
    simp only [Option.some.injEq, Prod.mk.injEq] at h
    obtain ⟨rfl, rfl⟩ := h
    rw [Numeral.eq_append_of_scanOptional eqBound]
    simp [text]
  · simp at h

/-- A lexeme and the rest after it make up the text. -/
theorem eq_append_of_scan? {t rest : Text} {lexeme : Lexeme}
    (h : scan? t = some (lexeme, rest)) : t = lexeme.text ++ rest := by
  unfold scan? at h
  split at h
  case h_12 => exact eq_append_of_scanLiteral? h
  case h_13 =>
    obtain ⟨change, found, eq⟩ := Option.map_eq_some_iff.mp h
    simp only [Prod.mk.injEq] at eq
    obtain ⟨rfl, rfl⟩ := eq
    simp [text, Token.source, Operator.source, CaseMap.eq_symbol_of_ofSymbol? found]
  case h_14 =>
    obtain ⟨check, found, eq⟩ := Option.map_eq_some_iff.mp h
    simp only [Prod.mk.injEq] at eq
    obtain ⟨rfl, rfl⟩ := eq
    simp [text, Token.source, Operator.source, Check.eq_symbol_of_ofSymbol? found]
  case h_15 => exact eq_append_of_scanBar? h
  case h_16 => simp at h
  all_goals
    simp only [Option.some.injEq, Prod.mk.injEq] at h
    obtain ⟨rfl, rfl⟩ := h
    simp [text, Token.source, Operator.source, Check.symbol]

theorem text_ne_nil (lexeme : Lexeme) : lexeme.text ≠ [] := by
  cases lexeme with
  | plain token =>
      cases token with
      | apply operator =>
          cases operator with
          | split literal => cases literal <;> simp [text, Token.source, Operator.source]
          | _ => simp [text, Token.source, Operator.source, Range.text]
      | _ => simp [text, Token.source]
  | _ => simp [text]

end Lexeme

/-- The first token of a text, after any blanks, and the number of characters taken. -/
def scan (t : Text) : Except ParseFault (Token × Nat) :=
  match Text.skipBlanks t with
  | [] => .error .empty
  | body =>
      match Lexeme.scan? body with
      | none => .error (.unknownToken body)
      | some (lexeme, _) =>
          match lexeme.token? with
          | none => .error (.unknownToken body)
          | some token => .ok (token, t.length - body.length + lexeme.text.length)

/-- The first token at or after a signed position, and the number of characters taken. -/
def scanAt (program : Text) (pos : Int) : Except ParseFault (Token × Nat) :=
  scan (program.suffixFrom pos)

theorem scan_ok {t : Text} {token : Token} {n : Nat} (h : scan t = .ok (token, n)) :
    ∃ lexeme rest, Lexeme.scan? (Text.skipBlanks t) = some (lexeme, rest) ∧
      lexeme.token? = some token ∧
      n = t.length - (Text.skipBlanks t).length + lexeme.text.length := by
  unfold scan at h
  split at h
  · simp at h
  · split at h
    · simp at h
    · rename_i lexeme rest found
      split at h
      · simp at h
      · rename_i token' denoted
        simp only [Except.ok.injEq, Prod.mk.injEq] at h
        obtain ⟨rfl, rfl⟩ := h
        exact ⟨lexeme, rest, found, denoted, rfl⟩

theorem pos_of_scan {t : Text} {token : Token} {n : Nat} (h : scan t = .ok (token, n)) : 0 < n := by
  obtain ⟨lexeme, rest, -, -, rfl⟩ := scan_ok h
  have := List.length_pos_iff.mpr lexeme.text_ne_nil
  omega

theorem le_length_of_scan {t : Text} {token : Token} {n : Nat} (h : scan t = .ok (token, n)) :
    n ≤ t.length := by
  obtain ⟨lexeme, rest, found, -, rfl⟩ := scan_ok h
  have whole := congrArg List.length (Lexeme.eq_append_of_scan? found)
  have shorter := Text.length_skipBlanks_le t
  rw [List.length_append] at whole
  omega

/-- All tokens of a program with the number of characters each takes, or the first fault. -/
def tokenize (program : Text) : Except ParseFault (List (Token × Nat)) :=
  match _found : scan program with
  | .error .empty => .ok []
  | .error fault => .error fault
  | .ok (token, n) => (tokenize (program.drop n)).map ((token, n) :: ·)
termination_by program.length
decreasing_by
  have := pos_of_scan _found
  have := le_length_of_scan _found
  simp only [List.length_drop]
  omega

/-! ## Leaves

A leaf is the text that a rule of the grammar has matched. Its token is found by the rule, without a
scan.
-/

namespace Leaf

def opcodes : List (Text × Token) :=
  [(['<'], .input), (['>'], .output), (['.'], .apply .join), (['~'], .concat), (['*'], .copy),
    (['v'], .apply (.check .vowel)), (['c'], .apply (.check .consonant)),
    (['_'], .apply (.check .lower)), (['^'], .apply (.check .upper))]

def number (digits : Text) : Except Problem Int :=
  if maxDigits < digits.length then
    .error (.malformed ("number longer than ".toList ++ Text.ofNat maxDigits ++ " digits".toList))
  else
    match Text.toInt? digits with
    | some n => .ok n
    | none =>
        .error (.malformed ("invalid literal for int() with base 10: ".toList ++ Text.cite digits))

/-- The bound that is written, if one is. A minus sign counts from the back, before a zero too. -/
def bound? : Text → Except Problem (Option Bound)
  | [] => .ok none
  | '-' :: digits => (number digits).map fun n => some (.back n)
  | digits => (number digits).map fun n => some (.front n)

/-- The bound that is written; one has to be. -/
def bound (t : Text) : Except Problem Bound :=
  match bound? t with
  | .ok (some bound) => .ok bound
  | .ok none =>
      .error (.other "TypeError".toList
        ("eolina.eolina_range.EolinaIndex.from_components() argument after * must be an iterable, " ++
          "not NoneType").toList)
  | .error problem => .error problem

/-- The character between brackets, by the table of its rule. -/
def symbol {α : Type} (leaf : Text) (table : Char → Option α) (name : String) : Except Problem α :=
  match leaf[1]? with
  | none => .error (.other "IndexError".toList "string index out of range".toList)
  | some c =>
      match table c with
      | some a => .ok a
      | none => .error (.malformed (Text.cite [c] ++ (" is not a valid " ++ name).toList))

def range (inside : Text) : Except Problem Range :=
  match Text.fragments ['.'] inside with
  | [first, last] => do
      let first ← bound? first
      let last ← bound? last
      return ⟨first, last⟩
  | [] | [_] => .error (.malformed "not enough values to unpack (expected 2, got 1)".toList)
  | _ => .error (.malformed "too many values to unpack (expected 2)".toList)

end Leaf

/-- The token of a leaf, given by its rule and its text. A rotation by nothing or by zero is one by
    one. -/
def Lexeme.ofLeaf (rule leaf : Text) : Except Problem Token :=
  match String.ofList rule with
  | "opcode" =>
      match Leaf.opcodes.lookup leaf with
      | some token => .ok token
      | none => .error (.other "KeyError".toList (Text.cite leaf))
  | "rotate" => do
      let count ← if 1 < leaf.length then Leaf.number (leaf.drop 1) else .ok 0
      return .rotate (if count = 0 then 1 else count)
  | "split" =>
      .ok (.apply (.split (if 2 < leaf.length then some (leaf.segment 2 (-2)) else none)))
  | "map" => (Leaf.symbol leaf CaseMap.ofSymbol? "MapKind").map fun change => .apply (.mapCase change)
  | "filter" => (Leaf.symbol leaf Check.ofSymbol? "Check").map fun letters => .apply (.filter letters)
  | "slice" => (Leaf.range (leaf.segment 1 (-1))).map fun range => .apply (.slice range)
  | "index" => (Leaf.bound (leaf.segment 1 (-1))).map fun bound => .apply (.index bound)
  | _ => .error (.malformed ("unexpected grammar node: ".toList ++ rule))

end QueueScript
