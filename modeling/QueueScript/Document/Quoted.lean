import QueueScript.Document.Place

/-! # Quoted scalars

A quoted scalar may go over several lines, and the breaks between them are folded. Between single
quotes only the quote itself needs care: it is written twice. Between double quotes a backslash
introduces the characters that cannot stand for themselves.
-/

namespace QueueScript.Document

/-- The breaks of empty lines, and what follows them and the padding after them; `none` if a
    separator of documents stands there. -/
def emptyLines? (t : Text) : Option (Text × Text) :=
  if startsSeparator t then none
  else
    match _found : lineBreak? (t.dropWhile isPad) with
    | none => some ([], t.dropWhile isPad)
    | some (c, more) =>
        (emptyLines? ((t.dropWhile isPad).drop (more + 1))).map
          fun (breaks, rest) => (c :: breaks, rest)
termination_by t.length
decreasing_by
  have some_left := length_pos_of_lineBreak? _found
  have shorter := (List.dropWhile_suffix (l := t) isPad).length_le
  simp only [List.length_drop]
  omega

/-- The characters that a character after a backslash stands for. -/
def escapes : List (Char × Char) :=
  [('0', '\x00'), ('a', '\x07'), ('b', '\x08'), ('t', '\t'), ('\t', '\t'), ('n', '\n'),
    ('v', '\x0b'), ('f', '\x0c'), ('r', '\r'), ('e', '\x1b'), (' ', ' '), ('"', '"'),
    ('\\', '\\'), ('/', '/'), ('N', '\u0085'), ('_', '\u00a0'), ('L', '\u2028'), ('P', '\u2029')]

/-- The characters after a backslash that announce a number, and how many digits follow. -/
def numberedEscapes : List (Char × Nat) :=
  [('x', 2), ('u', 4), ('U', 8)]

def hexValue? (c : Char) : Option Nat :=
  if '0' ≤ c ∧ c ≤ '9' then some (c.toNat - '0'.toNat)
  else if 'a' ≤ c ∧ c ≤ 'f' then some (c.toNat - 'a'.toNat + 10)
  else if 'A' ≤ c ∧ c ≤ 'F' then some (c.toNat - 'A'.toNat + 10)
  else none

/-- The number that so many hexadecimal digits at the front of a text spell. -/
def hexNumber? (digits : Nat) (t : Text) : Option Nat :=
  if t.length < digits then none
  else (t.take digits).foldl (fun n c => do return 16 * (← n) + (← hexValue? c)) (some 0)

/-- Whether a number is the first half of a pair that names one character. -/
def isHighHalf (n : Nat) : Bool :=
  0xd800 ≤ n && n < 0xdc00

/-- Whether a number is the second half of such a pair. -/
def isLowHalf (n : Nat) : Bool :=
  0xdc00 ≤ n && n < 0xe000

/-- The character of a number with so many digits at the front of a text, and the number of
    characters that spell it. A character may be written as a pair of halves. -/
def numberedChar (digits : Nat) (t : Text) : Except DocumentFault (Char × Nat) :=
  match hexNumber? digits t, t.drop digits with
  | none, _ => .error .malformed
  | some high, '\\' :: 'u' :: rest =>
      match hexNumber? 4 rest with
      | some low =>
          if isHighHalf high && isLowHalf low then
            .ok (Char.ofNat (0x10000 + (high - 0xd800) * 0x400 + (low - 0xdc00)), digits + 6)
          else single high
      | none => single high
  | some n, _ => single n
where
  single (n : Nat) : Except DocumentFault (Char × Nat) :=
    if 0x110000 ≤ n then .error .noSuchCharacter
    else if isHighHalf n || isLowHalf n then .error .malformed
    else .ok (Char.ofNat n, digits)

/-- What is written after a backslash, and the number of characters that it takes. -/
def escape (t : Text) : Except DocumentFault (Text × Nat) :=
  match t with
  | [] => .error .malformed
  | c :: rest =>
      match escapes.lookup c, numberedEscapes.lookup c, lineBreak? t with
      | some plain, _, _ => .ok ([plain], 1)
      | none, some digits, _ =>
          (numberedChar digits rest).map fun (named, taken) => ([named], taken + 1)
      | none, none, some (_, more) =>
          match emptyLines? (t.drop (more + 1)) with
          | some (breaks, rest) => .ok (breaks, t.length - rest.length)
          | none => .error .malformed
      | none, none, none => .error .malformed

/-- What stands for a gap, and the number of characters that it takes. -/
def quotedGap (t : Text) : Except DocumentFault (Text × Nat) :=
  let pad := t.takeWhile isPad
  let body := t.dropWhile isPad
  match lineBreak? body with
  | none => .ok (pad, pad.length)
  | some (c, more) =>
      match emptyLines? (body.drop (more + 1)) with
      | some (breaks, rest) => .ok (fold c breaks, t.length - rest.length)
      | none => .error .malformed

/-- What follows an opening quote: the text up to the closing one, and the rest. -/
def quoted (mark : Char) : Text → Except DocumentFault (Text × Text)
  | [] => .error .malformed
  | c :: rest => do
      let goOn (piece : Text) (taken : Nat) : Except DocumentFault (Text × Text) :=
        (quoted mark (rest.drop taken)).map fun (t, rest) => (piece ++ t, rest)
      if c == mark then
        if mark == '\'' && rest.head? == some mark then goOn [mark] 1
        else return ([], rest)
      else if mark == '"' && c == '\\' then
        let (piece, taken) ← escape rest
        goOn piece taken
      else if isGap c then
        let (piece, taken) ← quotedGap (c :: rest)
        goOn piece (taken - 1)
      else goOn [c] 0
termination_by t => t.length
decreasing_by
  simp only [List.length_drop, List.length_cons]
  omega

end QueueScript.Document
