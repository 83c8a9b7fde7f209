import QueueScript.Text.Hidden

/-! # Quoted text

`quote` is the form of a text in a dump: between double quotes, with backslash, double quote
and line feed escaped, so that different texts have different forms and a form is one line.

`cite` is the form of a text inside a message. It prefers single quotes, and escapes every
character that would not show.
-/

namespace QueueScript.Text

def escapeChar (c : Char) : Text :=
  match c with
  | '\\' => ['\\', '\\']
  | '"' => ['\\', '"']
  | '\n' => ['\\', 'n']
  | c => [c]

def quote (t : Text) : Text :=
  '"' :: t.flatMap escapeChar ++ ['"']

/-- A number in hexadecimal, padded with zeros to `width` digits. -/
def hexPadded (width n : Nat) : Text :=
  let digits := Nat.toDigits 16 n
  List.replicate (width - digits.length) '0' ++ digits

/-- A character of a cited text, where `mark` is the quote around the text. -/
def citeChar (mark c : Char) : Text :=
  if c == '\\' || c == mark then ['\\', c]
  else if c == '\n' then ['\\', 'n']
  else if c == '\r' then ['\\', 'r']
  else if c == '\t' then ['\\', 't']
  else if isHidden c then
    if c.toNat < 0x100 then ['\\', 'x'] ++ hexPadded 2 c.toNat
    else if c.toNat < 0x10000 then ['\\', 'u'] ++ hexPadded 4 c.toNat
    else ['\\', 'U'] ++ hexPadded 8 c.toNat
  else [c]

/-- A text as a message cites it: in single quotes, or in double quotes if it holds a single
    quote and no double quote. -/
def cite (t : Text) : Text :=
  let mark := if t.contains '\'' && !t.contains '"' then '"' else '\''
  mark :: t.flatMap (citeChar mark) ++ [mark]

end QueueScript.Text
