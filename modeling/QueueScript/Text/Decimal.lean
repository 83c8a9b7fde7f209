import QueueScript.Text.Space

/-! # Decimal numbers

Numbers are written in base ten with the fewest digits. `toNat` reads runs of ASCII digits, which may
have leading zeros; `toInt?` also knows signs, white space and the digits of other scripts. An integer
can have too many digits to be written at all.
-/

namespace QueueScript.Text

def isDigit (c : Char) : Bool :=
  '0' ≤ c && c ≤ '9'

def digitValue (c : Char) : Nat :=
  c.toNat - '0'.toNat

/-- The number that a run of digits spells, most significant digit first. -/
def toNat (digits : Text) : Nat :=
  digits.foldl (fun n c => 10 * n + digitValue c) 0

def ofNat (n : Nat) : Text :=
  Nat.toDigits 10 n

/-- An integer in decimal, with a minus sign if it is negative. -/
def ofInt : Int → Text
  | .ofNat n => ofNat n
  | .negSucc n => '-' :: ofNat (n + 1)

/-- The zeros of the scripts that have decimal digits. Nine more digits follow each. -/
def zeros : List Nat :=
  [0x30, 0x660, 0x6f0, 0x7c0, 0x966, 0x9e6, 0xa66, 0xae6, 0xb66, 0xbe6, 0xc66, 0xce6, 0xd66, 0xde6,
    0xe50, 0xed0, 0xf20, 0x1040, 0x1090, 0x17e0, 0x1810, 0x1946, 0x19d0, 0x1a80, 0x1a90, 0x1b50,
    0x1bb0, 0x1c40, 0x1c50, 0xa620, 0xa8d0, 0xa900, 0xa9d0, 0xa9f0, 0xaa50, 0xabf0, 0xff10,
    0x104a0, 0x10d30, 0x11066, 0x110f0, 0x11136, 0x111d0, 0x112f0, 0x11450, 0x114d0, 0x11650,
    0x116c0, 0x11730, 0x118e0, 0x11950, 0x11c50, 0x11d50, 0x11da0, 0x16a60, 0x16ac0, 0x16b50,
    0x1d7ce, 0x1d7d8, 0x1d7e2, 0x1d7ec, 0x1d7f6, 0x1e140, 0x1e2f0, 0x1e950, 0x1fbf0]

/-- The number that a decimal digit of any script stands for. -/
def anyDigitValue? (c : Char) : Option Nat :=
  (zeros.find? fun first => first ≤ c.toNat && c.toNat < first + 10).map (c.toNat - ·)

def isAnyDigit (c : Char) : Bool :=
  (anyDigitValue? c).isSome

/-- The integer that a text spells: digits of any script, with a sign in front of them if there is one,
    single low lines between them and white space around. -/
def toInt? (t : Text) : Option Int :=
  let core := ((t.dropWhile isSpace).reverse.dropWhile isSpace).reverse
  let negative := core.head? == some '-'
  let body := if negative || core.head? == some '+' then core.drop 1 else core
  let groups := fragments ['_'] body
  if groups.any List.isEmpty then none
  else
    (groups.flatten.mapM anyDigitValue?).map fun values =>
      let n : Nat := values.foldl (fun n d => 10 * n + d) 0
      if negative then -(n : Int) else n

/-- How many digits an integer may have to be written. -/
def maxWritten : Nat := 4300

def isWritable (n : Int) : Bool :=
  (ofNat n.natAbs).length ≤ maxWritten

/-- What is said of an integer with too many digits. -/
def digitLimit : String :=
  "Exceeds the limit (4300 digits) for integer string conversion"

/-- What is advised then. -/
def digitAdvice : String :=
  "; use sys.set_int_max_str_digits() to increase the limit"

end QueueScript.Text
