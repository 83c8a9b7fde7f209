import QueueScript.Datum
import QueueScript.Document.Place

/-! # What plain scalars stand for

A plain scalar is read for what it looks like: the words for null and for the truth values,
numbers with a point, integers in four bases and in minutes and seconds, dates, and text
otherwise. Two signs have a use of their own as keys and are nothing else.
-/

namespace QueueScript.Document

def nullWords : List String :=
  ["", "~", "null", "Null", "NULL"]

def trueWords : List String :=
  ["yes", "Yes", "YES", "true", "True", "TRUE", "on", "On", "ON"]

def falseWords : List String :=
  ["no", "No", "NO", "false", "False", "FALSE", "off", "Off", "OFF"]

/-- The sign of a key whose value is a mapping to be merged in. -/
def mergeSign : Text :=
  ['<', '<']

/-- The sign of a key for the value that a mapping stands for. -/
def valueSign : Text :=
  ['=']

/-- Whether a text begins with a minus sign, and the text without a sign. -/
def splitSign : Text → Bool × Text
  | '-' :: t => (true, t)
  | '+' :: t => (false, t)
  | t => (false, t)

/-- The text without underscores, which mean nothing in a number. -/
def withoutUnderscores (t : Text) : Text :=
  t.filter (· != '_')

/-- Whether a text is not empty and holds only underscores and characters of a class. -/
def isNumeral (f : Char → Bool) (t : Text) : Bool :=
  !t.isEmpty && t.all fun c => f c || c == '_'

/-- Whether a text is a decimal numeral that begins with a digit of a class. -/
def isDecimal (leading : Char → Bool) (t : Text) : Bool :=
  t.head?.any leading && isNumeral Text.isDigit t

/-- Whether a text is a number below sixty of one or two digits. -/
def isSixtieth : Text → Bool
  | [c] => Text.isDigit c
  | [c, d] => '0' ≤ c && c ≤ '5' && Text.isDigit d
  | _ => false

/-- A digit that is not zero. -/
def isLeadingDigit (c : Char) : Bool :=
  '1' ≤ c && c ≤ '9'

/-- The value of a digit of a base up to sixteen. -/
def digitOf (c : Char) : Nat :=
  if Text.isDigit c then c.toNat - '0'.toNat
  else if 'a' ≤ c then c.toNat - 'a'.toNat + 10
  else c.toNat - 'A'.toNat + 10

/-- The number that digits of a base spell. There must be digits. -/
def numberOfBase (base : Nat) (digits : Text) : Except DocumentFault Nat :=
  if digits.isEmpty then .error (.noDigits base)
  else .ok (digits.foldl (fun n c => base * n + digitOf c) 0)

/-- The number that decimal digits spell. There must not be too many. -/
def numberOfDigits (digits : Text) : Except DocumentFault Nat :=
  if digits.length ≤ Text.maxWritten then .ok (Text.toNat digits)
  else .error (.tooManyDigits digits.length)

/-- The number that parts in base sixty spell, the last part first. -/
def numberOfSixtieths : List Text → Except DocumentFault Nat
  | [] => .ok 0
  | part :: parts => do
      let n ← numberOfDigits part
      let rest ← numberOfSixtieths parts
      return n + 60 * rest

/-- The number that a text without a sign spells, if it is an integer. -/
def unsigned? (t : Text) : Option (Except DocumentFault Nat) :=
  let digits := withoutUnderscores t
  match t with
  | ['0'] => some (.ok 0)
  | '0' :: 'b' :: rest =>
      if isNumeral (fun c => c == '0' || c == '1') rest then
        some (numberOfBase 2 (digits.drop 2))
      else none
  | '0' :: 'x' :: rest =>
      if isNumeral (fun c => Text.isDigit c || ('a' ≤ c && c ≤ 'f') || ('A' ≤ c && c ≤ 'F')) rest then
        some (numberOfBase 16 (digits.drop 2))
      else none
  | '0' :: rest =>
      if isNumeral (fun c => '0' ≤ c && c ≤ '7') rest then some (numberOfBase 8 digits) else none
  | t =>
      match Text.fragments [':'] t with
      | [] => none
      | first :: rest =>
          if isDecimal isLeadingDigit first && rest.all isSixtieth then
            some (numberOfSixtieths (Text.fragments [':'] digits).reverse)
          else none

def int? (t : Text) : Option (Except DocumentFault Int) :=
  let (negative, body) := splitSign t
  (unsigned? body).map fun number => number.map fun n => if negative then -n else n

/-- The exponent that a text spells after its letter, which a sign must follow; nothing at all is
    zero. -/
def exponent? : Text → Option Int
  | [] => some 0
  | e :: sign :: digits =>
      if (e == 'e' || e == 'E') && (sign == '+' || sign == '-') && !digits.isEmpty &&
          digits.all Text.isDigit then
        let n : Int := Text.toNat digits
        some (if sign == '-' then -n else n)
      else none
  | _ => none

/-- The number that digits before and after a point and an exponent spell. -/
def pointed (whole decimals : Text) (exponent : Int) : Double :=
  let whole := withoutUnderscores whole
  let decimals := withoutUnderscores decimals
  Double.ofDecimal false (whole ++ decimals) (exponent - decimals.length)

def isDecimalChar (c : Char) : Bool :=
  Text.isDigit c || c == '_'

/-- The number that parts in base sixty spell, the last part first; `unit` is what one of that
    part counts. -/
def sumOfSixtieths (unit : Nat) (sum : Double) : List Double → Double
  | [] => sum
  | part :: parts => sumOfSixtieths (60 * unit) (sum.add (part.scale unit)) parts

/-- The number with a point that a text without a sign spells, if it is one. -/
def unsignedReal? (t : Text) : Option Double :=
  match Text.breakOn ['.'] t with
  | none => none
  | some (whole, rest) =>
      let decimals := rest.takeWhile isDecimalChar
      let ending := rest.dropWhile isDecimalChar
      match Text.fragments [':'] whole with
      | [] => none
      | [whole] =>
          if isDecimal Text.isDigit whole then (exponent? ending).map (pointed whole decimals)
          else none
      | first :: others =>
          if isDecimal Text.isDigit first && others.all isSixtieth && ending.isEmpty then
            let last := pointed (others.getLast?.getD []) decimals 0
            let parts := (first :: others.dropLast).reverse.map fun part => pointed part [] 0
            some (sumOfSixtieths 60 last parts)
          else none

/-- The number with a point that a text spells, if it is one. Without digits before the point
    there is no sign either. -/
def real? (t : Text) : Option Double :=
  let (negative, body) := splitSign t
  if [".inf", ".Inf", ".INF"].contains (String.ofList body) then some (.infinite negative)
  else if [".nan", ".NaN", ".NAN"].contains (String.ofList t) then some .undefined
  else
    match t with
    | '.' :: rest =>
        let decimals := rest.takeWhile isDecimalChar
        if isDecimal Text.isDigit decimals then
          (exponent? (rest.dropWhile isDecimalChar)).map (pointed [] decimals)
        else none
    | _ => (unsignedReal? body).map (·.withSign negative)

def isLeap (year : Nat) : Bool :=
  year % 4 == 0 && (year % 100 != 0 || year % 400 == 0)

def daysIn (year month : Nat) : Nat :=
  if month == 2 then if isLeap year then 29 else 28
  else if [4, 6, 9, 11].contains month then 30
  else 31

/-- The date that a text spells, if it is one: a year, a month and a day with dashes between. -/
def date? (t : Text) : Option (Except DocumentFault Scalar) :=
  match Text.fragments ['-'] t with
  | [year, month, day] =>
      if [year, month, day].map List.length = [4, 2, 2] ∧
          [year, month, day].all (·.all Text.isDigit) then
        let (y, m, d) := (Text.toNat year, Text.toNat month, Text.toNat day)
        some <|
          if y = 0 then .error .noSuchYear
          else if m = 0 ∨ 12 < m then .error .noSuchMonth
          else if d = 0 ∨ daysIn y m < d then .error .noSuchDay
          else .ok (.date y m d)
      else none
  | _ => none

/-- What a plain scalar stands for. -/
def plainContent (t : Text) : Except DocumentFault Scalar :=
  let word := String.ofList t
  if nullWords.contains word then .ok .null
  else if trueWords.contains word then .ok (.bool true)
  else if falseWords.contains word then .ok (.bool false)
  else if t = mergeSign ∨ t = valueSign then .error .malformed
  else
    match real? t, int? t, date? t with
    | some d, _, _ => .ok (.real d)
    | none, some n, _ => n.map .int
    | none, none, some d => d
    | none, none, none => .ok (.text t)

end QueueScript.Document
