import QueueScript.Text.Basic

/-! # Letters

The language knows the ASCII letters only. `Check` names the four classes of letters a program
can ask for, and `CaseMap` the three ways it can change their case; every other character
belongs to no class and is left alone.
-/

namespace QueueScript

def isVowel (c : Char) : Bool :=
  "aeiouAEIOU".toList.contains c

/-- A class of ASCII letters. -/
inductive Check where
  | vowel
  | consonant
  | lower
  | upper
  deriving Repr, DecidableEq

namespace Check

def holds : Check → Char → Bool
  | .vowel, c => isVowel c
  | .consonant, c => c.isAlpha && !isVowel c
  | .lower, c => c.isLower
  | .upper, c => c.isUpper

def all (check : Check) (t : Text) : Bool :=
  t.all check.holds

/-- The letter that names the class in a program. -/
def symbol : Check → Char
  | .vowel => 'v'
  | .consonant => 'c'
  | .lower => '_'
  | .upper => '^'

/-- The class that a letter names. -/
def ofSymbol? : Char → Option Check
  | 'v' => some .vowel
  | 'c' => some .consonant
  | '_' => some .lower
  | '^' => some .upper
  | _ => none

end Check

inductive CaseMap where
  | lower
  | upper
  | swap
  deriving Repr, DecidableEq

namespace CaseMap

def onChar : CaseMap → Char → Char
  | .lower, c => c.toLower
  | .upper, c => c.toUpper
  | .swap, c => if c.isLower then c.toUpper else c.toLower

def onText (change : CaseMap) (t : Text) : Text :=
  t.map change.onChar

def symbol : CaseMap → Char
  | .lower => '_'
  | .upper => '^'
  | .swap => '%'

def ofSymbol? : Char → Option CaseMap
  | '_' => some .lower
  | '^' => some .upper
  | '%' => some .swap
  | _ => none

end CaseMap

end QueueScript
