import QueueScript.Text.Decimal

/-! # Faults of documents

A document can fail to have a content in two ways: it breaks the rules of its form, or a scalar in
it looks like a value that does not exist.
-/

namespace QueueScript

/-- Why a document has no content. -/
inductive DocumentFault where
  /-- The document breaks the rules of its form, or holds something that has no content. -/
  | malformed
  /-- A number names a character that does not exist. -/
  | noSuchCharacter
  /-- A decimal number has too many digits. -/
  | tooManyDigits (digits : Nat)
  /-- A number has a sign of its base and no digits. -/
  | noDigits (base : Nat)
  /-- The year of a date is zero. -/
  | noSuchYear
  | noSuchMonth
  | noSuchDay
  deriving Repr, DecidableEq

namespace DocumentFault

def message : DocumentFault → Text
  | .malformed => "malformed document".toList
  | .noSuchCharacter => "chr() arg not in range(0x110000)".toList
  | .tooManyDigits digits =>
      Text.digitLimit.toList ++ ": value has ".toList ++ Text.ofNat digits ++ " digits".toList ++
        Text.digitAdvice.toList
  | .noDigits base => "invalid literal for int() with base ".toList ++ Text.ofNat base ++ ": ''".toList
  | .noSuchYear => "year 0 is out of range".toList
  | .noSuchMonth => "month must be in 1..12".toList
  | .noSuchDay => "day is out of range for month".toList

end DocumentFault

end QueueScript
