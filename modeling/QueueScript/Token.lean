import QueueScript.Operator

/-! # Tokens

A token is one instruction of a program. Each takes values from the front of the queue and
gives values to its back.
-/

namespace QueueScript

/-- One instruction. -/
inductive Token where
  /-- Read a line and give it as a string. -/
  | input
  /-- Take a value and write it. -/
  | output
  /-- Take two values and give the second appended to the first. -/
  | concat
  /-- Take a value and give it twice. -/
  | copy
  /-- Move values from the front to the back. -/
  | rotate (count : Int)
  /-- Take a value and give what an operator makes of it. -/
  | apply (operator : Operator)
  deriving Repr, DecidableEq

/-- The operator as a program writes it. -/
def Operator.source : Operator → Text
  | .split none => "//".toList
  | .split (some literal) => "/\"".toList ++ literal ++ "\"/".toList
  | .join => ['.']
  | .check letters => [letters.symbol]
  | .mapCase change => ['\x7b', change.symbol, '\x7d']
  | .filter letters => ['[', letters.symbol, ']']
  | .slice range => range.text
  | .index bound => ['|'] ++ bound.text ++ ['|']

namespace Token

def source : Token → Text
  | .input => ['<']
  | .output => ['>']
  | .concat => ['~']
  | .copy => ['*']
  | .rotate count => '@' :: Text.ofInt count
  | .apply operator => operator.source

/-- How many values the token takes from the front of the queue. -/
def takes : Token → Nat
  | .input | .rotate _ => 0
  | .output | .copy | .apply _ => 1
  | .concat => 2

/-- How many values the token gives to the back of the queue. -/
def gives : Token → Nat
  | .output | .rotate _ => 0
  | .input | .concat | .apply _ => 1
  | .copy => 2

end Token

end QueueScript
