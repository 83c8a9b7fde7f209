import QueueScript.Text.Decimal

/-! # Numbers with a point

A `Double` is a number in the binary format of 64 bits. Reading a decimal gives the nearest
number of the format, and of two that are equally near the one with the even mantissa. Writing
gives the fewest digits that read back as the same number. All of it is exact arithmetic on
integers.
-/

namespace QueueScript

/-- A number of the binary format: `mantissa * 2 ^ exponent` with a sign, or out of its range. -/
inductive Double where
  | finite (negative : Bool) (mantissa : Nat) (exponent : Int)
  | infinite (negative : Bool)
  | undefined
  deriving Repr, DecidableEq

namespace Double

/-- The power of a base, as far as the exponent is positive. -/
def up (base : Nat) (exponent : Int) : Nat :=
  Nat.pow base exponent.toNat

/-- The power of a base, as far as the exponent is negative. -/
def down (base : Nat) (exponent : Int) : Nat :=
  Nat.pow base (-exponent).toNat

/-- The integer nearest to a quotient, the even one of two. -/
def roundQuotient (num den : Nat) : Nat :=
  let floor := num / den
  let twice := 2 * (num % den)
  if twice > den ∨ (twice = den ∧ floor % 2 = 1) then floor + 1 else floor

def minExponent : Int := -1074

def maxExponent : Int := 971

/-- The number nearest to a quotient. -/
def ofQuotient (negative : Bool) (num den : Nat) : Double :=
  if num = 0 then .finite negative 0 minExponent
  else
    let guess : Int := (num.log2 : Int) - den.log2
    let size := if num * down 2 guess < den * up 2 guess then guess - 1 else guess
    let exponent := max (size - 52) minExponent
    let mantissa := roundQuotient (num * down 2 exponent) (den * up 2 exponent)
    let (mantissa, exponent) :=
      if mantissa = up 2 53 then (up 2 52, exponent + 1) else (mantissa, exponent)
    if maxExponent < exponent then .infinite negative else .finite negative mantissa exponent

/-- The number nearest to `digits * 10 ^ exponent`. Exponents far out of the range of the format
    are not calculated with. -/
def ofDecimal (negative : Bool) (digits : Text) (exponent : Int) : Double :=
  let number := Text.toNat digits
  let size := (Text.ofNat number).length + exponent
  if number = 0 ∨ size < -400 then .finite negative 0 minExponent
  else if 400 < size then .infinite negative
  else ofQuotient negative (number * up 10 exponent) (down 10 exponent)

/-- The sum of two numbers that are not negative. -/
def add : Double → Double → Double
  | .finite _ m q, .finite _ n r =>
      let least := min q r
      ofQuotient false ((m * up 2 (q - least) + n * up 2 (r - least)) * up 2 least) (down 2 least)
  | .undefined, _ | _, .undefined => .undefined
  | _, _ => .infinite false

/-- The product of a number that is not negative and an integer. -/
def scale (factor : Nat) : Double → Double
  | .finite _ m q => ofQuotient false (m * factor * up 2 q) (down 2 q)
  | d => d

/-- The number with a minus sign, if asked for. -/
def withSign (negative : Bool) : Double → Double
  | .finite _ m q => .finite negative m q
  | .infinite _ => .infinite negative
  | .undefined => .undefined

/-- Whether `digits * 10 ^ power` reads back as `mantissa * 2 ^ exponent`: it lies between the
    middles to the two neighbours, or on one of these and the mantissa is even. Below a power of
    two the neighbour is only half as far away. -/
def readsBack (mantissa : Nat) (exponent : Int) (digits : Nat) (power : Int) : Bool :=
  let narrow := mantissa == up 2 52 && minExponent < exponent
  let low := 4 * mantissa - (if narrow then 1 else 2)
  let high := 4 * mantissa + 2
  let here := digits * up 10 power * down 2 (exponent - 2)
  let scaled (bound : Nat) := bound * up 2 (exponent - 2) * down 10 power
  if mantissa % 2 == 0 then scaled low ≤ here && here ≤ scaled high
  else scaled low < here && here < scaled high

/-- A decimal on the grid of `10 ^ power` that reads back as `mantissa * 2 ^ exponent`: the nearer
    one of the two around it, or the other one. -/
def onGrid? (mantissa : Nat) (exponent power : Int) : Option Nat :=
  let num := mantissa * up 2 exponent * down 10 power
  let den := down 2 exponent * up 10 power
  let nearer := roundQuotient num den
  let farther := if nearer = num / den then nearer + 1 else num / den
  [nearer, farther].find? (readsBack mantissa exponent · power)

/-- The power of ten of the leading digit. -/
def leadingPower (mantissa : Nat) (exponent : Int) : Int :=
  let below (power : Int) : Bool :=
    mantissa * up 2 exponent * down 10 power < up 10 power * down 2 exponent
  let guess := ((mantissa.log2 : Int) + exponent) * 30103 / 100000
  (([-1, 0, 1, 2].map (guess + ·)).find? below).getD guess - 1

/-- The digits without zeros at the end, and the power of ten of the last of them. -/
def stripZeros (digits : Text) (power : Int) : Text × Int :=
  let kept := (digits.reverse.dropWhile (· == '0')).reverse
  (kept, power + (digits.length - kept.length))

/-- The fewest digits that read back as the number, and the power of ten of the last of them. -/
def shortest (mantissa : Nat) (exponent : Int) : Text × Int :=
  let leading := leadingPower mantissa exponent
  let found := (List.range 17).findSome? fun (n : Nat) =>
    (onGrid? mantissa exponent (leading - n)).map fun digits => (Text.ofNat digits, leading - n)
  match found with
  | some (digits, power) => stripZeros digits power
  | none => (Text.ofNat (mantissa * up 2 exponent * down 5 exponent), min exponent 0)

/-- The number in positional notation if its leading digit stands near the point, and with an
    exponent otherwise. -/
def layout (digits : Text) (power : Int) : Text :=
  let leading := power + digits.length - 1
  if -4 ≤ leading ∧ leading < 16 then
    if 0 ≤ power then digits ++ List.replicate power.toNat '0' ++ ['.', '0']
    else if 0 ≤ leading then
      digits.take (leading + 1).toNat ++ ['.'] ++ digits.drop (leading + 1).toNat
    else ['0', '.'] ++ List.replicate (-leading - 1).toNat '0' ++ digits
  else
    let point := if digits.length ≤ 1 then [] else ['.']
    let sign := if leading < 0 then '-' else '+'
    let zero := if leading.natAbs < 10 then ['0'] else []
    digits.take 1 ++ point ++ digits.drop 1 ++ ['e', sign] ++ zero ++ Text.ofNat leading.natAbs

def text : Double → Text
  | .undefined => "nan".toList
  | .infinite negative => (if negative then ['-'] else []) ++ "inf".toList
  | .finite negative mantissa exponent =>
      (if negative then ['-'] else []) ++
        (if mantissa = 0 then "0.0".toList
        else
          let (digits, power) := shortest mantissa exponent
          layout digits power)

/-- The number as a quotient, if it is in the range of the format. -/
def quotient? : Double → Option (Int × Nat)
  | .finite negative m q =>
      let num : Int := m * up 2 q
      some (if negative then -num else num, down 2 q)
  | _ => none

end Double

end QueueScript
