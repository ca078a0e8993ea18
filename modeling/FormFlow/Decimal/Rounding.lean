/-!
# Correct rounding to binary64

The binary64 number nearest to a ratio of naturals, a tie going to the even
neighbour, and the reading of decimal literals built on it. A literal whose
magnitude is beyond the range reads as infinity or zero without computing the
power of ten.
-/
namespace FormFlow.Decimal

/-- The bits of the binary64 number nearest to `num / den`, for positive naturals. The quotient is
taken with 53 bits, or with fewer near zero, and a carry out of them moves to the next exponent. -/
def nearestBits (num den : Nat) : Nat :=
  let guess : Int := (Nat.log2 num : Int) - Nat.log2 den - 52
  let enough :=
    Nat.pow 2 52 * den * Nat.pow 2 guess.toNat ≤ num * Nat.pow 2 (-guess).toNat
  let exponent : Int := max (if enough then guess else guess - 1) (-1074)
  let dividend := num * Nat.pow 2 (-exponent).toNat
  let divisor := den * Nat.pow 2 exponent.toNat
  let quotient := dividend / divisor
  let rest := dividend % divisor
  let up := divisor < 2 * rest || (2 * rest == divisor && quotient % 2 == 1)
  let rounded := if up then quotient + 1 else quotient
  let bits := (exponent + 1074).toNat * Nat.pow 2 52 + rounded
  min bits (2047 * Nat.pow 2 52)

def nearest (digits : Nat) (exponent : Int) : Float :=
  let place := exponent + (Nat.toDigits 10 digits).length
  if digits = 0 ∨ place < -330 then 0.0
  else if 310 < place then Float.ofBits (UInt64.ofNat (2047 * Nat.pow 2 52))
  else
    Float.ofBits (UInt64.ofNat
      (nearestBits (digits * Nat.pow 10 exponent.toNat) (Nat.pow 10 (-exponent).toNat)))

inductive LiteralError where
  | empty
  | malformed
  deriving DecidableEq, Repr

def LiteralError.message : LiteralError → String
  | .empty => "cannot parse float from empty string"
  | .malformed => "invalid float literal"

def digitsValue (digits : List Char) : Nat :=
  digits.foldl (fun value c => 10 * value + (c.toNat - '0'.toNat)) 0

def splitSign : List Char → Bool × List Char
  | '-' :: rest => (true, rest)
  | '+' :: rest => (false, rest)
  | rest => (false, rest)

def exponentPart : List Char → Option Int
  | [] => some 0
  | c :: rest =>
    if c = 'e' ∨ c = 'E' then
      let (negative, digits) := splitSign rest
      if digits ≠ [] ∧ digits.all Char.isDigit then
        some (if negative then -(digitsValue digits : Int) else digitsValue digits)
      else none
    else none

def unsignedDecimal (text : List Char) : Option Float :=
  let whole := text.takeWhile Char.isDigit
  let (fraction, rest) :=
    match text.dropWhile Char.isDigit with
    | '.' :: rest => (rest.takeWhile Char.isDigit, rest.dropWhile Char.isDigit)
    | rest => ([], rest)
  if whole.isEmpty && fraction.isEmpty then none
  else (exponentPart rest).map fun exponent =>
    nearest (digitsValue (whole ++ fraction)) (exponent - fraction.length)

def lowerAscii (text : List Char) : String := String.ofList (text.map Char.toLower)

def readFloat (text : String) : Except LiteralError Float :=
  if text = "" then .error .empty
  else
    let (negative, body) := splitSign text.toList
    let named := lowerAscii body
    let value : Option Float :=
      if named = "inf" ∨ named = "infinity" then
        some (Float.ofBits (UInt64.ofNat (2047 * Nat.pow 2 52)))
      else if named = "nan" then some (Float.ofBits (UInt64.ofNat (4095 * Nat.pow 2 51)))
      else unsignedDecimal body
    match value with
    | some x => .ok (if negative then -x else x)
    | none => .error .malformed

end FormFlow.Decimal
