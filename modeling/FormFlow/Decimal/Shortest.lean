/-!
# Shortest decimal text of a binary number

A positive binary number `mantissa · 2 ^ exponent` is written with the fewest
decimal digits that lie in its rounding interval, the reals that round back to
it. On a decimal grid only the two neighbours of the value can be the nearest
grid points, so the grids of 1, 2, … 17 digits are tried in turn; of two hits
the nearer one is taken, and the even one when both are equally near.
-/
namespace FormFlow.Decimal

structure Scaled where
  digits : Nat
  exponent : Int
  deriving DecidableEq, Repr, Inhabited

/-- A value with the bounds of its rounding interval, all over one denominator. -/
structure Interval where
  lower : Nat
  value : Nat
  upper : Nat
  unit : Nat
  closed : Bool
  deriving DecidableEq, Repr

namespace Interval

/-- The rounding interval of a positive binary64 number given by its bits without the sign.
Just above a power of two the gap below is half the gap above. -/
def ofBits (bits : Nat) : Interval :=
  let field := bits / Nat.pow 2 52
  let fraction := bits % Nat.pow 2 52
  let mantissa := if field = 0 then fraction else fraction + Nat.pow 2 52
  let shift : Int := ((max field 1 : Nat) : Int) - 1077
  let scale := Nat.pow 2 shift.toNat
  let gapBelow := if fraction = 0 ∧ 1 < field then 1 else 2
  ⟨(4 * mantissa - gapBelow) * scale, 4 * mantissa * scale, (4 * mantissa + 2) * scale,
    Nat.pow 2 (-shift).toNat, mantissa % 2 = 0⟩

/-- The grid point `point · 10 ^ exponent` in the interval's own units, beside the factor that
the bounds take. -/
def scaled (i : Interval) (point : Nat) (exponent : Int) : Nat × Nat :=
  (point * Nat.pow 10 exponent.toNat * i.unit, Nat.pow 10 (-exponent).toNat)

def contains (i : Interval) (point : Nat) (exponent : Int) : Bool :=
  let (x, factor) := i.scaled point exponent
  if i.closed then i.lower * factor ≤ x && x ≤ i.upper * factor
  else i.lower * factor < x && x < i.upper * factor

def distance (i : Interval) (point : Nat) (exponent : Int) : Nat :=
  let (x, factor) := i.scaled point exponent
  (x - i.value * factor) + (i.value * factor - x)

def floor (i : Interval) (exponent : Int) : Nat :=
  i.value * Nat.pow 10 (-exponent).toNat / (i.unit * Nat.pow 10 exponent.toNat)

/-- The neighbour of the value on a decimal grid that reads back, if one does. -/
def pick (i : Interval) (exponent : Int) : Option Nat :=
  let low := i.floor exponent
  match i.contains low exponent, i.contains (low + 1) exponent with
  | false, false => none
  | true, false => some low
  | false, true => some (low + 1)
  | true, true =>
    let down := i.distance low exponent
    let up := i.distance (low + 1) exponent
    if down < up then some low
    else if up < down then some (low + 1)
    else some (if low % 2 = 0 then low else low + 1)

def leading (i : Interval) : Int :=
  if i.unit ≤ i.value then ((Nat.toDigits 10 (i.value / i.unit)).length : Int) - 1
  else
    let ratio := (i.unit + i.value - 1) / i.value
    if ratio ≤ 1 then 0 else -((Nat.toDigits 10 (ratio - 1)).length : Int)

def search (i : Interval) : Nat → Int → Scaled
  | 0, exponent => ⟨i.floor exponent, exponent⟩
  | more + 1, exponent =>
    match i.pick exponent with
    | some point => ⟨point, exponent⟩
    | none => search i more (exponent - 1)

end Interval

def Scaled.strip : Nat → Scaled → Scaled
  | 0, d => d
  | more + 1, d =>
    if d.digits ≠ 0 ∧ d.digits % 10 = 0 then strip more ⟨d.digits / 10, d.exponent + 1⟩ else d

/-- The shortest decimal that rounds to the binary64 number with these bits. -/
def shortest (bits : Nat) : Scaled :=
  if bits = 0 then ⟨0, 0⟩
  else
    let i := Interval.ofBits bits
    (i.search 17 i.leading).strip 17

end FormFlow.Decimal
