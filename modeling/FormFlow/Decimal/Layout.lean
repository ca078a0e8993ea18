import FormFlow.Decimal.Shortest
/-!
# Written forms of a decimal

A decimal is laid out in positional notation, always with a fraction, or in
scientific notation with a signed exponent and no fraction after a single
digit. Which exponents are positional is the format's own choice.
-/
namespace FormFlow.Decimal

/-- The choice of notation, by the decimal exponent of the leading digit. -/
structure Layout where
  positional : Int → Bool

namespace Layout

def zeros (n : Nat) : String := String.ofList (List.replicate n '0')

def point (digits : List Char) (place : Int) : String :=
  if (digits.length : Int) ≤ place then
    String.ofList digits ++ zeros (place.toNat - digits.length) ++ ".0"
  else if 0 < place then
    String.ofList (digits.take place.toNat) ++ "." ++ String.ofList (digits.drop place.toNat)
  else "0." ++ zeros (-place).toNat ++ String.ofList digits

def scientific (digits : List Char) (exponent : Int) : String :=
  let fraction := digits.drop 1
  String.ofList (digits.take 1)
    ++ (if fraction.isEmpty then "" else "." ++ String.ofList fraction)
    ++ (if exponent < 0 then "e-" else "e+") ++ toString exponent.natAbs

def magnitude (layout : Layout) (d : Scaled) : String :=
  if d.digits = 0 then "0.0"
  else
    let digits := Nat.toDigits 10 d.digits
    let place := d.exponent + digits.length
    if layout.positional (place - 1) then point digits place else scientific digits (place - 1)

def render (layout : Layout) (x : Float) : String :=
  let bits := x.toBits.toNat
  let magnitude := layout.magnitude (shortest (bits % Nat.pow 2 63))
  if bits < Nat.pow 2 63 then magnitude else "-" ++ magnitude

end Layout

/-- Data files write exponents from -5 to 15 positionally. -/
def Layout.data : Layout := ⟨fun exponent => -5 ≤ exponent && exponent < 16⟩

def Layout.prose : Layout := ⟨fun _ => true⟩

end FormFlow.Decimal
