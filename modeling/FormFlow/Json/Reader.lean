import FormFlow.Json.Basic
import FormFlow.Decimal.Rounding
/-!
# Reading data values

A strict reader of the written form: blanks may stand around values, a text
must be well formed down to its escapes, and containers may be nested 127 deep.
A number without fraction and exponent is whole if it fits 64 bits; any other
number is read from at most 64 bits of digits by one scaling with a power of
ten, and one beyond the range is refused. A repeated key keeps the last value.
-/
namespace FormFlow.Json

abbrev Reader (α : Type) := List Char → Option (α × List Char)

def isSpace (c : Char) : Bool := c == ' ' || c == '\n' || c == '\t' || c == '\r'

def skipSpace (text : List Char) : List Char := text.dropWhile isSpace

def word (w : List Char) (text : List Char) : Option (List Char) :=
  if text.take w.length = w then some (text.drop w.length) else none

def hexValue (c : Char) : Option Nat :=
  if c.isDigit then some (c.toNat - '0'.toNat)
  else if 'a' ≤ c ∧ c ≤ 'f' then some (c.toNat - 'a'.toNat + 10)
  else if 'A' ≤ c ∧ c ≤ 'F' then some (c.toNat - 'A'.toNat + 10)
  else none

def codeUnit : Reader Nat
  | a :: b :: c :: d :: rest => do
    let a ← hexValue a
    let b ← hexValue b
    let c ← hexValue c
    let d ← hexValue d
    some (((a * 16 + b) * 16 + c) * 16 + d, rest)
  | _ => none

def unicodeEscape (text : List Char) : Option (Char × List Char) := do
  let (unit, rest) ← codeUnit text
  if 0xD800 ≤ unit ∧ unit < 0xDC00 then
    match rest with
    | '\\' :: 'u' :: rest =>
      let (low, rest) ← codeUnit rest
      if 0xDC00 ≤ low ∧ low < 0xE000 then
        some (Char.ofNat (0x10000 + (unit - 0xD800) * 0x400 + (low - 0xDC00)), rest)
      else none
    | _ => none
  else if 0xDC00 ≤ unit ∧ unit < 0xE000 then none
  else some (Char.ofNat unit, rest)

def simpleEscape : Char → Option Char
  | '"' => some '"'
  | '\\' => some '\\'
  | '/' => some '/'
  | 'b' => some '\x08'
  | 'f' => some '\x0c'
  | 'n' => some '\n'
  | 'r' => some '\r'
  | 't' => some '\t'
  | _ => none

/-- The rest of a text after its opening quote; `read` is reversed. The first argument bounds the
number of characters. -/
def stringBody : Nat → List Char → Reader String
  | 0, _, _ => none
  | _ + 1, _, [] => none
  | _ + 1, read, '"' :: rest => some (String.ofList read.reverse, rest)
  | more + 1, read, '\\' :: 'u' :: rest =>
    (unicodeEscape rest).bind fun (c, rest) => stringBody more (c :: read) rest
  | more + 1, read, '\\' :: c :: rest =>
    (simpleEscape c).bind fun c => stringBody more (c :: read) rest
  | more + 1, read, c :: rest =>
    if c.toNat < 0x20 ∨ c = '\\' then none else stringBody more (c :: read) rest

def stringLiteral : Reader String
  | '"' :: rest => stringBody (rest.length + 1) [] rest
  | _ => none

/-- Digits gathered into at most 64 bits, with the number of further digits that were dropped. -/
structure Gathered where
  value : Nat
  taken : Nat
  dropped : Nat

def gather (start : Nat) (digits : List Char) : Gathered :=
  digits.foldl (fun g c =>
    let next := 10 * g.value + (c.toNat - '0'.toNat)
    if g.dropped = 0 ∧ next < Nat.pow 2 64 then ⟨next, g.taken + 1, 0⟩
    else ⟨g.value, g.taken, g.dropped + 1⟩) ⟨start, 0, 0⟩

def isInfinite (x : Float) : Bool := x.abs == Decimal.nearest 1 400

/-- Scales by a power of ten, down in steps of 308 if need be; overflow is refused. -/
def scale : Nat → Float → Int → Option Float
  | 0, x, _ => some x
  | steps + 1, x, exponent =>
    if exponent.natAbs ≤ 308 then
      let power := Decimal.nearest 1 exponent.natAbs
      if 0 ≤ exponent then
        let scaled := x * power
        if isInfinite scaled then none else some scaled
      else some (x / power)
    else if x == 0.0 then some x
    else if 0 ≤ exponent then none
    else scale steps (x / Decimal.nearest 1 308) (exponent + 308)

def fromParts (negative : Bool) (significand : Nat) (exponent : Int) : Option Json := do
  let x ← scale 8 (UInt64.ofNat significand).toFloat exponent
  some (.float (if negative then -x else x))

/-- The exponent part; the marker is already read. An exponent beyond 32 bits makes the number
zero, or is refused if it is positive and the digits are not all zero. -/
def exponentPart (negative : Bool) (significand : Nat) (start : Int) (text : List Char) :
    Option (Json × List Char) :=
  let (down, text) := Decimal.splitSign text
  let digits := text.takeWhile Char.isDigit
  let rest := text.dropWhile Char.isDigit
  let exponent := Decimal.digitsValue digits
  if digits.isEmpty then none
  else if Nat.pow 2 31 ≤ exponent then
    if significand ≠ 0 ∧ down = false then none
    else some (.float (if negative then -0.0 else 0.0), rest)
  else
    (fromParts negative significand (if down then start - exponent else start + exponent)).map
      fun value => (value, rest)

def afterWhole (negative : Bool) (whole : Gathered) (text : List Char) :
    Option (Json × List Char) :=
  match text with
  | '.' :: rest =>
    let digits := rest.takeWhile Char.isDigit
    let rest := rest.dropWhile Char.isDigit
    let all : Gathered :=
      if whole.dropped = 0 then gather whole.value digits else ⟨whole.value, 0, digits.length⟩
    let exponent : Int := (whole.dropped : Int) - all.taken
    if digits.isEmpty then none
    else
      match rest with
      | 'e' :: rest => exponentPart negative all.value exponent rest
      | 'E' :: rest => exponentPart negative all.value exponent rest
      | rest => (fromParts negative all.value exponent).map fun value => (value, rest)
  | 'e' :: rest => exponentPart negative whole.value whole.dropped rest
  | 'E' :: rest => exponentPart negative whole.value whole.dropped rest
  | rest =>
    if whole.dropped ≠ 0 then
      (fromParts negative whole.value whole.dropped).map fun value => (value, rest)
    else if negative then
      if whole.value = 0 ∨ Nat.pow 2 63 < whole.value then
        some (.float (-(UInt64.ofNat whole.value).toFloat), rest)
      else some (.int (-(whole.value : Int)), rest)
    else some (.int whole.value, rest)

def number (text : List Char) : Option (Json × List Char) :=
  let (negative, text) :=
    match text with
    | '-' :: rest => (true, rest)
    | text => (false, text)
  let digits := text.takeWhile Char.isDigit
  let rest := text.dropWhile Char.isDigit
  if digits.isEmpty ∨ (digits.head? = some '0' ∧ 1 < digits.length) then none
  else afterWhole negative (gather 0 digits) rest

def scalar (text : List Char) : Option (Json × List Char) :=
  match text with
  | '"' :: _ => (stringLiteral text).map fun (s, rest) => (.str s, rest)
  | 'n' :: _ => (word ['n', 'u', 'l', 'l'] text).map fun rest => (.null, rest)
  | 't' :: _ => (word ['t', 'r', 'u', 'e'] text).map fun rest => (.bool true, rest)
  | 'f' :: _ => (word ['f', 'a', 'l', 's', 'e'] text).map fun rest => (.bool false, rest)
  | _ => number text

def itemsTail (inner : Reader Json) : Nat → List Json → Reader Json
  | 0, _, _ => none
  | more + 1, read, text => do
    let (item, rest) ← inner (skipSpace text)
    match skipSpace rest with
    | ',' :: rest => itemsTail inner more (item :: read) rest
    | ']' :: rest => some (.arr (item :: read).reverse, rest)
    | _ => none

def fieldsTail (inner : Reader Json) : Nat → Fields → Reader Json
  | 0, _, _ => none
  | more + 1, read, text => do
    let (key, rest) ← stringLiteral (skipSpace text)
    match skipSpace rest with
    | ':' :: rest =>
      let (value, rest) ← inner (skipSpace rest)
      let read := Assoc.insert read key value
      match skipSpace rest with
      | ',' :: rest => fieldsTail inner more read rest
      | '}' :: rest => some (.obj read, rest)
      | _ => none
    | _ => none

def container (inner : Reader Json) (text : List Char) : Option (Json × List Char) :=
  match text with
  | '[' :: rest =>
    match skipSpace rest with
    | ']' :: rest => some (.arr [], rest)
    | _ => itemsTail inner rest.length [] rest
  | '{' :: rest =>
    match skipSpace rest with
    | '}' :: rest => some (.obj [], rest)
    | _ => fieldsTail inner rest.length [] rest
  | _ => none

/-- A value whose containers are nested at most `room` deep. -/
def value : Nat → Reader Json
  | 0, text => scalar text
  | room + 1, text =>
    match text with
    | '[' :: _ => container (value room) text
    | '{' :: _ => container (value room) text
    | _ => scalar text

def depthLimit : Nat := 127

def read? (text : String) : Option Json := do
  let (v, rest) ← value depthLimit (skipSpace text.toList)
  if (skipSpace rest).isEmpty then some v else none

end FormFlow.Json
