import FormFlow.Json.Reader
import FormFlow.Toml.Table
/-!
# Reading settings files

Keys and values, line by line, under the headers of tables. A text, a flag and a
whole number of 64 bits are read as such; decimal numbers and points in time are
checked but have no reading of their own. Containers may be nested 79 deep.
-/
namespace FormFlow.Toml
open Json (Reader)

def isAllowed (c : Char) : Bool := c == '\t' || (0x20 ≤ c.toNat && c.toNat ≠ 0x7F)

def isBlank (c : Char) : Bool := c == ' ' || c == '\t'

def skipBlanks (text : List Char) : List Char := text.dropWhile isBlank

def lineBreak? : List Char → Option (List Char)
  | '\n' :: rest => some rest
  | '\r' :: '\n' :: rest => some rest
  | _ => none

def skipComment (text : List Char) : List Char :=
  match text with
  | '#' :: rest => rest.dropWhile isAllowed
  | rest => rest

def lineEnd? (text : List Char) : Option (List Char) :=
  match skipComment (skipBlanks text) with
  | [] => some []
  | rest => lineBreak? rest

/-- The text behind blanks, comments and line breaks. The first argument bounds the lines. -/
def skipLines : Nat → List Char → List Char
  | 0, text => text
  | more + 1, text =>
    let text := skipBlanks text
    match lineBreak? (skipComment text) with
    | some rest => skipLines more rest
    | none => text

/-! ### Texts -/

def hexCodePoint (count : Nat) (text : List Char) : Option (Char × List Char) := do
  let digits := text.take count
  let value ← digits.foldlM (fun value c => (Json.hexValue c).map fun d => 16 * value + d) 0
  if digits.length = count ∧ value.isValidChar then some (Char.ofNat value, text.drop count)
  else none

def escape : Reader Char
  | 'b' :: rest => some ('\x08', rest)
  | 't' :: rest => some ('\t', rest)
  | 'n' :: rest => some ('\n', rest)
  | 'f' :: rest => some ('\x0c', rest)
  | 'r' :: rest => some ('\r', rest)
  | '"' :: rest => some ('"', rest)
  | '\\' :: rest => some ('\\', rest)
  | 'u' :: rest => hexCodePoint 4 rest
  | 'U' :: rest => hexCodePoint 8 rest
  | _ => none

/-- The rest of a text on one line, up to its quote; only between double quotes there are escapes.
The first argument bounds the characters, and `read` is reversed. -/
def lineText (quote : Char) : Nat → List Char → Reader String
  | 0, _, _ => none
  | _ + 1, _, [] => none
  | more + 1, read, c :: rest =>
    if c = quote then some (String.ofList read.reverse, rest)
    else if c = '\\' ∧ quote = '"' then
      (escape rest).bind fun (c, rest) => lineText quote more (c :: read) rest
    else if isAllowed c then lineText quote more (c :: read) rest
    else none

def skipEmptyLines : Nat → List Char → List Char
  | 0, text => text
  | more + 1, text =>
    match lineBreak? (skipBlanks text) with
    | some rest => skipEmptyLines more rest
    | none => skipBlanks text

def continuation? (text : List Char) : Option (List Char) :=
  (lineBreak? (skipBlanks text)).map fun rest => skipEmptyLines (rest.length + 1) rest

/-- The rest of a text of several lines, up to three quotes. Up to two quotes may stand in it at a
time, at its end as well. -/
def blockText (quote : Char) : Nat → List Char → Reader String
  | 0, _, _ => none
  | _ + 1, _, [] => none
  | more + 1, read, c :: rest =>
    if c = quote then
      let count := min 5 (1 + (rest.takeWhile (· = quote)).length)
      let kept := if 3 ≤ count then count - 3 else count
      let read := List.replicate kept quote ++ read
      if 3 ≤ count then some (String.ofList read.reverse, rest.drop (count - 1))
      else blockText quote more read (rest.drop (count - 1))
    else if c = '\\' ∧ quote = '"' then
      match continuation? rest with
      | some rest => blockText quote more read rest
      | none => (escape rest).bind fun (c, rest) => blockText quote more (c :: read) rest
    else
      match lineBreak? (c :: rest) with
      | some rest => blockText quote more ('\n' :: read) rest
      | none => if isAllowed c then blockText quote more (c :: read) rest else none

def quotedText (quote : Char) (text : List Char) : Option (String × List Char) :=
  if text.take 3 = [quote, quote, quote] then
    let body := text.drop 3
    blockText quote (text.length + 1) [] ((lineBreak? body).getD body)
  else lineText quote (text.length + 1) [] (text.drop 1)

/-! ### Keys -/

def isKeyChar (c : Char) : Bool := c.isAlphanum || c == '_' || c == '-'

def simpleKey (text : List Char) : Option (String × List Char) :=
  match text with
  | '"' :: rest => lineText '"' (rest.length + 1) [] rest
  | '\'' :: rest => lineText '\'' (rest.length + 1) [] rest
  | text =>
    let name := text.takeWhile isKeyChar
    if name.isEmpty then none else some (String.ofList name, text.dropWhile isKeyChar)

def depthLimit : Nat := 79

def dottedKey : Nat → Reader (List String)
  | 0, _ => none
  | more + 1, text => do
    let (key, rest) ← simpleKey (skipBlanks text)
    match skipBlanks rest with
    | '.' :: rest => (dottedKey more rest).map fun (keys, rest) => (key :: keys, rest)
    | rest => some ([key], rest)

def keyPath (text : List Char) : Option (List String × List Char) := dottedKey depthLimit text

/-! ### Numbers and points in time -/

def moreDigits (isDigit : Char → Bool) : List Char → List Char × List Char
  | '_' :: c :: rest =>
    if isDigit c then
      let (digits, rest) := moreDigits isDigit rest
      (c :: digits, rest)
    else ([], '_' :: c :: rest)
  | c :: rest =>
    if isDigit c then
      let (digits, rest) := moreDigits isDigit rest
      (c :: digits, rest)
    else ([], c :: rest)
  | [] => ([], [])

/-- Digits with single underscores between them; the digits alone are kept. -/
def digitRun (isDigit : Char → Bool) (text : List Char) : Option (List Char × List Char) :=
  match text with
  | c :: rest =>
    if isDigit c then
      let (digits, rest) := moreDigits isDigit rest
      some (c :: digits, rest)
    else none
  | [] => none

def decimalDigits (text : List Char) : Option (List Char × List Char) :=
  match text with
  | '0' :: rest => some (['0'], rest)
  | text => digitRun Char.isDigit text

def signOf : List Char → List Char × List Char
  | '+' :: rest => (['+'], rest)
  | '-' :: rest => (['-'], rest)
  | rest => ([], rest)

def wholeValue (n : Int) : Option Document :=
  if -(Nat.pow 2 63 : Int) ≤ n ∧ n < Nat.pow 2 63 then some (.scalar { whole := some n }) else none

def basedNumber (base : Nat) (text : List Char) : Option (Document × List Char) := do
  let (digits, rest) ← digitRun (fun c => (Json.hexValue c).any (· < base)) text
  let value := digits.foldl (fun value c => base * value + (Json.hexValue c).getD 0) 0
  (wholeValue value).map fun d => (d, rest)

def unreadValue : Document := .scalar {}

def exponent? (text : List Char) : Option (List Char × List Char) :=
  match text with
  | c :: rest =>
    if c = 'e' ∨ c = 'E' then
      let (sign, rest) := signOf rest
      (digitRun Char.isDigit rest).map fun (digits, rest) => ('e' :: sign ++ digits, rest)
    else none
  | [] => none

def fractionalPart? (text : List Char) : Option (List Char × List Char) :=
  match text with
  | '.' :: rest => do
    let (digits, rest) ← digitRun Char.isDigit rest
    match exponent? rest with
    | some (power, rest) => some ('.' :: digits ++ power, rest)
    | none => some ('.' :: digits, rest)
  | text => exponent? text

def decimalValue (text : List Char) : Option Document :=
  match Decimal.readFloat (String.ofList text) with
  | .ok x => if x.isInf ∧ 0 < x then none else some unreadValue
  | .error _ => none

def number (text : List Char) : Option (Document × List Char) :=
  match text with
  | '0' :: 'x' :: rest => basedNumber 16 rest
  | '0' :: 'o' :: rest => basedNumber 8 rest
  | '0' :: 'b' :: rest => basedNumber 2 rest
  | text =>
    let (sign, body) := signOf text
    match Json.word ['i', 'n', 'f'] body, Json.word ['n', 'a', 'n'] body with
    | some rest, _ => some (unreadValue, rest)
    | _, some rest => some (unreadValue, rest)
    | none, none => do
      let (digits, rest) ← decimalDigits body
      match fractionalPart? rest with
      | some (more, rest) => (decimalValue (sign ++ digits ++ more)).map fun d => (d, rest)
      | none =>
        let n := Decimal.digitsValue digits
        (wholeValue (if sign = ['-'] then -n else n)).map fun d => (d, rest)

def fixedDigits (count least greatest : Nat) (text : List Char) : Option (Nat × List Char) :=
  let digits := text.take count
  let n := Decimal.digitsValue digits
  if digits.length = count ∧ digits.all Char.isDigit ∧ least ≤ n ∧ n ≤ greatest then
    some (n, text.drop count)
  else none

def isLeapYear (year : Nat) : Bool := year % 4 == 0 && (year % 100 != 0 || year % 400 == 0)

def daysIn (year month : Nat) : Nat :=
  if month = 2 then (if isLeapYear year then 29 else 28)
  else if month = 4 ∨ month = 6 ∨ month = 9 ∨ month = 11 then 30
  else 31

def date? (text : List Char) : Option (List Char) := do
  let (year, rest) ← fixedDigits 4 0 9999 text
  let rest ← Json.word ['-'] rest
  let (month, rest) ← fixedDigits 2 1 12 rest
  let rest ← Json.word ['-'] rest
  let (_, rest) ← fixedDigits 2 1 (daysIn year month) rest
  some rest

def hourAndMinute? (text : List Char) : Option (List Char) := do
  let (_, rest) ← fixedDigits 2 0 23 text
  let rest ← Json.word [':'] rest
  let (_, rest) ← fixedDigits 2 0 59 rest
  some rest

def time? (text : List Char) : Option (List Char) := do
  let rest ← hourAndMinute? text
  let rest ← Json.word [':'] rest
  let (_, rest) ← fixedDigits 2 0 60 rest
  match rest with
  | '.' :: c :: more => some (if c.isDigit then more.dropWhile Char.isDigit else rest)
  | rest => some rest

def offset? (text : List Char) : Option (List Char) :=
  match text with
  | 'Z' :: rest => some rest
  | 'z' :: rest => some rest
  | '+' :: rest => hourAndMinute? rest
  | '-' :: rest => hourAndMinute? rest
  | _ => none

def timeOfDay? (text : List Char) : Option (List Char) :=
  match text with
  | c :: rest =>
    if c = 'T' ∨ c = 't' ∨ c = ' ' then (time? rest).map fun rest => (offset? rest).getD rest
    else none
  | [] => none

def moment? (text : List Char) : Option (List Char) :=
  match date? text with
  | some rest => some ((timeOfDay? rest).getD rest)
  | none => time? text

/-! ### Values -/

def flagValue (b : Bool) : Document := .scalar { flag := some b }

def scalar (text : List Char) : Option (Document × List Char) :=
  match text with
  | '"' :: _ => (quotedText '"' text).map fun (s, rest) => (.scalar { text := some s }, rest)
  | '\'' :: _ => (quotedText '\'' text).map fun (s, rest) => (.scalar { text := some s }, rest)
  | 't' :: _ => (Json.word ['t', 'r', 'u', 'e'] text).map fun rest => (flagValue true, rest)
  | 'f' :: _ => (Json.word ['f', 'a', 'l', 's', 'e'] text).map fun rest => (flagValue false, rest)
  | text =>
    match moment? text with
    | some rest => some (unreadValue, rest)
    | none => number text

/-- The items of a list up to its bracket, one of which may be followed by a last comma. The first
argument bounds their number. -/
def itemsTail (inner : Reader Document) : Nat → List Document → Reader Document
  | 0, _, _ => none
  | more + 1, items, text =>
    match skipLines text.length text with
    | ']' :: rest => some (.list items.reverse, rest)
    | text => do
      let (item, rest) ← inner text
      match skipLines rest.length rest with
      | ',' :: rest => itemsTail inner more (item :: items) rest
      | ']' :: rest => some (.list (item :: items).reverse, rest)
      | _ => none

def entriesTail (inner : Reader Document) : Nat → Table → Reader Document
  | 0, _, _ => none
  | more + 1, table, text => do
    let (keys, rest) ← keyPath text
    let rest ← Json.word ['='] rest
    let (value, rest) ← inner (skipBlanks rest)
    let table ← table.set? value keys
    match skipBlanks rest with
    | ',' :: rest => entriesTail inner more table rest
    | '}' :: rest => some (.record (documents table), rest)
    | _ => none

def value : Nat → Reader Document
  | 0, text => scalar text
  | room + 1, text =>
    match text with
    | '[' :: rest => itemsTail (value room) (rest.length + 1) [] rest
    | '{' :: rest =>
      match skipBlanks rest with
      | '}' :: rest => some (.record [], rest)
      | rest => entriesTail (value room) (rest.length + 1) [] rest
    | text => scalar text

/-! ### Files -/

structure Progress where
  table : Table := []
  header : List String := []

def Progress.headerLine (p : Progress) (text : List Char) : Option (Progress × List Char) :=
  match text with
  | '[' :: rest => do
    let (path, rest) ← keyPath rest
    let rest ← lineEnd? (← Json.word [']', ']'] rest)
    let table ← p.table.addTable? path
    some (⟨table, path⟩, rest)
  | text => do
    let (path, rest) ← keyPath text
    let rest ← lineEnd? (← Json.word [']'] rest)
    let table ← p.table.openTable? path
    some (⟨table, path⟩, rest)

def Progress.entryLine (p : Progress) (text : List Char) : Option (Progress × List Char) := do
  let (keys, rest) ← keyPath text
  let rest ← Json.word ['='] rest
  let (value, rest) ← value depthLimit (skipBlanks rest)
  let rest ← lineEnd? rest
  let table ← p.table.setUnder? p.header keys value
  some ({ p with table }, rest)

def lines : Nat → Progress → List Char → Option Table
  | 0, _, _ => none
  | more + 1, p, text =>
    match skipBlanks text with
    | [] => some p.table
    | '[' :: rest => (p.headerLine rest).bind fun (p, rest) => lines more p rest
    | text =>
      match lineEnd? text with
      | some rest => lines more p rest
      | none => (p.entryLine text).bind fun (p, rest) => lines more p rest

def document? (text : String) : Option Document :=
  let chars := if text.toList.head? = some '\ufeff' then text.toList.drop 1 else text.toList
  (lines (chars.length + 1) {} chars).map fun table => .record (documents table)

end FormFlow.Toml
