/-!
# Placed characters

A text as the list of its characters with their places. Every line break is a
line feed, except for the line and paragraph separators, which stand for
themselves. Only printable characters, tabs and line breaks are allowed.
-/
namespace FormFlow.Yaml

structure Spot where
  char : Char
  index : Nat
  line : Nat
  column : Nat
  deriving DecidableEq, Repr, Inhabited

def isAllowed (c : Char) : Bool :=
  let n := c.toNat
  n == 0x09 || n == 0x0A || n == 0x0D || (0x20 ≤ n && n ≤ 0x7E) || n == 0x85
    || (0xA0 ≤ n && n ≤ 0xD7FF) || (0xE000 ≤ n && n ≤ 0xFFFD) || 0x10000 ≤ n

def unifyBreaks : List Char → List Char
  | [] => []
  | '\r' :: '\n' :: rest => '\n' :: unifyBreaks rest
  | c :: rest => (if c = '\r' ∨ c.toNat = 0x85 then '\n' else c) :: unifyBreaks rest

def isBreak (c : Char) : Bool := c == '\n' || c.toNat == 0x2028 || c.toNat == 0x2029

def isSpaceOrTab (c : Char) : Bool := c == ' ' || c == '\t'

/-- What a look beyond the end of a text meets; no text holds it. -/
def endMark : Char := '\x00'

def endsWord (c : Char) : Bool := isSpaceOrTab c || isBreak c || c == endMark

def endsLine (c : Char) : Bool := isBreak c || c == endMark

def place (index line column : Nat) : List Char → List Spot
  | [] => []
  | c :: rest =>
    ⟨c, index, line, column⟩ ::
      if isBreak c then place (index + 1) (line + 1) 0 rest
      else place (index + 1) line (column + 1) rest

def orderMark : Char := '\ufeff'

def spots? (text : String) : Option (List Spot) :=
  let chars := if text.toList.head? = some orderMark then text.toList.drop 1 else text.toList
  if chars.all isAllowed then some (place 0 0 0 (unifyBreaks chars)) else none

def peek (spots : List Spot) (ahead : Nat) : Char :=
  match spots[ahead]? with
  | some s => s.char
  | none => endMark

def startsWith (spots : List Spot) (w : List Char) : Bool :=
  (spots.take w.length).map Spot.char == w

def startsMark (spots : List Spot) (mark : List Char) : Bool :=
  match spots with
  | s :: _ => s.column == 0 && startsWith spots mark && endsWord (peek spots 3)
  | [] => false

def documentStart : List Char := ['-', '-', '-']
def documentEnd : List Char := ['.', '.', '.']

def startsDocumentMark (spots : List Spot) : Bool :=
  startsMark spots documentStart || startsMark spots documentEnd

def dropSpots (p : Char → Bool) (spots : List Spot) : List Spot := spots.dropWhile fun s => p s.char

def takeChars (p : Char → Bool) (spots : List Spot) : List Char :=
  (spots.takeWhile fun s => p s.char).map Spot.char

def isNameChar (c : Char) : Bool := c.isAlphanum || c == '_' || c == '-'

end FormFlow.Yaml
