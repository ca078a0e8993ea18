import FormFlow.Yaml.Scalar
/-!
# Tokens

A text as a list of tokens. Indentation becomes tokens that open and close block
collections. A key on one line is known as a key only at the colon behind it:
until then it is a candidate, and the tokens that begin its entry are put in
front of it once the colon is met.
-/
namespace FormFlow.Yaml

inductive Token where
  | version (major minor : Nat)
  | tagHandle (handle expansion : String)
  | documentStart
  | documentEnd
  | blockListStart
  | blockRecordStart
  | blockEnd
  | flowListStart
  | flowListEnd
  | flowRecordStart
  | flowRecordEnd
  | blockItem
  | flowItem
  | key
  | value
  | reference (name : String)
  | anchor (name : String)
  | tag (handle suffix : String)
  | scalar (style : Style) (text : String)
  deriving DecidableEq, Repr, Inhabited

/-! ### Names, tags and directives -/

def anchorName (spots : List Spot) : Option (String × List Spot) :=
  let name := takeChars isNameChar spots
  let rest := dropSpots isNameChar spots
  let next := peek rest 0
  if name.isEmpty || !(endsWord next || "?:,]\x7d%@\x60".toList.contains next) then none
  else some (String.ofList name, rest)

/-- A tag handle: a mark, name characters, and a closing mark that only a sole mark may lack inside
of a directive. -/
def tagHandle (directive : Bool) (spots : List Spot) : Option (List Char × List Spot) :=
  if peek spots 0 ≠ '!' then none
  else
    let name := takeChars isNameChar (spots.drop 1)
    let rest := dropSpots isNameChar (spots.drop 1)
    if peek rest 0 = '!' then some ('!' :: name ++ ['!'], rest.drop 1)
    else if directive && !name.isEmpty then none
    else some ('!' :: name, rest)

def octetCount? (first : Nat) : Option Nat :=
  if first < 0x80 then some 1
  else if first / 0x20 = 6 then some 2
  else if first / 0x10 = 14 then some 3
  else if first / 0x08 = 30 then some 4
  else none

def escapedOctet? (spots : List Spot) : Option Nat :=
  if peek spots 0 = '%' ∧ 3 ≤ spots.length then hexNumber? ((spots.drop 1).take 2 |>.map Spot.char)
  else none

def trailingOctets? : Nat → Nat → List Spot → Option (Nat × List Spot)
  | 0, value, spots => some (value, spots)
  | n + 1, value, spots => do
    let octet ← escapedOctet? spots
    if octet / 0x40 = 2 then trailingOctets? n (value * 0x40 + octet % 0x40) (spots.drop 3) else none

def escapedOctets? (spots : List Spot) : Option (Char × List Spot) := do
  let first ← escapedOctet? spots
  let count ← octetCount? first
  let value := if count = 1 then first else first % Nat.pow 2 (7 - count)
  let (value, rest) ← trailingOctets? (count - 1) value (spots.drop 3)
  some (Char.ofNat value, rest)

def isTagChar (wide : Bool) (c : Char) : Bool :=
  isNameChar c || ";/?:@&=+$.!~*'()%".toList.contains c || (wide && ",[]".toList.contains c)

def tagChars (wide : Bool) : Nat → List Spot → Option (List Char × List Spot)
  | 0, _ => none
  | _ + 1, [] => some ([], [])
  | more + 1, s :: rest =>
    if !isTagChar wide s.char then some ([], s :: rest)
    else if s.char == '%' then do
      let (c, rest) ← escapedOctets? (s :: rest)
      (tagChars wide more rest).map fun (text, rest) => (c :: text, rest)
    else (tagChars wide more rest).map fun (text, rest) => (s.char :: text, rest)

def tagText (wide : Bool) (spots : List Spot) : Option (List Char × List Spot) :=
  tagChars wide (spots.length + 1) spots

def tagToken (flow : Bool) (spots : List Spot) : Option (Token × List Spot) := do
  let (token, rest) ←
    if peek spots 1 = '<' then do
      let (text, rest) ← tagText true (spots.drop 2)
      if text.isEmpty || peek rest 0 ≠ '>' then none
      else some (Token.tag "" (String.ofList text), rest.drop 1)
    else do
      let (handle, rest) ← tagHandle false spots
      let (text, rest) ← tagText false rest
      if 2 ≤ handle.length && handle.getLast? == some '!' then
        if text.isEmpty then none
        else some (Token.tag (String.ofList handle) (String.ofList text), rest)
      else
        let suffix := handle.drop 1 ++ text
        if suffix.isEmpty then some (Token.tag "" "!", rest)
        else some (Token.tag "!" (String.ofList suffix), rest)
  if endsWord (peek rest 0) || (flow && peek rest 0 == ',') then some (token, rest) else none

def versionNumber (spots : List Spot) : Option (Nat × List Spot) :=
  let digits := takeChars Char.isDigit spots
  if digits.isEmpty || 9 < digits.length then none
  else some (Decimal.digitsValue digits, dropSpots Char.isDigit spots)

def versionDirective (spots : List Spot) : Option (Token × List Spot) := do
  let (major, rest) ← versionNumber (dropSpots isSpaceOrTab spots)
  let (minor, rest) ← if peek rest 0 = '.' then versionNumber (rest.drop 1) else none
  some (.version major minor, rest)

def tagDirective (spots : List Spot) : Option (Token × List Spot) := do
  let (handle, rest) ← tagHandle true (dropSpots isSpaceOrTab spots)
  if !isSpaceOrTab (peek rest 0) then none
  else
    let (text, rest) ← tagText true (dropSpots isSpaceOrTab rest)
    if text.isEmpty || !endsWord (peek rest 0) then none
    else some (.tagHandle (String.ofList handle) (String.ofList text), rest)

def directive (spots : List Spot) : Option (Token × List Spot) := do
  let name := takeChars isNameChar (spots.drop 1)
  let rest := dropSpots isNameChar (spots.drop 1)
  let (token, rest) ←
    if !endsWord (peek rest 0) then none
    else if name = "YAML".toList then versionDirective rest
    else if name = "TAG".toList then tagDirective rest
    else none
  let rest := dropSpots isSpaceOrTab rest
  let rest := if peek rest 0 == '#' then dropSpots (fun c => !isBreak c) rest else rest
  if endsLine (peek rest 0) then some (token, rest.drop 1) else none

/-! ### Reading tokens -/

/-- A place where a key may turn out to begin. -/
structure Candidate where
  position : Nat
  spot : Spot
  /-- Nothing but a key can stand here. -/
  required : Bool

structure Scan where
  rest : List Spot
  read : List Token := []
  indent : Int := -1
  enclosing : List Int := []
  candidate : Option Candidate := none
  /-- The candidates outside of each flow collection that is open. -/
  outer : List (Option Candidate) := []
  keyAllowed : Bool := true

namespace Scan

def inFlow (s : Scan) : Bool := !s.outer.isEmpty

def column (s : Scan) : Nat := (s.rest.head?.map Spot.column).getD 0

def emit (s : Scan) (token : Token) : Scan := { s with read := token :: s.read }

def take (s : Scan) (token : Token) (length : Nat) : Scan :=
  { s.emit token with rest := s.rest.drop length }

def insert (s : Scan) (position : Nat) (token : Token) : Scan :=
  let later := s.read.length - position
  { s with read := s.read.take later ++ token :: s.read.drop later }

def allowKey (s : Scan) (allowed : Bool) : Scan := { s with keyAllowed := allowed }

def dropCandidate (s : Scan) : Option Scan :=
  match s.candidate with
  | some c => if c.required then none else some { s with candidate := none }
  | none => some s

def saveCandidate (s : Scan) : Option Scan :=
  match s.rest with
  | spot :: _ =>
    if s.keyAllowed then do
      let required := !s.inFlow && s.indent == spot.column
      let s ← s.dropCandidate
      some { s with candidate := some ⟨s.read.length, spot, required⟩ }
    else some s
  | [] => some s

/-- A key ends on its line and within 1024 characters. -/
def Candidate.isStale (c : Candidate) (spot : Spot) : Bool :=
  c.spot.line < spot.line || c.spot.index + 1024 < spot.index

def refresh (spot : Spot) : Option Candidate → Option (Option Candidate)
  | some c => if Candidate.isStale c spot then (if c.required then none else some none) else some (some c)
  | none => some none

def dropStale (s : Scan) : Option Scan :=
  match s.rest with
  | spot :: _ => do
    let candidate ← refresh spot s.candidate
    let outer ← s.outer.mapM (refresh spot)
    some { s with candidate, outer }
  | [] => some s

def openBlock (s : Scan) (column : Nat) (position : Nat) (token : Token) : Scan :=
  if !s.inFlow && s.indent < column then
    { s.insert position token with indent := column, enclosing := s.indent :: s.enclosing }
  else s

/-- Closes the block collections behind a column; the columns around the innermost one are given. -/
def closeBehind (s : Scan) (column : Int) : List Int → Scan
  | [] => { s with enclosing := [] }
  | next :: further =>
    if column < s.indent then closeBehind { s.emit .blockEnd with indent := next } column further
    else { s with enclosing := next :: further }

def closeBlocks (s : Scan) (column : Int) : Scan :=
  if s.inFlow then s else s.closeBehind column s.enclosing

/-- The text behind blanks, comments and line breaks, and whether a key may begin there. Tabs are
skipped only where no key may begin. -/
def skip (flow : Bool) : Bool → Bool → List Spot → Bool × List Spot
  | _, keyAllowed, [] => (keyAllowed, [])
  | comment, keyAllowed, s :: rest =>
    if isBreak s.char then skip flow false (keyAllowed || !flow) rest
    else if comment then skip flow true keyAllowed rest
    else if s.char == ' ' || (s.char == orderMark && s.column == 0)
        || (s.char == '\t' && (flow || !keyAllowed)) then
      skip flow false keyAllowed rest
    else if s.char == '#' then skip flow true keyAllowed rest
    else (keyAllowed, s :: rest)

def skipGap (s : Scan) : Scan :=
  let (keyAllowed, rest) := skip s.inFlow false s.keyAllowed s.rest
  { s with keyAllowed, rest }

def atMargin (s : Scan) : Option Scan :=
  (s.closeBlocks (-1)).dropCandidate.map fun s => s.allowKey false

def openFlow (s : Scan) (token : Token) : Option Scan := do
  let s ← s.saveCandidate
  some ({ s with outer := s.candidate :: s.outer, candidate := none }.allowKey true |>.take token 1)

def closeFlow (s : Scan) (token : Token) : Option Scan := do
  let s ← s.dropCandidate
  let s :=
    match s.outer with
    | candidate :: outer => { s with candidate, outer }
    | [] => s
  some ((s.allowKey false).take token 1)

def blockMark (s : Scan) (opening token : Token) (allowed : Bool) : Option Scan :=
  if !s.inFlow && !s.keyAllowed then none
  else do
    let s ← (s.openBlock s.column s.read.length opening).dropCandidate
    some ((s.allowKey allowed).take token 1)

/-- The colon in front of a value makes a key of the candidate. -/
def valueMark (s : Scan) : Option Scan :=
  match s.candidate with
  | some c =>
    let s := (s.insert c.position .key).openBlock c.spot.column c.position .blockRecordStart
    some ({ s with candidate := none }.allowKey false |>.take .value 1)
  | none =>
    if !s.inFlow && !s.keyAllowed then none
    else
      let s := s.openBlock s.column s.read.length .blockRecordStart
      some ((s.allowKey !s.inFlow).take .value 1)

def content (s : Scan) (read : List Spot → Option (Token × List Spot)) : Option Scan := do
  let s ← s.saveCandidate
  let (token, rest) ← read s.rest
  some { (s.emit token).allowKey false with rest }

def plain (s : Scan) : Option Scan := do
  let s ← s.saveCandidate
  let p ← plainScalar s.inFlow (s.indent + 1) s.rest
  some { (s.emit (.scalar .plain (String.ofList p.text))).allowKey p.broken with rest := p.rest }

def block (s : Scan) (literal : Bool) : Option Scan := do
  let s ← s.dropCandidate
  let (text, rest) ← blockScalar literal s.indent (s.rest.drop 1)
  some { (s.emit (.scalar .block (String.ofList text))).allowKey true with rest }

def quoted (s : Scan) (single : Bool) : Option Scan :=
  s.content fun spots => (quotedScalar single (spots.drop 1)).map fun (text, rest) =>
    (.scalar .quoted (String.ofList text), rest)

def beginsPlain (flow : Bool) (c next : Char) : Bool :=
  !(endsWord c || "-?:,[]\x7b\x7d#&*!|>'\"%@\x60".toList.contains c)
    || (c == '-' && !isSpaceOrTab next)
    || (!flow && (c == '?' || c == ':') && !endsWord next)

def token (s : Scan) (c : Char) : Option Scan :=
  let next := peek s.rest 1
  if s.column == 0 && c == '%' then do
    let s ← s.atMargin
    let (token, rest) ← directive s.rest
    some { s.emit token with rest }
  else if startsMark s.rest documentStart then s.atMargin.map fun s => s.take .documentStart 3
  else if startsMark s.rest documentEnd then s.atMargin.map fun s => s.take .documentEnd 3
  else if c == '[' then s.openFlow .flowListStart
  else if c == '{' then s.openFlow .flowRecordStart
  else if c == ']' then s.closeFlow .flowListEnd
  else if c == '}' then s.closeFlow .flowRecordEnd
  else if c == ',' then s.dropCandidate.map fun s => (s.allowKey true).take .flowItem 1
  else if c == '-' && endsWord next then
    if s.inFlow then s.dropCandidate.map fun s => (s.allowKey true).take .blockItem 1
    else s.blockMark .blockListStart .blockItem true
  else if c == '?' && (s.inFlow || endsWord next) then
    s.blockMark .blockRecordStart .key !s.inFlow
  else if c == ':' && (s.inFlow || endsWord next) then s.valueMark
  else if c == '*' then
    s.content fun spots => (anchorName (spots.drop 1)).map fun (n, rest) => (.reference n, rest)
  else if c == '&' then
    s.content fun spots => (anchorName (spots.drop 1)).map fun (n, rest) => (.anchor n, rest)
  else if c == '!' then s.content (tagToken s.inFlow)
  else if c == '|' && !s.inFlow then s.block true
  else if c == '>' && !s.inFlow then s.block false
  else if c == '\'' then s.quoted true
  else if c == '"' then s.quoted false
  else if beginsPlain s.inFlow c next then s.plain
  else none

def tokens : Nat → Scan → Option (List Token)
  | 0, _ => none
  | more + 1, s => do
    let s ← s.skipGap.dropStale
    match s.rest with
    | [] => s.atMargin.map fun s => s.read.reverse
    | spot :: _ => do tokens more (← (s.closeBlocks spot.column).token spot.char)

end Scan

def tokens? (text : String) : Option (List Token) := do
  let spots ← spots? text
  Scan.tokens (spots.length + 1) { rest := spots }

end FormFlow.Yaml
