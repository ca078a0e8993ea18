import FormFlow.Yaml.Spot
import FormFlow.Json.Reader
/-!
# Scalars

The texts of plain, quoted and block scalars. Blanks and line breaks between
two words of a plain or quoted scalar are folded: one line break is a blank,
of several all but the first are kept, and blanks beside a line break vanish.
-/
namespace FormFlow.Yaml

inductive Style where
  | plain
  | quoted
  | block
  deriving DecidableEq, Repr, Inhabited

/-- What stands between two words; characters are reversed. -/
inductive Gap where
  | blanks (read : List Char)
  | breaks (first : Option Char) (more : List Char)

namespace Gap

def add (gap : Gap) (c : Char) : Gap :=
  match gap with
  | .blanks read => if isBreak c then .breaks (some c) [] else .blanks (c :: read)
  | .breaks first more => if isBreak c then .breaks first (c :: more) else gap

def folded : Gap → List Char
  | .blanks read => read.reverse
  | .breaks (some '\n') [] => [' ']
  | .breaks (some '\n') more => more.reverse
  | .breaks first more => first.toList ++ more.reverse

def isBroken : Gap → Bool
  | .blanks _ => false
  | .breaks _ _ => true

end Gap

def inGap (c : Char) : Bool := isSpaceOrTab c || isBreak c

def Gap.extend (start : Gap) (spots : List Spot) : Gap :=
  (takeChars inGap spots).foldl Gap.add start

/-! ### Plain scalars -/

def flowIndicators : List Char := [',', '[', ']', '{', '}']

/-- The next word of a plain scalar. Inside a flow collection a colon may not stand directly before
an indicator. -/
def plainWord (flow : Bool) : List Spot → Option (List Char × List Spot)
  | [] => some ([], [])
  | s :: rest =>
    let next := peek rest 0
    if endsWord s.char then some ([], s :: rest)
    else if flow && s.char == ':' && (next == '?' || flowIndicators.contains next) then none
    else if (s.char == ':' && endsWord next) || (flow && flowIndicators.contains s.char) then
      some ([], s :: rest)
    else (plainWord flow rest).map fun (word, rest) => (s.char :: word, rest)

def tabBefore (column : Int) (spots : List Spot) : Bool :=
  (spots.takeWhile fun s => inGap s.char).any fun s =>
    s.char == '\t' && (s.column : Int) < column && (spots.head?.map Spot.line).getD 0 < s.line

structure Plain where
  text : List Char
  broken : Bool
  rest : List Spot

/-- The words of a plain scalar; outside of flow collections they stand at the given column or
behind it. The first argument bounds their number. -/
def plainWords (flow : Bool) (column : Int) : Nat → List Char → Gap → List Spot → Option Plain
  | 0, _, _, _ => none
  | more + 1, text, gap, spots =>
    if startsDocumentMark spots || peek spots 0 == '#' then some ⟨text, gap.isBroken, spots⟩
    else do
      let (word, rest) ← plainWord flow spots
      let text := if word.isEmpty then text else text ++ gap.folded ++ word
      let gap := if word.isEmpty then gap else .blanks []
      if !inGap (peek rest 0) then some ⟨text, gap.isBroken, rest⟩
      else if tabBefore column rest then none
      else
        let gap := gap.extend rest
        let rest := dropSpots inGap rest
        if !flow && (rest.head?.map fun s => decide ((s.column : Int) < column)).getD true then
          some ⟨text, gap.isBroken, rest⟩
        else plainWords flow column more text gap rest

def plainScalar (flow : Bool) (column : Int) (spots : List Spot) : Option Plain :=
  plainWords flow column (spots.length + 1) [] (.blanks []) spots

/-! ### Quoted scalars -/

def escaped? : Char → Option Char
  | '0' => some '\x00'
  | 'a' => some '\x07'
  | 'b' => some '\x08'
  | 't' => some '\t'
  | '\t' => some '\t'
  | 'n' => some '\n'
  | 'v' => some '\x0b'
  | 'f' => some '\x0c'
  | 'r' => some '\r'
  | 'e' => some '\x1b'
  | ' ' => some ' '
  | '"' => some '"'
  | '/' => some '/'
  | '\\' => some '\\'
  | 'N' => some '\u0085'
  | '_' => some '\u00a0'
  | 'L' => some '\u2028'
  | 'P' => some '\u2029'
  | _ => none

def escapeDigits? : Char → Option Nat
  | 'x' => some 2
  | 'u' => some 4
  | 'U' => some 8
  | _ => none

def hexNumber? (digits : List Char) : Option Nat :=
  digits.foldlM (fun value c => (Json.hexValue c).map fun d => 16 * value + d) 0

def codePoint? (n : Nat) : Option Char := if n.isValidChar then some (Char.ofNat n) else none

structure QuotedWord where
  text : List Char
  broken : Bool
  rest : List Spot

def QuotedWord.cons (c : Char) (w : QuotedWord) : QuotedWord := { w with text := c :: w.text }

def singleWord : List Spot → QuotedWord
  | [] => ⟨[], false, []⟩
  | [s] => if endsWord s.char || s.char == '\'' then ⟨[], false, [s]⟩ else ⟨[s.char], false, []⟩
  | s :: t :: rest =>
    if s.char == '\'' && t.char == '\'' then (singleWord rest).cons '\''
    else if endsWord s.char || s.char == '\'' then ⟨[], false, s :: t :: rest⟩
    else (singleWord (t :: rest)).cons s.char

def doubleWord : Nat → List Spot → Option QuotedWord
  | 0, _ => none
  | _ + 1, [] => some ⟨[], false, []⟩
  | more + 1, s :: rest =>
    if endsWord s.char || s.char == '"' then some ⟨[], false, s :: rest⟩
    else if s.char == '\\' then
      let letter := peek rest 0
      let rest := rest.drop 1
      if isBreak letter then some ⟨[], true, rest⟩
      else
        match escapeDigits? letter with
        | some n => do
          let digits := (rest.take n).map Spot.char
          let c ← if digits.length = n then (hexNumber? digits).bind codePoint? else none
          (doubleWord more (rest.drop n)).map (QuotedWord.cons c)
        | none => do
          let c ← escaped? letter
          (doubleWord more rest).map (QuotedWord.cons c)
    else (doubleWord more rest).map (QuotedWord.cons s.char)

def quotedWords (single : Bool) : Nat → List Char → List Spot → Option (List Char × List Spot)
  | 0, _, _ => none
  | more + 1, text, spots =>
    if startsDocumentMark spots || spots.isEmpty then none
    else do
      let word ← if single then some (singleWord spots) else doubleWord (spots.length + 1) spots
      let text := text ++ word.text
      if peek word.rest 0 == (if single then '\'' else '"') then some (text, word.rest.drop 1)
      else
        let gap := Gap.extend (if word.broken then .breaks none [] else .blanks []) word.rest
        quotedWords single more (text ++ gap.folded) (dropSpots inGap word.rest)

def quotedScalar (single : Bool) (spots : List Spot) : Option (List Char × List Spot) :=
  quotedWords single (spots.length + 1) [] spots

/-! ### Block scalars -/

inductive Chomping where
  | strip
  | clip
  | keep
  deriving DecidableEq, Repr, Inhabited

def Chomping.ofChar? : Char → Option Chomping
  | '+' => some .keep
  | '-' => some .strip
  | _ => none

def indentDigit? (c : Char) : Option Nat :=
  if c.isDigit then some (c.toNat - '0'.toNat) else none

structure BlockHeader where
  chomping : Chomping
  /-- The columns by which the block is indented, or zero to take them from its first line. -/
  increment : Nat
  rest : List Spot

def blockHeader (spots : List Spot) : Option BlockHeader := do
  let (chomping, increment, rest) : Option Chomping × Option Nat × List Spot :=
    match Chomping.ofChar? (peek spots 0), indentDigit? (peek spots 0) with
    | some c, _ =>
      match indentDigit? (peek spots 1) with
      | some n => (some c, some n, spots.drop 2)
      | none => (some c, none, spots.drop 1)
    | none, some n =>
      match Chomping.ofChar? (peek spots 1) with
      | some c => (some c, some n, spots.drop 2)
      | none => (none, some n, spots.drop 1)
    | none, none => (none, none, spots)
  let rest := dropSpots isSpaceOrTab rest
  let rest := if peek rest 0 == '#' then dropSpots (fun c => !isBreak c) rest else rest
  if increment = some 0 || !endsLine (peek rest 0) then none
  else some ⟨chomping.getD .clip, increment.getD 0, rest.drop 1⟩

structure BlockGap where
  deepest : Nat
  breaks : List Char
  rest : List Spot

/-- Skips indentation and empty lines. With the indentation not known yet (zero) all blanks are
skipped, and the deepest column is kept. The first argument bounds the number of lines. -/
def blockGap (indent : Nat) : Nat → Nat → List Char → List Spot → Option BlockGap
  | 0, _, _, _ => none
  | more + 1, deepest, breaks, spots =>
    let within (s : Spot) : Bool := indent == 0 || s.column < indent
    let rest := spots.dropWhile fun s => s.char == ' ' && within s
    match rest with
    | [] => some ⟨deepest, breaks, []⟩
    | s :: tail =>
      let deepest := max deepest s.column
      if s.char == '\t' && within s then none
      else if isBreak s.char then blockGap indent more deepest (breaks ++ [s.char]) tail
      else some ⟨deepest, breaks, rest⟩

structure Block where
  text : List Char
  last : List Char
  empties : List Char
  rest : List Spot

/-- The lines of a block that stand at the given column. A folded block reads the line break
between two lines that do not begin with a blank as a blank, or as nothing before empty lines. The
first argument bounds the number of lines. -/
def blockLines (literal : Bool) (indent : Nat) : Nat → Bool → Block → Option Block
  | 0, _, _ => none
  | more + 1, afterBlank, b =>
    match b.rest with
    | [] => some b
    | s :: _ =>
      if s.column ≠ indent then some b
      else do
        let blank := isSpaceOrTab s.char
        let joint :=
          if !literal && b.last == ['\n'] && !afterBlank && !blank then
            if b.empties.isEmpty then [' '] else []
          else b.last
        let line := takeChars (fun c => !isBreak c) b.rest
        let rest := dropSpots (fun c => !isBreak c) b.rest
        let gap ← blockGap indent (rest.length + 1) 0 [] (rest.drop 1)
        blockLines literal indent more blank
          ⟨b.text ++ joint ++ b.empties ++ line, (rest.take 1).map Spot.char, gap.breaks, gap.rest⟩

def blockScalar (literal : Bool) (enclosing : Int) (spots : List Spot) :
    Option (List Char × List Spot) := do
  let header ← blockHeader spots
  let least := max 1 (enclosing + 1).toNat
  let known :=
    if header.increment = 0 then 0
    else if 0 ≤ enclosing then enclosing.toNat + header.increment else header.increment
  let gap ← blockGap known (header.rest.length + 1) 0 [] header.rest
  let indent := if known = 0 then max gap.deepest least else known
  let b ← blockLines literal indent (gap.rest.length + 1) false ⟨[], [], gap.breaks, gap.rest⟩
  let tail :=
    match header.chomping with
    | .strip => []
    | .clip => b.last
    | .keep => b.last ++ b.empties
  some (b.text ++ tail, b.rest)

end FormFlow.Yaml
