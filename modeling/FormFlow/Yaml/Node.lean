import FormFlow.Yaml.Token
/-!
# Nodes

A text as one tree of scalars, lists and records whose nodes may carry tags and
anchors and may stand for an anchored node by reference. A place where a node is
expected but left out reads as an empty scalar.
-/
namespace FormFlow.Yaml

inductive Node where
  | scalar (style : Style) (text : String)
  | list (items : List Node)
  | record (entries : List (Node × Node))
  | tagged (tag : String) (inner : Node)
  | anchored (name : String) (inner : Node)
  | reference (name : String)
  deriving Inhabited

abbrev Handles := List (String × String)

def Handles.standard : Handles := [("!", "!"), ("!!", "tag:yaml.org,2002:")]

namespace Node

def empty : Node := .scalar .plain ""

structure Properties where
  anchor : Option String := none
  tag : Option String := none

namespace Properties

def isEmpty (p : Properties) : Bool := p.anchor.isNone && p.tag.isNone

def apply (p : Properties) (node : Node) : Node :=
  let tagged :=
    match p.tag with
    | some tag => .tagged tag node
    | none => node
  match p.anchor with
  | some name => .anchored name tagged
  | none => tagged

def fullTag? (handles : Handles) (handle suffix : String) : Option String :=
  if handle = "" then some suffix
  else (handles.find? fun entry => entry.1 = handle).map fun entry => entry.2 ++ suffix

def read? (handles : Handles) : List Token → Option (Properties × List Token)
  | .anchor name :: .tag handle suffix :: rest =>
    (fullTag? handles handle suffix).map fun tag => (⟨some name, some tag⟩, rest)
  | .tag handle suffix :: .anchor name :: rest =>
    (fullTag? handles handle suffix).map fun tag => (⟨some name, some tag⟩, rest)
  | .anchor name :: rest => some (⟨some name, none⟩, rest)
  | .tag handle suffix :: rest =>
    (fullTag? handles handle suffix).map fun tag => (⟨none, some tag⟩, rest)
  | rest => some ({}, rest)

end Properties

def orEmpty (follows : Token → Bool) (read : List Token → Option (Node × List Token))
    (tokens : List Token) : Option (Node × List Token) :=
  match tokens with
  | token :: _ => if follows token then some (.empty, tokens) else read tokens
  | [] => read []

def endsItem (token : Token) : Bool := token = .blockItem || token = .blockEnd

def endsEntry (token : Token) : Bool := token = .key || token = .value || token = .blockEnd

def endsBareItem (token : Token) : Bool := token = .blockItem || endsEntry token

def endsFlowItem (token : Token) : Bool := token = .flowItem || token = .flowListEnd

def endsFlowEntry (token : Token) : Bool := token = .flowItem || token = .flowRecordEnd

def valueOr (follows : Token → Bool) (read : List Token → Option (Node × List Token))
    (tokens : List Token) : Option (Node × List Token) :=
  match tokens with
  | .value :: rest => orEmpty follows read rest
  | rest => some (.empty, rest)

mutual
/-- A node and the tokens behind it; `block` allows block collections and `bare` a list whose items
are not indented. The first argument bounds the number of tokens. -/
def read? (handles : Handles) : Nat → Bool → Bool → List Token → Option (Node × List Token)
  | 0, _, _, _ => none
  | _ + 1, _, _, .reference name :: rest => some (.reference name, rest)
  | more + 1, block, bare, tokens => do
    let (properties, tokens) ← Properties.read? handles tokens
    let (node, rest) ←
      match tokens, block, bare with
      | .blockItem :: _, _, true => bareItems handles more [] tokens
      | .scalar style text :: rest, _, _ => some (.scalar style text, rest)
      | .flowListStart :: rest, _, _ => flowItems handles more true [] rest
      | .flowRecordStart :: rest, _, _ => flowEntries handles more true [] rest
      | .blockListStart :: rest, true, _ => blockItems handles more [] rest
      | .blockRecordStart :: rest, true, _ => blockEntries handles more [] rest
      | rest, _, _ => if properties.isEmpty then none else some (.empty, rest)
    some (properties.apply node, rest)

def blockItems (handles : Handles) : Nat → List Node → List Token → Option (Node × List Token)
  | 0, _, _ => none
  | more + 1, items, .blockItem :: rest => do
    let (item, rest) ← orEmpty endsItem (read? handles more true false) rest
    blockItems handles more (item :: items) rest
  | _ + 1, items, .blockEnd :: rest => some (.list items.reverse, rest)
  | _ + 1, _, _ => none

def bareItems (handles : Handles) : Nat → List Node → List Token → Option (Node × List Token)
  | 0, _, _ => none
  | more + 1, items, .blockItem :: rest => do
    let (item, rest) ← orEmpty endsBareItem (read? handles more true false) rest
    bareItems handles more (item :: items) rest
  | _ + 1, items, rest => some (.list items.reverse, rest)

def blockEntries (handles : Handles) :
    Nat → List (Node × Node) → List Token → Option (Node × List Token)
  | 0, _, _ => none
  | _ + 1, entries, .blockEnd :: rest => some (.record entries.reverse, rest)
  | more + 1, entries, .key :: rest => do
    let (key, rest) ← orEmpty endsEntry (read? handles more true true) rest
    let (value, rest) ← valueOr endsEntry (read? handles more true true) rest
    blockEntries handles more ((key, value) :: entries) rest
  | _ + 1, _, _ => none

/-- The items of a flow list; an item with a key is a record of one entry. -/
def flowItems (handles : Handles) :
    Nat → Bool → List Node → List Token → Option (Node × List Token)
  | 0, _, _, _ => none
  | _ + 1, _, items, .flowListEnd :: rest => some (.list items.reverse, rest)
  | more + 1, first, items, tokens => do
    let tokens ←
      match first, tokens with
      | true, tokens => some tokens
      | false, .flowItem :: rest => some rest
      | false, _ => none
    match tokens with
    | .flowListEnd :: rest => some (.list items.reverse, rest)
    | .key :: rest => do
      let (key, rest) ←
        match rest with
        | .value :: rest => some (.empty, rest)
        | .flowItem :: rest => some (.empty, rest)
        | .flowListEnd :: rest => some (.empty, rest)
        | rest => read? handles more false false rest
      let (value, rest) ← valueOr endsFlowItem (read? handles more false false) rest
      flowItems handles more false (.record [(key, value)] :: items) rest
    | tokens => do
      let (item, rest) ← read? handles more false false tokens
      flowItems handles more false (item :: items) rest

def flowEntries (handles : Handles) :
    Nat → Bool → List (Node × Node) → List Token → Option (Node × List Token)
  | 0, _, _, _ => none
  | _ + 1, _, entries, .flowRecordEnd :: rest => some (.record entries.reverse, rest)
  | more + 1, first, entries, tokens => do
    let tokens ←
      match first, tokens with
      | true, tokens => some tokens
      | false, .flowItem :: rest => some rest
      | false, _ => none
    match tokens with
    | .flowRecordEnd :: rest => some (.record entries.reverse, rest)
    | .key :: rest => do
      let (key, rest) ←
        match rest with
        | .value :: _ => some (.empty, rest)
        | rest => orEmpty endsFlowEntry (read? handles more false false) rest
      let (value, rest) ← valueOr endsFlowEntry (read? handles more false false) rest
      flowEntries handles more false ((key, value) :: entries) rest
    | tokens => do
      let (key, rest) ← read? handles more false false tokens
      flowEntries handles more false ((key, .empty) :: entries) rest
end

/-- The directives in front of a document: at most one version, which has to be 1.1 or 1.2, and
handles that differ. -/
def directives? : Bool → Handles → List Token → Option (Handles × List Token)
  | versioned, handles, .version major minor :: rest =>
    if versioned || major ≠ 1 || (minor ≠ 1 && minor ≠ 2) then none
    else directives? true handles rest
  | versioned, handles, .tagHandle handle expansion :: rest =>
    if handles.any fun entry => entry.1 = handle then none
    else directives? versioned ((handle, expansion) :: handles) rest
  | _, handles, rest => some (handles ++ .standard, rest)

def isDirective : Token → Bool
  | .version _ _ => true
  | .tagHandle _ _ => true
  | _ => false

def startsDocument (token : Token) : Bool :=
  isDirective token || token = .documentStart || token = .documentEnd

def ofTokens? (tokens : List Token) : Option Node := do
  let size := tokens.length + 1
  let (node, rest) ←
    match tokens with
    | [] => some (.empty, [])
    | first :: _ =>
      if isDirective first || first = .documentStart then do
        match ← directives? false [] tokens with
        | (_, .documentStart :: []) => some (.empty, [])
        | (handles, .documentStart :: rest) =>
          orEmpty startsDocument (read? handles size true false) rest
        | _ => none
      else read? .standard size true false tokens
  if rest.all fun token => token = .documentEnd then some node else none

def ofText? (text : String) : Option Node := (tokens? text).bind ofTokens?

end Node
end FormFlow.Yaml
