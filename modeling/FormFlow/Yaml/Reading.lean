import FormFlow.Document
import FormFlow.Yaml.Node
/-!
# Nodes as documents

References are replaced by what they stand for. A plain scalar is a text that
can be read as a flag or as an absent value if it is spelled like one; any other
scalar is a text only. A record is read by the texts of its keys.
-/
namespace FormFlow.Yaml

def isNullWord (text : String) : Bool :=
  text = "~" || text = "null" || text = "Null" || text = "NULL"

def flagWord? (text : String) : Option Bool :=
  if text = "true" ∨ text = "True" ∨ text = "TRUE" then some true
  else if text = "false" ∨ text = "False" ∨ text = "FALSE" then some false
  else none

def scalarReadings (style : Style) (text : String) : Scalar :=
  if style = .plain then
    { text := some text, flag := flagWord? text, absent := text = "" || isNullWord text
      blank := text = "" }
  else { text := some text }

def isSpellingTag (tag : String) : Bool :=
  tag = "tag:yaml.org,2002:bool" || tag = "tag:yaml.org,2002:int"
    || tag = "tag:yaml.org,2002:float"

def isNullTag (tag : String) : Bool := tag = "tag:yaml.org,2002:null"

def isLocalTag (tag : String) : Bool := tag.startsWith "!" && tag ≠ "!"

/-- A document under a tag. A tagged scalar is absent only if its tag says so. -/
def tagDocument (tag : String) (d : Document) : Document :=
  match d with
  | .scalar s =>
    if isLocalTag tag || isSpellingTag tag then .marked d
    else if isNullTag tag then .scalar s
    else .scalar { s with absent := false }
  | d => if isLocalTag tag then .marked d else d

/-- The documents of the anchors met so far, the latest first; one that is still being read has
none. -/
abbrev Anchors := List (String × Option Document)

def Anchors.settle (before after : Anchors) (name : String) (d : Document) : Anchors :=
  after.take (after.length - before.length - 1) ++ (name, some d) :: before

namespace Node

def recordOf (entries : List (Document × Document)) : Document :=
  match entries.mapM fun entry => entry.1.text?.map fun key => (key, entry.2) with
  | some entries => .record entries
  | none => .unreadable

mutual
/-- The document of a node and the anchors after it; a reference has to be known. -/
def resolve (anchors : Anchors) : Node → Option (Document × Anchors)
  | .scalar style text => some (.scalar (scalarReadings style text), anchors)
  | .list items => (resolveAll anchors items).map fun (items, anchors) => (.list items, anchors)
  | .record entries =>
    (resolveEntries anchors entries).map fun (entries, anchors) => (recordOf entries, anchors)
  | .tagged tag inner =>
    (resolve anchors inner).map fun (d, anchors) => (tagDocument tag d, anchors)
  | .anchored name inner =>
    (resolve ((name, none) :: anchors) inner).map fun (d, after) =>
      (d, anchors.settle after name d)
  | .reference name =>
    match anchors.find? fun entry => entry.1 = name with
    | some (_, d) => some (d.getD .unreadable, anchors)
    | none => none

def resolveAll (anchors : Anchors) : List Node → Option (List Document × Anchors)
  | [] => some ([], anchors)
  | item :: rest => do
    let (d, anchors) ← resolve anchors item
    let (ds, anchors) ← resolveAll anchors rest
    some (d :: ds, anchors)

def resolveEntries (anchors : Anchors) :
    List (Node × Node) → Option (List (Document × Document) × Anchors)
  | [] => some ([], anchors)
  | (key, value) :: rest => do
    let (k, anchors) ← resolve anchors key
    let (v, anchors) ← resolve anchors value
    let (entries, anchors) ← resolveEntries anchors rest
    some ((k, v) :: entries, anchors)
end

end Node

def depthLimit : Nat := 128

def document? (text : String) : Option Document := do
  let node ← Node.ofText? text
  let (d, _) ← node.resolve []
  some (d.within depthLimit)

end FormFlow.Yaml
