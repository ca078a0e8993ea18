import FormFlow.Json.Basic
/-!
# Documents

A document is a tree of lists, records and scalars as a reader of declarations
sees it: what a scalar means is left to the place where it stands, so a scalar
offers its readings as a text, as a flag, as a whole number, as an absent value
and as an empty container. Data values and catalog files are both viewed as documents.
-/
namespace FormFlow

structure Scalar where
  text : Option String := none
  flag : Option Bool := none
  whole : Option Int := none
  absent : Bool := false
  blank : Bool := false
  deriving DecidableEq, Repr, Inhabited

inductive Document where
  | scalar (s : Scalar)
  | list (items : List Document)
  | record (entries : List (String × Document))
  /-- A document with a mark of its own, which no choice of variants allows. -/
  | marked (inner : Document)
  | unreadable
  deriving Inhabited

namespace Document

def text? : Document → Option String
  | .scalar s => s.text
  | .marked inner => inner.text?
  | _ => none

def flag? : Document → Option Bool
  | .scalar s => s.flag
  | .marked inner => inner.flag?
  | _ => none

def whole? : Document → Option Int
  | .scalar s => s.whole
  | .marked inner => inner.whole?
  | _ => none

/-- A text that may be absent: the inner option tells which. -/
def optionalText? : Document → Option (Option String)
  | .scalar s => if s.absent then some none else s.text.map some
  | .marked inner => inner.text?.map some
  | _ => none

def items? : Document → Option (List Document)
  | .list items => some items
  | .scalar s => if s.blank then some [] else none
  | .marked inner => inner.items?
  | _ => none

def entries? : Document → Option (List (String × Document))
  | .record entries => some entries
  | .scalar s => if s.blank then some [] else none
  | .marked inner => inner.entries?
  | _ => none

def isAbsent : Document → Bool
  | .scalar s => s.absent
  | _ => false

def variant? : Document → Option (String × Option Document)
  | .scalar s => s.text.map fun name => (name, none)
  | .record [(name, payload)] => some (name, some payload)
  | _ => none

/-- The reading of an entry, or the default where there is none. An entry that stands twice cannot
be read. -/
def entryOr {α : Type} (entries : List (String × Document)) (key : String)
    (read : Document → Option α) (default : Option α) : Option α :=
  match entries.filter fun entry => entry.1 = key with
  | [] => default
  | [(_, d)] => read d
  | _ => none

mutual
def within (room : Nat) : Document → Document
  | .scalar s => .scalar s
  | .list items => if room = 0 then .unreadable else .list (allWithin (room - 1) items)
  | .record entries => if room = 0 then .unreadable else .record (entriesWithin (room - 1) entries)
  | .marked inner => .marked (within room inner)
  | .unreadable => .unreadable

def allWithin (room : Nat) : List Document → List Document
  | [] => []
  | d :: rest => within room d :: allWithin room rest

def entriesWithin (room : Nat) : List (String × Document) → List (String × Document)
  | [] => []
  | (key, d) :: rest => (key, within room d) :: entriesWithin room rest
end

end Document

mutual
def Json.document : Json → Document
  | .null => .scalar { absent := true }
  | .bool b => .scalar { flag := some b }
  | .int n => .scalar { whole := some n }
  | .float _ => .scalar {}
  | .str s => .scalar { text := some s }
  | .arr items => .list (Json.documents items)
  | .obj fields => .record (Json.entryDocuments fields)

def Json.documents : List Json → List Document
  | [] => []
  | item :: rest => item.document :: Json.documents rest

def Json.entryDocuments : List (String × Json) → List (String × Document)
  | [] => []
  | (key, value) :: rest => (key, value.document) :: Json.entryDocuments rest
end

end FormFlow
