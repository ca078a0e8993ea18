import FormFlow.Catalog.Basic
/-!
# Nesting order

The forms that each type of a catalog nests, and an order of all types in which
every type comes after the types it nests. The order is found by a depth-first
search from nested types to the types that nest them, the latest edge first; a
search back along the edges then tells whether a cycle is left.
-/
namespace FormFlow

structure NestingEdge where
  parent : String
  child : String
  deriving DecidableEq, Repr, Inhabited

def Declaration.nestedForms (d : Declaration) : List String :=
  d.members.filterMap MemberDeclaration.nestedForm?

def Catalog.nestingEdges (c : Catalog) : List NestingEdge :=
  c.all.flatMap fun d => d.nestedForms.map fun child => ⟨d.name, child⟩

namespace Nesting

def parents (edges : List NestingEdge) (child : String) : List String :=
  ((edges.filter fun e => e.child = child).map NestingEdge.parent).reverse

def children (edges : List NestingEdge) (parent : String) : List String :=
  ((edges.filter fun e => e.parent = parent).map NestingEdge.child).reverse

/-- The state of the search: the types not met yet, the stack with its top first, and the finished
types, the latest first. -/
structure Search where
  unmet : List String
  stack : List String
  finished : List String

/-- Empties the stack. A type that is met for the first time stays while the types that nest it are
put on top; the next time it is finished. The error is a type that nests itself. -/
def Search.run (edges : List NestingEdge) (unmet stack finished : List String) :
    Except String Search :=
  match stack with
  | [] => .ok ⟨unmet, [], finished⟩
  | top :: rest =>
    if _met : top ∈ unmet then
      let next := parents edges top
      if top ∈ next then .error top
      else
        let unmet' := unmet.erase top
        run edges unmet' ((next.filter fun t => t ∈ unmet').reverse ++ top :: rest) finished
    else run edges unmet rest (if top ∈ finished then finished else top :: finished)
termination_by (unmet.length, stack.length)
decreasing_by
  · have := List.length_erase_of_mem _met
    have := List.length_pos_of_mem _met
    simp_wf
    left
    omega
  · simp_wf
    right
    omega

def Search.runAll (edges : List NestingEdge) : List String → Search → Except String Search
  | [], s => .ok s
  | t :: rest, s =>
    if t ∈ s.unmet then
      (Search.run edges s.unmet [t] s.finished).bind fun s => runAll edges rest s
    else runAll edges rest s

/-- Walks back from the stack over types not walked before, and gives the types in the order of
the walk. -/
def walkBack (edges : List NestingEdge) (unwalked stack : List String) : List String :=
  match stack with
  | [] => []
  | top :: rest =>
    if _fresh : top ∈ unwalked then
      let unwalked' := unwalked.erase top
      top :: walkBack edges unwalked'
        (((children edges top).filter fun t => t ∈ unwalked').reverse ++ rest)
    else walkBack edges unwalked rest
termination_by (unwalked.length, stack.length)
decreasing_by
  · have := List.length_erase_of_mem _fresh
    have := List.length_pos_of_mem _fresh
    simp_wf
    left
    omega
  · simp_wf
    right
    omega

/-- A type on a cycle: the second type of the first walk back that reaches two. In an order without
cycles everything behind a type has been walked before it. -/
def cycleIn? (edges : List NestingEdge) : List String → List String → Option String
  | _, [] => none
  | unwalked, t :: rest =>
    match walkBack edges unwalked [t] with
    | _ :: second :: _ => some second
    | walked => cycleIn? edges (unwalked.filter fun u => u ∉ walked) rest

def order (nodes : List String) (edges : List NestingEdge) : Except String (List String) := do
  let s ← Search.runAll edges nodes ⟨nodes, [], []⟩
  match cycleIn? edges nodes s.finished with
  | some t => .error t
  | none => .ok s.finished

end Nesting

/-- The types of a catalog, each after the types it nests. -/
def Catalog.nestingOrder (c : Catalog) : Except ModelError (List String) :=
  match c.nestingEdges.find? fun e => !c.contains e.child with
  | some e => .error (.unknownType e.child)
  | none => (Nesting.order c.typeNames c.nestingEdges).mapError .nestingCycle

end FormFlow
