import FormFlow.Proofs.Run.Frame
import FormFlow.Proofs.Run.Moments
/-!
# Selections

A selection goes from the source by way of the converter to the surface and
back: the source is called once, each candidate is rendered once and in order,
the labels of the one request are in the places of their candidates, and the
answer stands for the candidate in its place. Whatever goes wrong on the way
ends the run and leaves the form as it was.
-/
namespace FormFlow

section Observations

/-- The source that is called, and the type of the form that it is called on. -/
def Event.sourceCall? : Event → Option (String × String)
  | .sourceCalled name typeName => some (name, typeName)
  | _ => none

def Event.conversion? : Event → Option (String × Json)
  | .converterCalled name value => some (name, value)
  | _ => none

/-- The calls of a source that is fetched once; a property is read and not called. -/
def Source.callsOn (held : Instance) : Source → List (String × String)
  | .property _ => []
  | .method name _ => [(name, held.typeName)]

/-- The calls of a converter that renders each candidate once, in order. -/
def conversions : Option Converter → List Json → List (String × Json)
  | none, _ => []
  | some converter, candidates => candidates.map fun candidate => (converter.name, candidate)

/-- The label of a candidate: what the converter renders, or its natural text. -/
inductive LabelOf (candidate : Json) : Option Converter → String → Prop
  | natural : LabelOf candidate none candidate.display
  | rendered (converter : Converter) : LabelOf candidate (some converter) (converter.render candidate)

end Observations

section Specification

namespace Trail

/-- Each candidate is rendered once and in order, and then one request is made, which has the label of
each candidate in its place. -/
structure Offers (t : Trail) (converter : Option Converter) (candidates : List Json) : Prop where
  converted : t.events.filterMap Event.conversion? = conversions converter candidates
  asked : ∃ request, t.events.filter Event.isRequest = [.selectionAsked request] ∧
    t.events.getLast? = some (.selectionAsked request) ∧
      request.labels.length = candidates.length ∧
        ∀ i (h : i < candidates.length), ∃ label, request.labels[i]? = some label ∧
          LabelOf candidates[i] converter label

end Trail

namespace FormRun

/-- The form comes to the operation: those before it are done. -/
structure Reaches (r : FormRun) (before : List Operation) (op : Operation) (after : List Operation) :
    Prop where
  place : r.operations = before ++ op :: after
  done : (r.reach before).halt = none

/-- The run is of the root form, or of a form that is nested in it in the members of the given names and
has been entered. -/
inductive Within (root : FormRun) : List String → FormRun → Prop
  | root : Within root [] root
  | nested {names : List String} {r : FormRun} {before after : List Operation} {member : String}
      {plan : Plan} {start : Instance} (outer : Within root names r)
      (reached : r.Reaches before (.recurse member plan) after)
      (starts : plan.nestedInstance (joinPath r.scope.path member)
        ((r.reach before).inst.get? member) = .ok start) :
      Within root (names ++ [member]) (r.nested before member plan start)

end FormRun
end Specification

section Selecting
variable {source : Source} {converter : Option Converter} {inst : Instance} {candidates : List Json}

@[simp] theorem Source.filterMap_sourceCall?_fetchEvents :
    (source.fetchEvents inst).filterMap Event.sourceCall? = source.callsOn inst := by
  cases source <;> rfl

@[simp] theorem filterMap_sourceCall?_renderEvents :
    (renderEvents converter candidates).filterMap Event.sourceCall? = [] := by
  cases converter <;> simp [renderEvents, Event.sourceCall?]

@[simp] theorem filterMap_conversion?_renderEvents :
    (renderEvents converter candidates).filterMap Event.conversion? = conversions converter candidates := by
  cases converter <;> simp [renderEvents, conversions, Event.conversion?, Function.comp_def]

@[simp] theorem filter_isRequest_renderEvents :
    (renderEvents converter candidates).filter Event.isRequest = [] := by
  cases converter <;> simp [renderEvents, Event.isRequest]

variable {scope : Scope} {surface : Surface} {member title : String} {search : SearchOptions}
  {culture : Option String}

namespace Scope

end Scope
end Selecting

section Reaching
namespace FormRun

def trail (r : FormRun) : Trail := r.reach r.operations

section Step
variable {r : FormRun} {before after : List Operation} {op : Operation}
  (h : r.Reaches before op after)
include h

theorem Reaches.trail_eq :
    r.trail =
      let later := Operation.runAll (op :: after) r.scope (r.reach before).inst (r.reach before).surface
      { later with
        events := (r.reach before).events ++ later.events
        completed := (r.reach before).completed + later.completed } := by
  obtain ⟨hPlace, hDone⟩ := h
  unfold trail reach
  rw [hPlace]
  exact Operation.runAll_append_finished hDone (op :: after)

variable (hCalm : r.trail.surface.cancelled = false)
include hCalm

theorem Reaches.calm : (r.reach before).surface.cancelled = false := by
  rw [h.trail_eq] at hCalm
  cases hToken : (r.reach before).surface.cancelled with
  | false => rfl
  | true =>
    rw [Operation.runAll_surface _ _ _ hToken, hToken] at hCalm
    cases hCalm

theorem Reaches.events : ∃ last, r.trail.events =
    (r.reach before).events ++ op.startEvent r.scope :: (r.step before op).events ++ last := by
  have hBefore := h.calm hCalm
  rw [h.trail_eq]
  cases hHalt : (r.step before op).halt with
  | some halt =>
    refine ⟨[], ?_⟩
    rw [Operation.runAll_halted hBefore hHalt, List.append_nil]
    rfl
  | none =>
    rw [Operation.runAll_continued hBefore hHalt]
    exact ⟨_, (List.append_assoc _ _ _).symm⟩

theorem Reaches.halted {halt : Halt} (hHalt : (r.step before op).halt = some halt) :
    r.trail.halt = some halt ∧ r.trail.inst = (r.step before op).inst := by
  rw [h.trail_eq, Operation.runAll_halted (h.calm hCalm) hHalt]
  exact ⟨hHalt, rfl⟩

end Step

end FormRun

end Reaching

namespace Sample

def describe : Converter := ⟨"describe", fun _ => "a car"⟩

def pick (index : Nat) : Answer := .finished false () ⟨.error .cancelled, .ok index⟩

end Sample
end FormFlow
