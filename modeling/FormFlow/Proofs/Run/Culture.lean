import FormFlow.Proofs.Run.Listing
import Mathlib.Data.List.Chain
/-!
# The culture of a request

A request carries the culture of the operation that issues it or else that of the
nearest form around the operation that has one, and in the end the default of the
run. The scope of a form holds what the forms from there outwards have settled:
entering a nested form puts its culture in front, as the root form does with the
default.
-/
namespace FormFlow

section Places

/-- An operation at its place in a plan, with the forms that it lies in, from its own one outwards
to the root. -/
structure Enclosed extends Listed where
  forms : List Plan

mutual
def Operation.enclosed (forms : List Plan) (base : String) (depth : Nat) :
    Operation → List Enclosed
  | .askText member title type secret search culture =>
    [⟨⟨joinPath base member, depth, .askText member title type secret search culture⟩, forms⟩]
  | .askSelect member title source converter search culture =>
    [⟨⟨joinPath base member, depth, .askSelect member title source converter search culture⟩,
      forms⟩]
  | .runStep member isAsync status body =>
    [⟨⟨joinPath base member, depth, .runStep member isAsync status body⟩, forms⟩]
  | .recurse member ⟨typeName, culture, strategy, dependencies, operations⟩ =>
    ⟨⟨joinPath base member, depth,
        .recurse member ⟨typeName, culture, strategy, dependencies, operations⟩⟩, forms⟩
      :: Operation.enclosedAll (⟨typeName, culture, strategy, dependencies, operations⟩ :: forms)
        (joinPath base member) (depth + 1) operations

def Operation.enclosedAll (forms : List Plan) (base : String) (depth : Nat) :
    List Operation → List Enclosed
  | [] => []
  | op :: rest =>
    Operation.enclosed forms base depth op ++ Operation.enclosedAll forms base depth rest
end

def PlanOf.enclosed (plan : Plan) : List Enclosed :=
  Operation.enclosedAll [plan] "" 0 plan.operations

def PlanOf.NestedIn (inner outer : Plan) : Prop :=
  ∃ member, .recurse member inner ∈ outer.operations

/-- The operation is one of the first form, each form is nested in the next one, and the last one is
the root. -/
structure Enclosed.Within (root : Plan) (place : Enclosed) : Prop where
  own : ∃ form ∈ place.forms.head?, place.operation ∈ form.operations
  nested : place.forms.IsChain PlanOf.NestedIn
  outermost : place.forms.getLast? = some root

namespace Operation

theorem enclosed_of_work {op : Operation} (h : op.isWork = true) (forms : List Plan) (base : String)
    (depth : Nat) :
    op.enclosed forms base depth = [⟨⟨joinPath base op.member, depth, op⟩, forms⟩] := by
  cases op with
  | recurse member plan => cases h
  | _ => simp only [enclosed, member]

theorem enclosed_recurse (member : String) (plan : Plan) (forms : List Plan) (base : String)
    (depth : Nat) :
    (recurse member plan).enclosed forms base depth =
      ⟨⟨joinPath base member, depth, recurse member plan⟩, forms⟩ ::
        enclosedAll (plan :: forms) (joinPath base member) (depth + 1) plan.operations := by
  cases plan
  simp only [enclosed]

theorem listing_eq_enclosed :
    (∀ (op : Operation) (forms : List Plan) (base : String) (depth : Nat),
      op.listing base depth = (op.enclosed forms base depth).map Enclosed.toListed) ∧
    ∀ (ops : List Operation) (forms : List Plan) (base : String) (depth : Nat),
      listingAll base depth ops = (enclosedAll forms base depth ops).map Enclosed.toListed := by
  apply nesting_induction
  case work =>
    intro op hWork forms base depth
    rw [listing_of_work hWork, enclosed_of_work hWork]
    rfl
  case nested =>
    intro member plan ih forms base depth
    rw [listing_recurse, enclosed_recurse, ih (plan :: forms)]
    rfl
  case nil =>
    intro forms base depth
    simp only [listingAll, enclosedAll, List.map_nil]
  case cons =>
    intro op rest ih ihRest forms base depth
    simp only [listingAll, enclosedAll, List.map_append, ← ih, ← ihRest]

theorem enclosed_within (root : Plan) :
    (∀ (op : Operation) (form : Plan) (outer : List Plan) (base : String) (depth : Nat),
      (form :: outer).IsChain PlanOf.NestedIn → (form :: outer).getLast? = some root →
        op ∈ form.operations →
          ∀ place ∈ op.enclosed (form :: outer) base depth, place.Within root) ∧
    ∀ (ops : List Operation) (form : Plan) (outer : List Plan) (base : String) (depth : Nat),
      (form :: outer).IsChain PlanOf.NestedIn → (form :: outer).getLast? = some root →
        (∀ op ∈ ops, op ∈ form.operations) →
          ∀ place ∈ enclosedAll (form :: outer) base depth ops, place.Within root := by
  apply nesting_induction
  case work =>
    intro op hWork form outer base depth hChain hRoot hOp place hPlace
    rw [enclosed_of_work hWork, List.mem_singleton] at hPlace
    subst hPlace
    exact ⟨⟨form, rfl, hOp⟩, hChain, hRoot⟩
  case nested =>
    intro member plan ih form outer base depth hChain hRoot hOp place hPlace
    rw [enclosed_recurse] at hPlace
    rcases List.mem_cons.mp hPlace with rfl | hInner
    · exact ⟨⟨form, rfl, hOp⟩, hChain, hRoot⟩
    · exact ih plan (form :: outer) _ _ (hChain.cons_cons ⟨member, hOp⟩) hRoot (fun _ h => h) place
        hInner
  case nil =>
    intro form outer base depth _ _ _ place hPlace
    simp only [enclosedAll] at hPlace
    cases hPlace
  case cons =>
    intro op rest ih ihRest form outer base depth hChain hRoot hOps place hPlace
    obtain ⟨hOp, hRest⟩ := List.forall_mem_cons.mp hOps
    simp only [enclosedAll] at hPlace
    rcases List.mem_append.mp hPlace with hFirst | hLater
    · exact ih form outer base depth hChain hRoot hOp place hFirst
    · exact ihRest form outer base depth hChain hRoot hRest place hLater

end Operation

theorem PlanOf.listing_eq_enclosed (plan : Plan) :
    plan.listing = plan.enclosed.map Enclosed.toListed :=
  Operation.listing_eq_enclosed.2 plan.operations [plan] "" 0

theorem PlanOf.enclosed_within {plan : Plan} {place : Enclosed} (h : place ∈ plan.enclosed) :
    place.Within plan :=
  (Operation.enclosed_within plan).2 plan.operations plan [] "" 0 (.singleton plan) rfl
    (fun _ h => h) place h

end Places

section Cultures

/-- The culture is the first one of these that is set, and it is unset only if all of them are. -/
structure FirstSet (cultures : List (Option String)) (culture : Option String) : Prop where
  set : ∀ c, culture = some c →
    ∃ before after, cultures = before ++ some c :: after ∧ ∀ o ∈ before, o = none
  unset : culture = none → ∀ o ∈ cultures, o = none

theorem FirstSet.last (culture : Option String) : FirstSet [culture] culture where
  set c h := ⟨[], [], by rw [h]; rfl, by simp⟩
  unset h := by simpa using h

theorem FirstSet.cons {cultures : List (Option String)} {culture : Option String}
    (h : FirstSet cultures culture) (own : Option String) :
    FirstSet (own :: cultures) (own <|> culture) := by
  cases own with
  | some c =>
    refine ⟨fun d hSet => ⟨[], cultures, ?_, by simp⟩, fun hUnset => ?_⟩
    · cases hSet
      rfl
    · cases hUnset
  | none =>
    refine ⟨fun c hSet => ?_, fun hUnset => ?_⟩
    · obtain ⟨before, after, rfl, hBefore⟩ := h.set c hSet
      exact ⟨none :: before, after, rfl, List.forall_mem_cons.mpr ⟨rfl, hBefore⟩⟩
    · exact List.forall_mem_cons.mpr ⟨rfl, h.unset hUnset⟩

def Operation.culture? : Operation → Option String
  | .askText _ _ _ _ _ culture | .askSelect _ _ _ _ _ culture => culture
  | .runStep _ _ _ _ | .recurse _ _ => none

/-- The cultures that a request may carry, in the order in which they are asked for. -/
def Enclosed.cultures (place : Enclosed) (default : Option String) : List (Option String) :=
  place.operation.culture? :: (place.forms.map PlanOf.culture ++ [default])

/-- The event is the request that the operation makes, with that culture. -/
def Operation.Issues (culture : Option String) (e : Event) : Operation → Prop
  | .askText _ title _ secret search _ =>
    e = .textAsked ⟨title, secret, search.enabled, search.placeholder, culture⟩
  | .askSelect _ title _ _ search _ =>
    ∃ labels, e = .selectionAsked ⟨title, labels, search.enabled, search.placeholder, culture⟩
  | .runStep _ _ _ _ | .recurse _ _ => False

def Enclosed.Asks (default : Option String) (place : Enclosed) (e : Event) : Prop :=
  ∃ culture, FirstSet (place.cultures default) culture ∧ place.operation.Issues culture e

end Cultures

theorem Event.isRequest_of_preparesWork {e : Event} (h : e.preparesWork = true) :
    e.isRequest = false := by
  cases e with
  | textAsked request => cases h
  | selectionAsked request => cases h
  | _ => rfl

theorem Event.startedPath?_of_isRequest {e : Event} (h : e.isRequest = true) :
    e.startedPath? = none := by
  cases e with
  | logged entry => cases h
  | _ => rfl

/-- Each request among the events is that of the operation started last, which is one of the places;
so many of these were started before the events. -/
def Asked (default : Option String) (places : List Enclosed) (started : Nat) (events : List Event) :
    Prop :=
  ∀ before e after, events = before ++ e :: after → e.isRequest = true →
    ∃ n place, started + (before.filterMap Event.startedPath?).length = n + 1 ∧
      places[n]? = some place ∧ place.Asks default e

namespace Asked
variable {default : Option String} {places more : List Enclosed} {started : Nat}
  {events later : List Event}

theorem nothing (h : ∀ e ∈ events, e.isRequest = false) : Asked default places started events := by
  rintro before e after rfl hRequest
  have hNot := h e (List.mem_append_right _ List.mem_cons_self)
  cases hNot.symm.trans hRequest

theorem start (h : Asked default places 1 events) {e : Event} {path : String}
    (hStart : e.startedPath? = some path) : Asked default places 0 (e :: events) := by
  rintro (_ | ⟨first, before⟩) f after hSplit hRequest
  · obtain ⟨rfl, -⟩ := List.cons.inj hSplit
    cases (Event.startedPath?_of_isRequest hRequest).symm.trans hStart
  · obtain ⟨rfl, hRest⟩ := List.cons.inj hSplit
    obtain ⟨n, place, hLength, hPlace⟩ := h before f after hRest hRequest
    refine ⟨n, place, ?_, hPlace⟩
    rw [List.filterMap_cons_some hStart, List.length_cons]
    omega

theorem below (h : Asked default places 0 events) (place : Enclosed) :
    Asked default (place :: places) 1 events := by
  intro before e after hSplit hRequest
  obtain ⟨n, inner, hLength, hInner⟩ := h before e after hSplit hRequest
  exact ⟨n + 1, inner, by omega, hInner⟩

theorem append_places (h : Asked default places started events) (more : List Enclosed) :
    Asked default (places ++ more) started events := by
  intro before e after hSplit hRequest
  obtain ⟨n, place, hLength, hPlace, hAsks⟩ := h before e after hSplit hRequest
  refine ⟨n, place, hLength, ?_, hAsks⟩
  rwa [List.getElem?_append_left (List.getElem?_eq_some_iff.mp hPlace).1]

theorem append (h : Asked default places started events) (hLater : Asked default more 0 later)
    (hAll : places.length = started + (events.filterMap Event.startedPath?).length) :
    Asked default (places ++ more) started (events ++ later) := by
  intro before e after hSplit hRequest
  rcases List.append_eq_append_iff.mp hSplit with
    ⟨before', rfl, hRest⟩ | ⟨_ | ⟨first, after'⟩, hHead, hRest⟩
  · obtain ⟨n, place, hLength, hPlace⟩ := hLater before' e after hRest hRequest
    refine ⟨places.length + n, place, ?_, ?_⟩
    · rw [List.filterMap_append, List.length_append]
      omega
    · rwa [List.getElem?_append_right (Nat.le_add_right _ _), Nat.add_sub_cancel_left]
  · -- The later events do not begin with a request, as nothing is started before them.
    obtain ⟨n, place, hLength, -⟩ := hLater [] e after hRest.symm hRequest
    cases hLength
  · obtain ⟨rfl, rfl⟩ := List.cons.inj hRest
    exact h.append_places more before e after' hHead hRequest

theorem around (h : Asked default places started events) {first last : LogEvent}
    (hFirst : (Event.logged first).startedPath? = none) :
    Asked default places started (.logged first :: events ++ [.logged last]) := by
  rintro (_ | ⟨f, before⟩) e after hSplit hRequest
  · obtain ⟨rfl, -⟩ := List.cons.inj hSplit
    cases hRequest
  · obtain ⟨rfl, hRest⟩ := List.cons.inj hSplit
    rw [List.filterMap_cons_none hFirst]
    rcases List.append_eq_append_iff.mp hRest with
      ⟨_ | ⟨g, tail⟩, -, hTail⟩ | ⟨_ | ⟨g, after'⟩, hHead, hTail⟩
    · obtain ⟨rfl, -⟩ := List.cons.inj hTail
      cases hRequest
    · exact absurd (List.cons.inj hTail).2 (by simp)
    · obtain ⟨rfl, -⟩ := List.cons.inj hTail
      cases hRequest
    · obtain ⟨rfl, -⟩ := List.cons.inj hTail
      exact h before e after' hHead hRequest

end Asked

theorem Scope.runStep_asks_nothing (scope : Scope) (inst : Instance) (surface : Surface)
    (member : String) (status : StepOptions) (body : StepBody) :
    ∀ e ∈ (scope.runStep inst surface member status body).events, e.isRequest = false := by
  simp only [runStep]
  repeat' split
  all_goals simp [Trail.done, Trail.fail, Trail.interrupt, Event.isRequest]

namespace Operation

theorem issues_of_work {op : Operation} (hWork : op.isWork = true) {scope : Scope} {inst : Instance}
    {surface : Surface} {e : Event} (he : e ∈ (op.run scope inst surface).events)
    (hRequest : e.isRequest = true) : op.Issues (op.culture? <|> scope.culture) e := by
  have hNot (h : e.preparesWork = true) {P : Prop} : P := by
    rw [Event.isRequest_of_preparesWork h] at hRequest
    cases hRequest
  cases op with
  | askText member title type secret search culture =>
    simp only [run, Scope.askText] at he
    repeat' split at he
    all_goals exact List.mem_singleton.mp he
  | askSelect member title source converter search culture =>
    have hFetched := source.prepares_fetchEvents inst
    simp only [run, Scope.askSelect] at he
    split at he
    · exact hNot (hFetched e he)
    · exact hNot (hFetched e he)
    · rename_i candidates _ _
      have he : e ∈ source.fetchEvents inst ++ renderEvents converter candidates ++
          [Event.selectionAsked ⟨title, candidates.map (renderLabel converter), search.enabled,
            search.placeholder, culture <|> scope.culture⟩] := by
        repeat' split at he
        all_goals exact he
      rcases List.mem_append.mp he with hBefore | hAsked
      · exact hNot ((List.mem_append.mp hBefore).elim (hFetched e)
          (prepares_renderEvents converter candidates e))
      · exact ⟨_, List.mem_singleton.mp hAsked⟩
  | runStep member isAsync status body =>
    have hNone := scope.runStep_asks_nothing inst surface member status body e he
    cases hNone.symm.trans hRequest
  | recurse member plan => cases hWork

theorem run_asks (default : Option String) :
    (∀ (op : Operation) (scope : Scope) (inst : Instance) (surface : Surface) (forms : List Plan)
      (depth : Nat), FirstSet (forms.map PlanOf.culture ++ [default]) scope.culture →
        Asked default (op.enclosed forms scope.path depth) 1 (op.run scope inst surface).events) ∧
    ∀ (ops : List Operation) (scope : Scope) (inst : Instance) (surface : Surface)
      (forms : List Plan) (depth : Nat),
      FirstSet (forms.map PlanOf.culture ++ [default]) scope.culture →
        Asked default (enclosedAll forms scope.path depth ops) 0
          (runAll ops scope inst surface).events := by
  apply run_induction
  case work =>
    intro op scope inst surface hWork forms depth hCulture before e after hSplit hRequest
    have he : e ∈ (op.run scope inst surface).events :=
      hSplit ▸ List.mem_append_right before List.mem_cons_self
    have hIssues := issues_of_work hWork he hRequest
    have hStarted := (work_trail hWork scope inst surface).startedPaths
    rw [Trail.startedPaths, hSplit, List.filterMap_append] at hStarted
    rw [(List.append_eq_nil_iff.mp hStarted).1, enclosed_of_work hWork]
    exact ⟨0, _, rfl, rfl, _, hCulture.cons op.culture?, hIssues⟩
  case refused =>
    intro member plan scope inst surface error hChild forms depth hCulture
    rw [run_recurse_error hChild]
    exact .nothing fun e he => by cases he
  case nested =>
    intro member plan scope inst surface child hChild ih forms depth hCulture
    rw [run_recurse_ok hChild, Trail.nest_events, enclosed_recurse]
    exact (ih (plan :: forms) (depth + 1) (hCulture.cons plan.culture)).below _
  case finished =>
    intro scope inst surface forms depth hCulture
    rw [runAll_nil]
    exact .nothing fun e he => by cases he
  case cancelled =>
    intro op rest scope inst surface hCancelled forms depth hCulture
    rw [runAll_cancelled hCancelled]
    exact .nothing fun e he => by cases he
  case halted =>
    intro op rest scope inst surface halt hCancelled hHalt ih forms depth hCulture
    rw [runAll_halted hCancelled hHalt, enclosedAll]
    exact ((ih forms depth hCulture).start (op.startedPath?_startEvent scope)).append_places _
  case continued =>
    intro op rest scope inst surface hCancelled hHalt ih ihRest forms depth hCulture
    rw [runAll_continued hCancelled hHalt, enclosedAll]
    have hFirst := (ih forms depth hCulture).start (op.startedPath?_startEvent scope)
    have hAll := listing_length_of_finished hHalt depth
    rw [listing_eq_enclosed.1 op forms, List.length_map] at hAll
    refine hFirst.append (ihRest forms depth hCulture) ?_
    rw [List.filterMap_cons_some (op.startedPath?_startEvent scope), List.length_cons, hAll]
    exact (Nat.zero_add _).symm

end Operation

section Runs
variable (plan : Plan) (runId : String) (default : Option String) (inst : Instance)
  (surface : Surface)

theorem PlanOf.run_asks :
    Asked default plan.enclosed 0 (plan.run runId default inst surface).events := by
  have hTrail : Asked default plan.enclosed 0 (plan.trail runId default inst surface).events :=
    (Operation.run_asks default).2 plan.operations _ inst surface [plan] 0
      ((FirstSet.last default).cons plan.culture)
  simp only [run]
  split
  · exact hTrail.around rfl
  · exact hTrail.around rfl

/-- Each request of a run is that of the operation started last. It carries the first culture that
is set among that of the operation, those of the forms that it lies in, from its own outwards to the
root, and the default; and it carries none only if none of these is set. -/
theorem PlanOf.run_carries_nearest_culture {before after : List Event} {e : Event}
    (hRan : (plan.run runId default inst surface).events = before ++ e :: after)
    (hRequest : e.isRequest = true) :
    let started := before.filterMap Event.startedPath?
    ∃ n place culture, started.length = n + 1 ∧ started.getLast? = some place.path ∧
      plan.enclosed[n]? = some place ∧ place.Within plan ∧ place.operation.Issues culture e ∧
        FirstSet (place.cultures default) culture := by
  intro started
  obtain ⟨n, place, hLength, hPlace, culture, hFirst, hIssues⟩ :=
    plan.run_asks runId default inst surface before e after hRan hRequest
  have hLength : started.length = n + 1 := (Nat.zero_add _).symm.trans hLength
  have hLast : started.getLast? = some place.path := by
    obtain ⟨later, hPaths, -⟩ := plan.trail_follows runId default inst surface
    rw [List.nil_append, ← plan.startedPaths_run, hRan, List.filterMap_append,
      List.append_assoc] at hPaths
    calc started.getLast?
      _ = started[n]? := by rw [List.getLast?_eq_getElem?, hLength, Nat.add_sub_cancel]
      _ = (plan.summary.map SummaryRow.path)[n]? := by
        rw [hPaths, List.getElem?_append_left (by omega)]
      _ = some place.path := by
        rw [plan.summary_eq_listing, plan.listing_eq_enclosed, List.map_map, List.map_map,
          List.getElem?_map, hPlace]
        rfl
  have hWithin : place.Within plan := PlanOf.enclosed_within (List.mem_of_getElem? hPlace)
  exact ⟨n, place, culture, hLength, hLast, hPlace, hWithin, hIssues, hFirst⟩

end Runs

namespace Sample

def letters : Catalog :=
  let line (name : String) (culture : Option String) : MemberDeclaration :=
    { name, shape := .property .text, tags := [.textPrompt { culture }] }
  let form (name type : String) : MemberDeclaration :=
    { name, shape := .property (.form type), tags := [.nestedForm] }
  .ofDeclarations [
    { name := "Letter", culture := some "en-GB", members := [form "recipient" "Recipient"] },
    { name := "Recipient", members := [line "name" none, form "address" "Address"] },
    { name := "Address", culture := some "de-AT",
      members := [line "street" none, line "country" (some "fr-CH")] }]

def letterPlan : Plan :=
  ⟨"Letter", some "en-GB", .default, [], [
    .recurse "recipient" ⟨"Recipient", none, .default, [], [
      .askText "name" "name" .text false {} none,
      .recurse "address" ⟨"Address", some "de-AT", .default, [], [
        .askText "street" "street" .text false {} none,
        .askText "country" "country" .text false {} (some "fr-CH")]⟩]⟩]⟩

theorem letter_asks_name :
    (letters.compile 16 "Letter").result = .ok letterPlan ∧
      let ran := letterPlan.run "1" (some "nl-NL") (.new "Letter") twoAnswers
      let asked (title culture : String) :=
        Event.textAsked ⟨title, false, false, none, some culture⟩
      let before := ran.events.take 3
      let started := before.filterMap Event.startedPath?
      ran.events.filter Event.isRequest =
          [asked "name" "en-GB", asked "street" "de-AT", asked "country" "fr-CH"] ∧
        ran.events = before ++ asked "name" "en-GB" :: ran.events.drop 4 ∧
        started = ["recipient", "recipient.name"] ∧
          ∃ n place culture, started.length = n + 1 ∧ started.getLast? = some place.path ∧
            letterPlan.enclosed[n]? = some place ∧ place.Within letterPlan ∧
              place.operation.Issues culture (asked "name" "en-GB") ∧
                FirstSet (place.cultures (some "nl-NL")) culture := by
  have hCompiled : (letters.compile 16 "Letter").result = .ok letterPlan := by cbv
  refine ⟨hCompiled, rfl, rfl, rfl, ?_⟩
  exact letterPlan.run_carries_nearest_culture "1" (some "nl-NL") (.new "Letter") twoAnswers rfl rfl

end Sample
end FormFlow
