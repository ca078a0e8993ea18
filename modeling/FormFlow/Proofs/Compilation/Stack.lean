import FormFlow.Proofs.Compilation.Chains
import Mathlib.Data.List.Perm.Subperm
/-!
# The types in progress

All calls of one compilation share a stack of the types in progress. A call looks
at it, and pushes its own type while the members are lowered. `compileStep` is
such a call with the calls it makes left open, and `compileWithin` lets calls be
nested to a given depth, behind which they do not come back. Every compilation
comes back from a depth that is bounded by the declared types as well as by the
limit, with what `compile` gives, and each of its calls leaves the stack as it
found it: a chain of distinct types.
-/
namespace FormFlow

/-- A call for the plan of a type that has come back: the stack it found and the stack it left. -/
structure CompileCall where
  type : String
  found : List String
  left : List String

structure InProgress where
  stack : List String
  calls : List CompileCall

/-- A computation that works on the stack, and may not come back. -/
structure Stacked (α : Type) where
  run : InProgress → Option (Traced α × InProgress)

namespace Stacked
variable {α β : Type}

def lift (x : Traced α) : Stacked α := ⟨fun s => some (x, s)⟩

def bind (x : Stacked α) (f : α → Stacked β) : Stacked β where
  run s :=
    match x.run s with
    | none => none
    | some (⟨log, .error e⟩, s) => some (⟨log, .error e⟩, s)
    | some (⟨log, .ok a⟩, s) =>
      ((f a).run s).map fun out => (⟨log ++ out.1.log, out.1.result⟩, out.2)

instance : Monad Stacked where
  pure a := lift (pure a)
  bind := bind

theorem bind_run (x : Stacked α) (f : α → Stacked β) (s : InProgress) :
    (x >>= f).run s =
      match x.run s with
      | none => none
      | some (⟨log, .error e⟩, s) => some (⟨log, .error e⟩, s)
      | some (⟨log, .ok a⟩, s) =>
        ((f a).run s).map fun out => (⟨log ++ out.1.log, out.1.result⟩, out.2) := rfl

def under (t : String) (x : Stacked α) : Stacked α where
  run s := (x.run { s with stack := s.stack ++ [t] }).map fun out =>
    (out.1, { out.2 with stack := out.2.stack.dropLast })

def noted (t : String) (x : Stacked α) : Stacked α where
  run s := (x.run s).map fun out =>
    (out.1, { out.2 with calls := out.2.calls ++ [⟨t, s.stack, out.2.stack⟩] })

end Stacked

section Calls
variable (form : String) (nested : String → Stacked Plan)

def MemberSpec.lowerStacked (m : MemberSpec) (binding : Option MemberBinding) :
    Stacked (Option Operation) :=
  match m.nestedForm? with
  | none => .lift (m.lower form (fun b => .fail (.unknownType b)) binding)
  | some b => do
    let plan ← nested b
    .lift (m.lower form (fun _ => pure plan) binding)

def lowerMembersStacked : ResolvedBindings → List MemberSpec → Stacked Lowered
  | _, [] => pure ⟨[], []⟩
  | bindings, m :: rest => do
    let operation ← m.lowerStacked form nested (Assoc.get? bindings m.name)
    let lowered ← lowerMembersStacked (Assoc.erase bindings m.name) rest
    match operation with
    | some operation => pure (lowered.withOperation operation)
    | none => pure (lowered.withDependency ⟨m.name, m.declaredType⟩)

def ResolvedForm.lowerStacked (f : ResolvedForm) : Stacked Plan := do
  let lowered ← lowerMembersStacked f.model.typeName nested f.bindings f.model.members
  .lift do
    Traced.note (.planLowered f.model.typeName lowered.operations.length
      lowered.dependencies.length)
    pure { typeName := f.model.typeName
           culture := f.model.culture
           strategy := f.strategy
           dependencies := lowered.dependencies
           operations := lowered.operations }

end Calls

namespace Catalog

def compileStep (c : Catalog) (limit : Nat) (nested : String → Stacked Plan) (t : String) :
    Stacked Plan where
  run s :=
    if t ∈ s.stack then
      some (.fail (.cyclicNesting (s.stack.dropWhile (fun u => u ≠ t) ++ [t])), s)
    else if limit < s.stack.length then
      some (.fail (.nestingTooDeep t s.stack.length limit), s)
    else
      match c.declaration? t with
      | none => some (.fail (.unknownType t), s)
      | some d =>
        (Stacked.lift (d.resolved (c.bindingsOf t)) >>= fun form =>
          (form.lowerStacked nested).under t).run s

/-- A call below which calls are nested to the depth at most; a deeper one does not come back. -/
def compileWithin (c : Catalog) (limit : Nat) : Nat → String → Stacked Plan
  | 0, _ => ⟨fun _ => none⟩
  | depth + 1, t => (c.compileStep limit (compileWithin c limit depth) t).noted t

end Catalog

/-- From the depth on, the computation comes back with one outcome, with the stack as it was and the
same calls noted, each of which has the property. -/
def Stacked.Settles {α : Type} (P : CompileCall → Prop) (stack : List String) (n : Nat)
    (x : Nat → Stacked α) (outcome : Traced α) : Prop :=
  ∃ calls, (∀ call ∈ calls, P call) ∧ ∀ depth, n ≤ depth → ∀ earlier,
    (x depth).run ⟨stack, earlier⟩ = some (outcome, ⟨stack, earlier ++ calls⟩)

namespace Stacked.Settles
variable {α β : Type} {P : CompileCall → Prop} {stack : List String} {n : Nat}
  {x : Nat → Stacked α} {outcome : Traced α}

theorem congr {y : Nat → Stacked α} (h : Settles P stack n x outcome)
    (hSame : ∀ depth earlier, (y depth).run ⟨stack, earlier⟩ = (x depth).run ⟨stack, earlier⟩) :
    Settles P stack n y outcome := by
  obtain ⟨calls, hCalls, hRuns⟩ := h
  exact ⟨calls, hCalls, fun depth hDepth earlier =>
    (hSame depth earlier).trans (hRuns depth hDepth earlier)⟩

theorem lift (outcome : Traced α) : Settles P stack n (fun _ => .lift outcome) outcome :=
  ⟨[], by simp, fun depth _ earlier => by rw [List.append_nil]; rfl⟩

theorem bind {f : Nat → α → Stacked β} {g : α → Traced β} (hFirst : Settles P stack n x outcome)
    (hNext : ∀ a, outcome.result = .ok a → Settles P stack n (fun depth => f depth a) (g a)) :
    Settles P stack n (fun depth => x depth >>= f depth) (outcome >>= g) := by
  obtain ⟨calls, hCalls, hRuns⟩ := hFirst
  obtain ⟨log, result⟩ := outcome
  cases result with
  | error e =>
    refine ⟨calls, hCalls, fun depth hDepth earlier => ?_⟩
    rw [bind_run, hRuns depth hDepth earlier]
    rfl
  | ok a =>
    obtain ⟨later, hLater, hRunsOn⟩ := hNext a rfl
    refine ⟨calls ++ later, List.forall_mem_append.mpr ⟨hCalls, hLater⟩,
      fun depth hDepth earlier => ?_⟩
    rw [bind_run, hRuns depth hDepth earlier]
    dsimp only
    rw [hRunsOn depth hDepth, ← List.append_assoc]
    rfl

theorem under {t : String} (h : Settles P (stack ++ [t]) n x outcome) :
    Settles P stack n (fun depth => (x depth).under t) outcome := by
  obtain ⟨calls, hCalls, hRuns⟩ := h
  refine ⟨calls, hCalls, fun depth hDepth earlier => ?_⟩
  simp only [Stacked.under]
  rw [hRuns depth hDepth earlier, Option.map_some, List.dropLast_concat]

theorem noted {t : String} (h : Settles P stack n x outcome) (hCall : P ⟨t, stack, stack⟩) :
    Settles P stack n (fun depth => (x depth).noted t) outcome := by
  obtain ⟨calls, hCalls, hRuns⟩ := h
  refine ⟨calls ++ [⟨t, stack, stack⟩], ?_, fun depth hDepth earlier => ?_⟩
  · rw [List.forall_mem_append]
    exact ⟨hCalls, by simpa using hCall⟩
  · simp only [Stacked.noted]
    rw [hRuns depth hDepth earlier, Option.map_some, List.append_assoc]

end Stacked.Settles

section Lowering
variable {P : CompileCall → Prop} {stack : List String} {n : Nat} {form : String}
  {stacked : Nat → String → Stacked Plan} {nested : String → Traced Plan}

theorem MemberSpec.lowerStacked_settles {m : MemberSpec} (binding : Option MemberBinding)
    (h : ∀ b, m.nestedForm? = some b →
      Stacked.Settles P stack n (fun depth => stacked depth b) (nested b)) :
    Stacked.Settles P stack n (fun depth => m.lowerStacked form (stacked depth) binding)
      (m.lower form nested binding) := by
  cases hForm : m.nestedForm? with
  | none =>
    have hPlain : m.lower form nested binding =
        m.lower form (fun b => .fail (.unknownType b)) binding :=
      lower_of_plain hForm nested binding
    simp only [lowerStacked, hForm]
    rw [hPlain]
    exact .lift _
  | some b =>
    simp only [lowerStacked, hForm]
    rw [lower_of_nested hForm]
    exact (h b hForm).bind fun plan _ => .lift _

theorem lowerMembersStacked_settles (members : List MemberSpec) :
    (∀ b ∈ members.filterMap MemberSpec.nestedForm?,
      Stacked.Settles P stack n (fun depth => stacked depth b) (nested b)) →
    ∀ bindings, Stacked.Settles P stack n
      (fun depth => lowerMembersStacked form (stacked depth) bindings members)
      (lowerMembers form nested bindings members) := by
  induction members with
  | nil => exact fun _ _ => .lift _
  | cons m rest ih =>
    intro h bindings
    have hMember : ∀ b, m.nestedForm? = some b →
        Stacked.Settles P stack n (fun depth => stacked depth b) (nested b) :=
      fun b hForm => h b (List.mem_filterMap.mpr ⟨m, List.mem_cons_self, hForm⟩)
    have hRest : ∀ b ∈ rest.filterMap MemberSpec.nestedForm?,
        Stacked.Settles P stack n (fun depth => stacked depth b) (nested b) := by
      intro b hForm
      obtain ⟨spec, hSpec, hNests⟩ := List.mem_filterMap.mp hForm
      exact h b (List.mem_filterMap.mpr ⟨spec, List.mem_cons_of_mem m hSpec, hNests⟩)
    simp only [lowerMembersStacked, lowerMembers]
    refine (MemberSpec.lowerStacked_settles _ hMember).bind fun operation _ => ?_
    refine (ih hRest _).bind fun lowered _ => ?_
    cases operation <;> exact .lift _

theorem ResolvedForm.lowerStacked_settles {f : ResolvedForm}
    (h : ∀ b ∈ f.model.nestedForms,
      Stacked.Settles P stack n (fun depth => stacked depth b) (nested b)) :
    Stacked.Settles P stack n (fun depth => f.lowerStacked (stacked depth)) (f.lower nested) :=
  (lowerMembersStacked_settles f.model.members h f.bindings).bind fun _ _ => .lift _

end Lowering

namespace Catalog
variable {c : Catalog} {limit : Nat}

/-- What holds of every call of a compilation that starts at the root. -/
structure CallSound (c : Catalog) (limit : Nat) (root : String) (call : CompileCall) : Prop where
  leads : c.Leads root call.found call.type
  room : call.found.length ≤ limit + 1
  restored : call.left = call.found

theorem Leads.length_le {root t : String} {chain : List String} (h : c.Leads root chain t) :
    chain.length ≤ c.typeNames.length :=
  (List.subperm_of_subset h.distinct fun _ => h.declared).length_le

theorem compileStep_settles {t : String} {stack : List String} {n : Nat}
    {stacked : Nat → String → Stacked Plan} {P : CompileCall → Prop}
    (hNested : t ∉ stack → stack.length ≤ limit → ∀ b, c.Nests t b →
      Stacked.Settles P (stack ++ [t]) n (fun depth => stacked depth b)
        (c.compileBelow limit (limit - stack.length) (stack ++ [t]) b)) :
    Stacked.Settles P stack n (fun depth => c.compileStep limit (stacked depth) t)
      (c.compileBelow limit (limit + 1 - stack.length) stack t) := by
  by_cases hAbove : t ∈ stack
  · unfold compileBelow
    rw [if_pos hAbove]
    exact (Stacked.Settles.lift _).congr fun depth earlier => if_pos hAbove
  by_cases hDeep : limit < stack.length
  · have hRoom : limit + 1 - stack.length = 0 := by omega
    rw [hRoom, compileBelow, if_neg hAbove]
    refine (Stacked.Settles.lift _).congr fun depth earlier => ?_
    simp only [compileStep, if_neg hAbove, if_pos hDeep]
    rfl
  have hRoom : limit + 1 - stack.length = limit - stack.length + 1 := by omega
  rw [hRoom, compileBelow, if_neg hAbove]
  cases hDeclared : c.declaration? t with
  | none =>
    refine (Stacked.Settles.lift _).congr fun depth earlier => ?_
    simp only [compileStep, if_neg hAbove, if_neg hDeep, hDeclared]
    rfl
  | some d =>
    refine Stacked.Settles.congr (x := fun depth => Stacked.lift (d.resolved (c.bindingsOf t)) >>=
      fun form => (form.lowerStacked (stacked depth)).under t) ?_ fun depth earlier => ?_
    · refine (Stacked.Settles.lift _).bind fun form hResolved => ?_
      refine (ResolvedForm.lowerStacked_settles fun b hForm => ?_).under
      rw [(Declaration.resolved_ok hResolved).2] at hForm
      exact hNested hAbove (by omega) b ⟨d, hDeclared, hForm⟩
    · simp only [compileStep, if_neg hAbove, if_neg hDeep, hDeclared]

theorem compileWithin_settles {root : String} (n : Nat) :
    ∀ {stack : List String} {t : String}, c.Leads root stack t → stack.length ≤ limit + 1 →
      min c.typeNames.length (limit + 1) < stack.length + n →
      Stacked.Settles (c.CallSound limit root) stack n (fun depth => c.compileWithin limit depth t)
        (c.compileBelow limit (limit + 1 - stack.length) stack t) := by
  -- The stack grows by one with each call, so the depth that is left always bounds it.
  induction n with
  | zero =>
    intro stack t hLeads hRoom hDepth
    have := hLeads.length_le
    omega
  | succ n ih =>
    intro stack t hLeads hRoom hDepth
    have hStep : Stacked.Settles (c.CallSound limit root) stack n
        (fun depth => c.compileStep limit (c.compileWithin limit depth) t)
        (c.compileBelow limit (limit + 1 - stack.length) stack t) := by
      refine compileStep_settles fun hFresh hFits b hNests => ?_
      have hLength : (stack ++ [t]).length = stack.length + 1 := List.length_append
      have hBelow := ih (hLeads.nested hFresh hNests) (by omega) (by omega)
      rwa [hLength, Nat.add_sub_add_right] at hBelow
    obtain ⟨calls, hCalls, hRuns⟩ := hStep.noted ⟨hLeads, hRoom, rfl⟩
    refine ⟨calls, hCalls, fun depth hDepth earlier => ?_⟩
    obtain ⟨fewer, rfl⟩ : ∃ fewer, depth = fewer + 1 := ⟨depth - 1, by omega⟩
    exact hRuns fewer (by omega) earlier

/-- Every compilation comes back: whatever the catalog nests, calls that are nested deeper than there
are declared types, or than the limit and one more, are never made, and allowing for them changes
nothing. Each call finds a stack of distinct declared types, each nesting the next one and the last one
the type of the call, and leaves it as it was. -/
theorem compile_terminates (c : Catalog) (limit : Nat) (t : String) :
    ∃ calls, (∀ depth, min c.typeNames.length (limit + 1) < depth →
        (c.compileWithin limit depth t).run ⟨[], []⟩ = some (c.compile limit t, ⟨[], calls⟩)) ∧
      ∀ call ∈ calls, call.found.Nodup ∧ (∀ u ∈ call.found, u ∈ c.typeNames) ∧
        List.IsChain c.Nests (call.found ++ [call.type]) ∧
        call.found.length ≤ c.typeNames.length ∧ call.found.length ≤ limit + 1 ∧
        call.left = call.found := by
  have hBound : min c.typeNames.length (limit + 1) <
      ([] : List String).length + (min c.typeNames.length (limit + 1) + 1) := by
    rw [List.length_nil, Nat.zero_add]
    exact Nat.lt_succ_self _
  obtain ⟨calls, hCalls, hRuns⟩ :=
    compileWithin_settles _ (.start c t) (Nat.zero_le (limit + 1)) hBound
  refine ⟨calls, fun depth hDepth => hRuns depth hDepth [], fun call hCall => ?_⟩
  have hSound := hCalls call hCall
  exact ⟨hSound.leads.distinct, fun u => hSound.leads.declared, hSound.leads.linked,
    hSound.leads.length_le, hSound.room, hSound.restored⟩

end Catalog

theorem Sample.shop_calls :
    ∃ calls, (shopForms.compileWithin 16 5 "Shop").run ⟨[], []⟩ =
        some (shopForms.compile 16 "Shop", ⟨[], calls⟩) ∧
      calls.map (fun call => (call.type, call.found)) =
        [("Buyer", ["Shop", "Order"]), ("Order", ["Shop", "Order", "Return"]),
          ("Return", ["Shop", "Order"]), ("Order", ["Shop"]), ("Shop", [])] ∧
      ∀ call ∈ calls, call.left = call.found := by
  obtain ⟨calls, hRuns, hCalls⟩ := shopForms.compile_terminates 16 "Shop"
  have hComesBack := hRuns 5 (by decide)
  refine ⟨calls, hComesBack, ?_, fun call hCall => (hCalls call hCall).2.2.2.2.2⟩
  have hMade : ((shopForms.compileWithin 16 5 "Shop").run ⟨[], []⟩).map
      (fun out => out.2.calls.map fun call => (call.type, call.found)) =
        some [("Buyer", ["Shop", "Order"]), ("Order", ["Shop", "Order", "Return"]),
          ("Return", ["Shop", "Order"]), ("Order", ["Shop"]), ("Shop", [])] := by cbv
  rw [hComesBack] at hMade
  exact Option.some.inj hMade

end FormFlow
