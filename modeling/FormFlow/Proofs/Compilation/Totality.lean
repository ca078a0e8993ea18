import FormFlow.Compilation
import FormFlow.Proofs.Compilation.Lowering
/-!
# Forms that are resolved but not lowered

A dependency takes the binding of its name out of the table before any select or
step member is lowered. So a form whose phases succeed has a plan, given those
of the forms that it nests, exactly if no dependency has the name of a select or
step member; otherwise a callable is reported missing although it is registered.
-/
namespace FormFlow

/-- A dependency and a select or step member have that name. -/
def Model.Overshadows (model : Model) (name : String) : Prop :=
  (∃ dep ∈ model.members, dep.isDependency = true ∧ dep.name = name) ∧
    ∃ m ∈ model.members, m.isBound = true ∧ m.name = name

theorem MemberSpec.not_dependency_of_bound {m : MemberSpec} (h : m.isBound = true) :
    m.isDependency = false := by
  obtain ⟨name, type, kind⟩ := m
  cases kind with
  | dependency source => cases h
  | _ => rfl

section Overshadowed
variable {d : Declaration} {form : ResolvedForm} {nested : String → Traced Plan}

theorem Declaration.bindingLeft_eq {name : String} (h : name ∉ d.dependencyNames form.strategy) :
    d.bindingLeft form name = Assoc.get? form.bindings name := if_neg h

theorem MemberSpec.lower_overshadowed {m : MemberSpec} (hBound : m.isBound = true)
    (hName : m.name ∈ d.dependencyNames form.strategy) :
    (m.lower d.name nested (d.bindingLeft form m.name)).result =
      .error (.missingImplementation d.name m.name) := by
  rw [Declaration.bindingLeft, if_pos hName]
  exact m.lower_unbound hBound

end Overshadowed

namespace Declaration.Resolves
variable {d : Declaration} {table : BindingTable} {form : ResolvedForm} {specs : List MemberSpec}
  {nested : String → Traced Plan}

theorem overshadows_iff (h : d.Resolves table form specs) {name : String} :
    form.model.Overshadows name ↔
      name ∈ d.dependencyNames form.strategy ∧ ∃ m ∈ specs, m.isBound = true ∧ m.name = name := by
  have hDependencies := d.isDependency_dependencySpecs form.strategy
  rw [Model.Overshadows, h.members, dependencyNames, List.mem_map]
  constructor
  · rintro ⟨⟨dep, hDep, hIs, rfl⟩, m, hm, hBound, hName⟩
    have hNotDependency := MemberSpec.not_dependency_of_bound hBound
    refine ⟨⟨dep, ?_, rfl⟩, m, ?_, hBound, hName⟩
    · refine (List.mem_append.mp hDep).resolve_right fun hSpec => ?_
      rw [h.not_dependency hSpec] at hIs
      cases hIs
    · refine (List.mem_append.mp hm).resolve_left fun hSpec => ?_
      rw [hDependencies m hSpec] at hNotDependency
      cases hNotDependency
  · rintro ⟨⟨dep, hDep, rfl⟩, m, hm, hBound, hName⟩
    exact ⟨⟨dep, List.mem_append_left _ hDep, hDependencies dep hDep, rfl⟩,
      m, List.mem_append_right _ hm, hBound, hName⟩

theorem lower_fails (h : d.Resolves table form specs) {e : ModelError}
    (hLower : (form.lower nested).result = .error e) :
    (∃ b ∈ form.model.nestedForms, (nested b).result = .error e) ∨
      ∃ name, form.model.Overshadows name ∧ e = .missingImplementation d.name name := by
  obtain ⟨m, hm, hMember⟩ := h.lower_error hLower
  have hMem : m ∈ form.model.members := h.members ▸ List.mem_append_right _ hm
  -- A select or step member was resolved, so it fails only if its binding is gone. Any other member
  -- fails only through the form that it nests.
  cases hBound : m.isBound with
  | true =>
    by_cases hName : m.name ∈ d.dependencyNames form.strategy
    · rw [MemberSpec.lower_overshadowed hBound hName] at hMember
      cases hMember
      exact .inr ⟨m.name, h.overshadows_iff.mpr ⟨hName, m, hm, hBound, rfl⟩, rfl⟩
    · have hBinding := h.bound m hm
      rw [← bindingLeft_eq hName] at hBinding
      obtain ⟨operation, hLowered⟩ : ∃ operation,
          (m.lower d.name nested (d.bindingLeft form m.name)).result = .ok (some operation) :=
        m.lower_bound hBound hBinding
      rw [hLowered] at hMember
      cases hMember
  | false =>
    rcases m.lower_result with ⟨-, hNone⟩ | ⟨b, hForm, hResult⟩
    · have hNested : ∀ b, m.nestedForm? = some b → ∃ plan, (nested b).result = .ok plan := by
        rw [hNone]
        rintro b ⟨⟩
      obtain ⟨operation, hLowered⟩ : ∃ operation,
          (m.lower d.name nested (d.bindingLeft form m.name)).result = .ok (some operation) :=
        m.lower_free (h.not_dependency hm) hBound hNested _
      rw [hLowered] at hMember
      cases hMember
    · rw [hResult] at hMember
      exact .inl ⟨b, List.mem_filterMap.mpr ⟨m, hMem, hForm⟩, Outcome.map_eq_error.mp hMember⟩

theorem lower_ok_iff (h : d.Resolves table form specs)
    (hNested : ∀ b ∈ form.model.nestedForms, ∃ inner, (nested b).result = .ok inner) :
    (∃ plan, (form.lower nested).result = .ok plan) ↔ ∀ name, ¬ form.model.Overshadows name := by
  constructor
  · rintro ⟨plan, hPlan⟩ name hShadow
    obtain ⟨hName, m, hm, hBound, rfl⟩ := h.overshadows_iff.mp hShadow
    obtain ⟨operations, -, hAll⟩ := h.lower_ok hPlan
    obtain ⟨operation, -, hLowered⟩ := forall₂_exists_right hAll hm
    rw [MemberSpec.lower_overshadowed hBound hName] at hLowered
    cases hLowered
  · intro hFree
    cases hLower : (form.lower nested).result with
    | ok plan => exact ⟨plan, rfl⟩
    | error e =>
      rcases h.lower_fails hLower with ⟨b, hForm, hError⟩ | ⟨name, hShadow, -⟩
      · obtain ⟨inner, hInner⟩ := hNested b hForm
        rw [hInner] at hError
        cases hError
      · exact absurd hShadow (hFree name)

end Declaration.Resolves

namespace Catalog
variable {c : Catalog} {limit : Nat}

theorem compileBelow_failsOnly {P : ModelError → Prop} (hBetween : ∀ e, e.declaration? = none → P e)
    (hResolved : ∀ t d, c.declaration? t = some d →
      Outcome.FailsOnly P (d.resolved (c.bindingsOf t)).result)
    (hLower : ∀ t d form (nested : String → Traced Plan), c.declaration? t = some d →
      (d.resolved (c.bindingsOf t)).result = .ok form →
      (∀ b, Outcome.FailsOnly P (nested b).result) → Outcome.FailsOnly P (form.lower nested).result)
    (room : Nat) : ∀ chain t, Outcome.FailsOnly P (c.compileBelow limit room chain t).result := by
  induction room with
  | zero =>
    intro chain t
    unfold compileBelow
    split
    · exact .error (hBetween _ rfl)
    · exact .error (hBetween _ rfl)
  | succ room ih =>
    intro chain t
    unfold compileBelow
    split
    · exact .error (hBetween _ rfl)
    · dsimp only
      split
      · exact .error (hBetween _ rfl)
      · rename_i d hDeclared
        rw [Traced.result_bind]
        exact (hResolved t d hDeclared).bind fun form hForm =>
          hLower t d form _ hDeclared hForm (ih (chain ++ [t]))

/-- The callable of that name is not registered for the form, or the form is resolved and a
dependency of it has the name of the member that needs the callable. -/
def Misses (c : Catalog) (form name : String) : Prop :=
  Assoc.get? (c.bindingsOf form) name = none ∨
    ∃ d resolved, c.declaration? form = some d ∧
      (d.resolved (c.bindingsOf form)).result = .ok resolved ∧ resolved.model.Overshadows name

theorem compile_failsOnly_misses (t : String) :
    Outcome.FailsOnly (fun e => ∀ form name, e = .missingImplementation form name →
      c.Misses form name) (c.compile limit t).result := by
  apply compileBelow_failsOnly
  case hBetween =>
    rintro e hNone form name rfl
    cases hNone
  case hResolved =>
    rintro t d hDeclared e hError form name rfl
    obtain rfl := name_of_declaration? hDeclared
    have hFault := d.resolved_concerns (c.bindingsOf d.name) _ hError
    obtain rfl : form = d.name := Option.some.inj hFault.about
    exact .inl (hFault.unregistered name rfl)
  case hLower =>
    rintro t d resolved nested hDeclared hResolved hNested e hError form name rfl
    obtain rfl := name_of_declaration? hDeclared
    obtain ⟨specs, hResolves⟩ := Declaration.resolves_of_resolved hResolved
    rcases hResolves.lower_fails hError with ⟨b, -, hInner⟩ | ⟨name', hShadow, hEq⟩
    · exact hNested b _ hInner form name rfl
    · cases hEq
      exact .inr ⟨d, resolved, hDeclared, hResolved, hShadow⟩

end Catalog

/-- A declaration whose phases succeed is not lowered only for a nested form without a plan or for a
dependency with the name of a select or step member; given the plans of its nested forms it has a plan
exactly if there is no such dependency. Compilation misses an implementation only if it is not
registered or there is such a dependency. -/
theorem Catalog.lowers_iff_not_overshadowed (c : Catalog) (limit : Nat) (t : String) :
    (∀ (d : Declaration) (table : BindingTable) (form : ResolvedForm) (nested : String → Traced Plan),
      (d.resolved table).result = .ok form →
        (∀ e, (form.lower nested).result = .error e →
          (∃ b ∈ form.model.nestedForms, (nested b).result = .error e) ∨
            ∃ name, form.model.Overshadows name ∧ e = .missingImplementation d.name name) ∧
        ((∀ b ∈ form.model.nestedForms, ∃ inner, (nested b).result = .ok inner) →
          ((∃ plan, (form.lower nested).result = .ok plan) ↔
            ∀ name, ¬ form.model.Overshadows name))) ∧
      ∀ form name, (c.compile limit t).result = .error (.missingImplementation form name) →
        c.Misses form name := by
  refine ⟨fun d table form nested hResolved => ?_, fun form name hError =>
    compile_failsOnly_misses t _ hError form name rfl⟩
  obtain ⟨specs, hResolves⟩ := Declaration.resolves_of_resolved hResolved
  exact ⟨fun e => hResolves.lower_fails, hResolves.lower_ok_iff⟩

namespace Sample

def account (parameter : String) : Declaration :=
  { name := "Account"
    constructors := [{ parameters := [⟨parameter, .text⟩] }]
    members := [
      { name := "login", shape := .property (.form "Login"), tags := [.nestedForm] },
      { name := "sync", shape := .method [] .unit, tags := [.taskStep {}] }] }

def login : Declaration :=
  { name := "Login"
    members := [{ name := "user", shape := .property .text, tags := [.textPrompt {}] }] }

def accountTable : BindingTable := [("sync", .step (.sync fun inst => ⟨inst, false, .ok ()⟩))]

def accounts (parameter : String) : Catalog :=
  (Catalog.ofDeclarations [account parameter, login]).bind "Account" accountTable

def loginPlan : Plan := ⟨"Login", none, .default, [], [.askText "user" "user" .text false {} none]⟩

def accountModel (parameter : String) : Model :=
  ⟨"Account", none, [
    ⟨parameter, some .text, .dependency .constructorParameter⟩,
    ⟨"login", some (.form "Login"), .nestedForm "Login"⟩, ⟨"sync", none, .taskStep false {}⟩]⟩

theorem compile_overshadowed : ((accounts "sync").compile 16 "Account").result =
    .error (.missingImplementation "Account" "sync") := by cbv

theorem owned_account_lowered :
    (∃ form, ((account "owner").resolved accountTable).result = .ok form ∧
      form.model = accountModel "owner" ∧
        ∃ plan, (form.lower fun _ => pure loginPlan).result = .ok plan) ∧
      (accounts "sync").Misses "Account" "sync" := by
  refine ⟨⟨_, rfl, rfl, ?_⟩, ?_⟩
  · have hLowered := (((accounts "owner").lowers_iff_not_overshadowed 16 "Account").1
      (account "owner") accountTable _ (fun _ => pure loginPlan) rfl).2 fun b _ => ⟨loginPlan, rfl⟩
    have hApart : ∀ dep ∈ (accountModel "owner").members, dep.isDependency = true →
        ∀ m ∈ (accountModel "owner").members, m.isBound = true → m.name ≠ dep.name := by decide
    refine hLowered.mpr ?_
    rintro name ⟨⟨dep, hDep, hIs, rfl⟩, m, hm, hBound, hName⟩
    exact hApart dep hDep hIs m hm hBound hName
  · exact ((accounts "sync").lowers_iff_not_overshadowed 16 "Account").2 "Account" "sync"
      compile_overshadowed

/-- A parameter with the name of the step takes the binding of the step. -/
theorem registered_step_missing :
    (∃ form, ((account "sync").resolved accountTable).result = .ok form ∧
      form.model = accountModel "sync" ∧ (form.lower fun _ => pure loginPlan).result =
        .error (.missingImplementation "Account" "sync")) ∧
      ((accounts "sync").compile 16 "Account").result =
        .error (.missingImplementation "Account" "sync") ∧
      Assoc.get? ((accounts "sync").bindingsOf "Account") "sync" ≠ none := by
  have hTable : (accounts "sync").bindingsOf "Account" = accountTable := rfl
  refine ⟨⟨_, rfl, rfl, rfl⟩, compile_overshadowed, ?_⟩
  rw [hTable]
  exact Option.some_ne_none _

end Sample
end FormFlow
