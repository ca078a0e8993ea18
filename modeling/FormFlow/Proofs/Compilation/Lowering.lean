import FormFlow.Proofs.Compilation.Members
/-!
# Lowered forms

What lowering makes of a resolved form, member by member: the dependencies come
first, and each of them takes the binding of its name out of the table. A select
or step member then needs the binding that is left; another member needs none.
-/
namespace FormFlow

theorem Assoc.get?_foldl_erase {α : Type} (names : List String) (table : Assoc α) (k : String) :
    get? (names.foldl erase table) k = if k ∈ names then none else get? table k := by
  induction names generalizing table with
  | nil => simp
  | cons name rest ih =>
    rw [List.foldl_cons, ih]
    by_cases hRest : k ∈ rest
    · simp [hRest]
    · by_cases hName : k = name
      · simp [hName]
      · simp [hRest, hName, get?_erase_of_ne table hName]

section Resolved

/-- What is known of a resolved form: its members are the dependencies followed by the specified
members, each of which finds its binding under its name. -/
structure Declaration.Resolves (d : Declaration) (table : BindingTable) (form : ResolvedForm)
    (specs : List MemberSpec) : Prop where
  typeName : form.model.typeName = d.name
  culture : form.model.culture = d.culture
  strategy : d.chooseConstructor = .ok form.strategy
  members : form.model.members = d.dependencySpecs form.strategy ++ specs
  specified : List.Forall₂ MemberDeclaration.Specifies d.tagged specs
  distinct : (specs.map MemberSpec.name).Nodup
  bound : ∀ m ∈ specs, d.resolveMember table m = .ok (Assoc.get? form.bindings m.name)
  dependenciesDistinct : ((d.dependencySpecs form.strategy).map MemberSpec.name).Nodup
  parametersFree : ∀ p ∈ form.strategy.parameters, ∀ m ∈ specs, m.isPrompted = true → m.name ≠ p.name

theorem Model.member?_of_mem {model : Model} (hNodup : (model.members.map MemberSpec.name).Nodup)
    {m : MemberSpec} (hMem : m ∈ model.members) : model.member? m.name = some m :=
  find?_of_nodup hNodup hMem

theorem Declaration.resolved_resolves {d : Declaration} {table : BindingTable}
    {form : ResolvedForm} (h : (d.resolved table).result = .ok form) :
    ∃ model, d.extract = .ok model ∧ d.resolve model table = .ok form.bindings ∧
      d.Resolves table form model.members := by
  rw [resolved_result] at h
  obtain ⟨model, hModel, h⟩ := Outcome.bind_eq_ok.mp h
  obtain ⟨bindings, hBindings, h⟩ := Outcome.bind_eq_ok.mp h
  obtain ⟨⟨strategy, full⟩, hBuilt, h⟩ := Outcome.bind_eq_ok.mp h
  cases h
  obtain ⟨hSpecified, hDistinct⟩ := extract_members hModel
  obtain ⟨hStrategy, rfl, hDependencies, hFree⟩ := construct_eq hBuilt
  refine ⟨model, hModel, hBindings, {
    typeName := (extract_ok hModel).1
    culture := (extract_culture hModel :)
    strategy := hStrategy
    members := rfl
    specified := hSpecified
    distinct := hDistinct
    bound := resolve_get? hDistinct hBindings
    dependenciesDistinct := hDependencies
    parametersFree := ?_ }⟩
  intro p hp m hm hPrompted hName
  have hNot := hFree p hp
  rw [← hName, Model.member?_of_mem hDistinct hm, Option.any_some, hPrompted] at hNot
  cases hNot

theorem Declaration.resolves_of_resolved {d : Declaration} {table : BindingTable}
    {form : ResolvedForm} (h : (d.resolved table).result = .ok form) :
    ∃ specs, d.Resolves table form specs := by
  obtain ⟨model, -, -, hResolves⟩ := resolved_resolves h
  exact ⟨model.members, hResolves⟩

namespace Declaration.Resolves
variable {d : Declaration} {table : BindingTable} {form : ResolvedForm} {specs : List MemberSpec}

theorem exists_member (h : d.Resolves table form specs) {spec : MemberSpec} (hSpec : spec ∈ specs) :
    ∃ m ∈ d.tagged, m.Specifies spec := forall₂_exists_left h.specified hSpec

theorem not_dependency (h : d.Resolves table form specs) {spec : MemberSpec} (hSpec : spec ∈ specs) :
    spec.isDependency = false := by
  obtain ⟨m, -, hSpecifies⟩ := h.exists_member hSpec
  exact hSpecifies.not_dependency

end Declaration.Resolves

end Resolved

section Members
variable {form : String} {nested : String → Traced Plan}

def MemberSpec.required (m : MemberSpec) : Dependency := ⟨m.name, m.declaredType⟩

def Lowered.withDependencies (l : Lowered) (specs : List MemberSpec) : Lowered :=
  { l with dependencies := specs.map MemberSpec.required ++ l.dependencies }

theorem MemberSpec.lower_dependency {m : MemberSpec} (h : m.isDependency = true)
    (binding : Option MemberBinding) : (m.lower form nested binding).result = .ok none := by
  obtain ⟨name, type, kind⟩ := m
  cases kind with
  | dependency source => rfl
  | _ => cases h

theorem MemberSpec.lower_isSome {m : MemberSpec} (h : m.isDependency = false)
    {binding : Option MemberBinding} {operation : Option Operation}
    (hLower : (m.lower form nested binding).result = .ok operation) : operation.isSome = true := by
  unfold lower at hLower
  split at hLower
  · rename_i hKind
    simp [isDependency, hKind] at h
  · cases hLower
    rfl
  · cases hLower
    rfl
  · cases hLower
    rfl
  · rw [Traced.result_bind] at hLower
    obtain ⟨plan, -, hPlan⟩ := Outcome.bind_eq_ok.mp hLower
    cases hPlan
    rfl
  · cases hLower
  · cases hLower

theorem lowerMembers_dependencies (specs rest : List MemberSpec)
    (h : ∀ m ∈ specs, m.isDependency = true) : ∀ bindings : ResolvedBindings,
    (lowerMembers form nested bindings (specs ++ rest)).result =
      (lowerMembers form nested ((specs.map MemberSpec.name).foldl Assoc.erase bindings) rest).result.map
        fun lowered => lowered.withDependencies specs := by
  induction specs with
  | nil =>
    intro bindings
    rw [List.nil_append, List.map_nil, List.foldl_nil]
    cases (lowerMembers form nested bindings rest).result <;> rfl
  | cons m others ih =>
    intro bindings
    obtain ⟨hHead, hTail⟩ := List.forall_mem_cons.mp h
    rw [List.cons_append, lowerMembers_cons, m.lower_dependency hHead, ih hTail, List.map_cons,
      List.foldl_cons]
    cases (lowerMembers form nested
      ((others.map MemberSpec.name).foldl Assoc.erase (Assoc.erase bindings m.name)) rest).result <;> rfl

section Specifications
variable {bindingOf : String → Option MemberBinding}

theorem forall_get?_erase {bindings : ResolvedBindings} {m : MemberSpec} {rest : List MemberSpec}
    (hNodup : ((m :: rest).map MemberSpec.name).Nodup)
    (hBound : ∀ other ∈ m :: rest, Assoc.get? bindings other.name = bindingOf other.name) :
    ∀ other ∈ rest, Assoc.get? (Assoc.erase bindings m.name) other.name = bindingOf other.name := by
  intro other hOther
  rw [Assoc.get?_erase_of_ne _ ((nodup_map_cons.mp hNodup).1 other hOther)]
  exact hBound other (List.mem_cons_of_mem _ hOther)

theorem lowerMembers_specs_ok (specs : List MemberSpec) (h : ∀ m ∈ specs, m.isDependency = false) :
    ∀ {bindings : ResolvedBindings} {lowered : Lowered}, (specs.map MemberSpec.name).Nodup →
      (∀ m ∈ specs, Assoc.get? bindings m.name = bindingOf m.name) →
      (lowerMembers form nested bindings specs).result = .ok lowered →
        lowered.dependencies = [] ∧ List.Forall₂ (fun m operation =>
          (m.lower form nested (bindingOf m.name)).result = .ok (some operation))
            specs lowered.operations := by
  induction specs with
  | nil =>
    intro bindings lowered _ _ hLower
    cases hLower
    exact ⟨rfl, .nil⟩
  | cons m rest ih =>
    intro bindings lowered hNodup hBound hLower
    obtain ⟨hHead, hTail⟩ := List.forall_mem_cons.mp h
    rw [lowerMembers_cons, hBound m List.mem_cons_self] at hLower
    obtain ⟨operation, hMember, hLower⟩ := Outcome.bind_eq_ok.mp hLower
    obtain ⟨later, hRest, hLowered⟩ := Outcome.bind_eq_ok.mp hLower
    obtain ⟨op, rfl⟩ := Option.isSome_iff_exists.mp (m.lower_isSome hHead hMember)
    cases hLowered
    obtain ⟨hNone, hAll⟩ :=
      ih hTail (nodup_map_cons.mp hNodup).2 (forall_get?_erase hNodup hBound) hRest
    exact ⟨hNone, .cons hMember hAll⟩

theorem lowerMembers_specs_error {e : ModelError} (specs : List MemberSpec) :
    ∀ {bindings : ResolvedBindings}, (specs.map MemberSpec.name).Nodup →
      (∀ m ∈ specs, Assoc.get? bindings m.name = bindingOf m.name) →
      (lowerMembers form nested bindings specs).result = .error e →
        ∃ m ∈ specs, (m.lower form nested (bindingOf m.name)).result = .error e := by
  induction specs with
  | nil =>
    intro bindings _ _ hLower
    cases hLower
  | cons m rest ih =>
    intro bindings hNodup hBound hLower
    rw [lowerMembers_cons, hBound m List.mem_cons_self] at hLower
    rcases Outcome.bind_eq_error.mp hLower with hMember | ⟨operation, -, hLower⟩
    · exact ⟨m, List.mem_cons_self, hMember⟩
    · rcases Outcome.bind_eq_error.mp hLower with hRest | ⟨later, -, hLower⟩
      · obtain ⟨other, hOther, hError⟩ :=
          ih (nodup_map_cons.mp hNodup).2 (forall_get?_erase hNodup hBound) hRest
        exact ⟨other, List.mem_cons_of_mem _ hOther, hError⟩
      · cases hLower

end Specifications

theorem MemberSpec.lower_unbound {m : MemberSpec} (h : m.isBound = true) :
    (m.lower form nested none).result = .error (.missingImplementation form m.name) := by
  obtain ⟨name, type, kind⟩ := m
  cases kind with
  | selectPrompt options => rfl
  | taskStep isAsync options => rfl
  | _ => cases h

theorem MemberSpec.lower_bound {d : Declaration} {table : BindingTable} {m : MemberSpec}
    {binding : Option MemberBinding} (h : m.isBound = true)
    (hBinding : d.resolveMember table m = .ok binding) :
    ∃ operation, (m.lower form nested binding).result = .ok (some operation) := by
  obtain ⟨name, type, kind⟩ := m
  cases kind with
  | selectPrompt options =>
    obtain ⟨found, hFound, rfl⟩ := Outcome.map_eq_ok.mp hBinding
    obtain ⟨-, -, source, converter, -, -, rfl⟩ := Declaration.resolveSelect_ok hFound
    exact ⟨_, rfl⟩
  | taskStep isAsync options =>
    obtain ⟨found, hFound, rfl⟩ := Outcome.map_eq_ok.mp hBinding
    obtain ⟨body, -, -, rfl⟩ := Declaration.resolveStep_ok hFound
    exact ⟨_, rfl⟩
  | _ => cases h

theorem MemberSpec.lower_free {m : MemberSpec} (hDependency : m.isDependency = false)
    (hBound : m.isBound = false) (hNested : ∀ b, m.nestedForm? = some b →
      ∃ plan, (nested b).result = .ok plan) (binding : Option MemberBinding) :
    ∃ operation, (m.lower form nested binding).result = .ok (some operation) := by
  obtain ⟨name, type, kind⟩ := m
  cases kind with
  | textPrompt options => exact ⟨_, rfl⟩
  | nestedForm b =>
    obtain ⟨plan, hPlan⟩ := hNested b rfl
    refine ⟨.recurse name plan, ?_⟩
    simp only [lower, Traced.result_bind, hPlan]
    rfl
  | selectPrompt options => cases hBound
  | taskStep isAsync options => cases hBound
  | dependency source => cases hDependency

end Members

namespace Declaration
variable {d : Declaration} {table : BindingTable} {form : ResolvedForm} {specs : List MemberSpec}
  {nested : String → Traced Plan}

def dependencyNames (d : Declaration) (strategy : ConstructionStrategy) : List String :=
  (d.dependencySpecs strategy).map MemberSpec.name

/-- The binding that is left for a member once the dependencies have taken theirs. -/
def bindingLeft (d : Declaration) (form : ResolvedForm) (name : String) : Option MemberBinding :=
  if name ∈ d.dependencyNames form.strategy then none else Assoc.get? form.bindings name

namespace Resolves

theorem lower_result (h : d.Resolves table form specs) :
    (form.lower nested).result =
      (lowerMembers d.name nested
          ((d.dependencyNames form.strategy).foldl Assoc.erase form.bindings) specs).result.map
        fun lowered => ⟨d.name, d.culture, form.strategy,
          (d.dependencySpecs form.strategy).map MemberSpec.required ++ lowered.dependencies,
          lowered.operations⟩ := by
  rw [ResolvedForm.lower_result, h.members, h.typeName, h.culture,
    lowerMembers_dependencies _ _ (d.isDependency_dependencySpecs _)]
  rw [← dependencyNames]
  cases (lowerMembers d.name nested
    ((d.dependencyNames form.strategy).foldl Assoc.erase form.bindings) specs).result <;> rfl

theorem get?_bindings (d : Declaration) (form : ResolvedForm) (specs : List MemberSpec) :
    ∀ m ∈ specs, Assoc.get? ((d.dependencyNames form.strategy).foldl Assoc.erase form.bindings) m.name =
      d.bindingLeft form m.name :=
  fun m _ => Assoc.get?_foldl_erase _ _ m.name

theorem lower_ok (h : d.Resolves table form specs) {plan : Plan}
    (hLower : (form.lower nested).result = .ok plan) :
    ∃ operations, plan = ⟨d.name, d.culture, form.strategy,
        (d.dependencySpecs form.strategy).map MemberSpec.required, operations⟩ ∧
      List.Forall₂ (fun m operation =>
        (m.lower d.name nested (d.bindingLeft form m.name)).result = .ok (some operation))
          specs operations := by
  rw [h.lower_result] at hLower
  obtain ⟨lowered, hLowered, rfl⟩ := Outcome.map_eq_ok.mp hLower
  obtain ⟨hNone, hAll⟩ := lowerMembers_specs_ok specs (fun m hm => h.not_dependency hm) h.distinct
    (get?_bindings d form specs) hLowered
  exact ⟨lowered.operations, by rw [hNone, List.append_nil], hAll⟩

theorem lower_error (h : d.Resolves table form specs) {e : ModelError}
    (hLower : (form.lower nested).result = .error e) :
    ∃ m ∈ specs, (m.lower d.name nested (d.bindingLeft form m.name)).result = .error e := by
  rw [h.lower_result] at hLower
  exact lowerMembers_specs_error specs h.distinct (get?_bindings d form specs)
    (Outcome.map_eq_error.mp hLower)

end Resolves
end Declaration
end FormFlow
