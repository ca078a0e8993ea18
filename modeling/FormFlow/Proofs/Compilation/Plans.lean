import FormFlow.Compilation
import FormFlow.Proofs.Compilation.Lowering
import FormFlow.Proofs.Run.Course
/-!
# Plans of a catalog

The relation `Lowers` says what operation a tagged member becomes, rule by rule
and apart from the code; `IsPlan` collects what holds of a plan as a whole. Every
plan that compilation gives, and every plan nested in it, is a plan of the
declaration it is named after. Of its dependencies only a required property that
stands beside a text prompt or a nested form of its name is prompted for.
-/
namespace FormFlow

section Plans

/-- The operation that a tagged member becomes. -/
inductive Declaration.Lowers (d : Declaration) (table : BindingTable)
    (nested : String → Traced Plan) (m : MemberDeclaration) : Operation → Prop where
  | text (options : TextOptions) (type : FieldType) (tags : m.tags = [.textPrompt options])
      (shape : m.shape = .property type) (scalar : type.isScalar = true) :
      d.Lowers table nested m (.askText m.name (options.title.getD m.name) type options.secret
        ⟨options.searchEnabled, options.searchPlaceholder⟩ options.culture)
  | select (options : SelectOptions) (type : FieldType) (tags : m.tags = [.selectPrompt options])
      (shape : m.shape = .property type) (noForm : type.formName? = none) (source : Source)
      (converter : Option Converter)
      (resolved : d.resolveSelect table ⟨m.name, some type, .selectPrompt options⟩ options =
        .ok (.select source converter)) :
      d.Lowers table nested m (.askSelect m.name (options.title.getD m.name) source converter
        ⟨options.searchEnabled, options.searchPlaceholder⟩ options.culture)
  | step (options : StepOptions) (returns : ReturnShape) (tags : m.tags = [.taskStep options])
      (shape : m.shape = .method [] returns) (body : StepBody)
      (registered : Assoc.get? table m.name = some (.step body))
      (flavour : body.isAsync = returns.isDeferred) :
      d.Lowers table nested m (.runStep m.name returns.isDeferred options body)
  | recurse (form : String) (tags : m.tags = [.nestedForm])
      (shape : m.shape = .property (.form form)) (plan : Plan)
      (compiled : (nested form).result = .ok plan) :
      d.Lowers table nested m (.recurse m.name plan)

def Operation.isBound : Operation → Bool
  | .askSelect _ _ _ _ _ _ | .runStep _ _ _ _ => true
  | .askText _ _ _ _ _ _ | .recurse _ _ => false

theorem Operation.isBound_of_isStep {op : Operation} (h : op.isStep = true) :
    op.isBound = true := by
  cases op with
  | runStep member isAsync status body => rfl
  | _ => cases h

theorem Declaration.mem_dependencyNames (d : Declaration) {strategy : ConstructionStrategy}
    {p : Parameter} (h : p ∈ strategy.parameters) : p.name ∈ d.dependencyNames strategy :=
  List.mem_map.mpr ⟨p.dependency, List.mem_append_left _ (List.mem_map_of_mem h), rfl⟩

/-- The plan is one of the declaration, given its table and the plans of nested forms. -/
structure Declaration.IsPlan (d : Declaration) (table : BindingTable)
    (nested : String → Traced Plan) (plan : Plan) : Prop where
  typeName : plan.typeName = d.name
  culture : plan.culture = d.culture
  strategy : d.chooseConstructor = .ok plan.strategy
  dependencies : plan.dependencies = (d.dependencySpecs plan.strategy).map MemberSpec.required
  operations : List.Forall₂ (d.Lowers table nested) d.tagged plan.operations
  distinctDependencies : (plan.dependencies.map Dependency.name).Nodup
  distinctMembers : (plan.operations.map Operation.member).Nodup
  boundFree : ∀ op ∈ plan.operations, op.isBound = true →
    op.member ∉ plan.dependencies.map Dependency.name
  parametersFree : ∀ p ∈ plan.strategy.parameters, p.name ∉ plan.operations.map Operation.member

theorem Declaration.Lowers.member_eq {d : Declaration} {table : BindingTable}
    {nested : String → Traced Plan} {m : MemberDeclaration} {op : Operation}
    (h : d.Lowers table nested m op) : op.member = m.name := by
  cases h <;> rfl

namespace Declaration.Resolves
variable {d : Declaration} {table : BindingTable} {form : ResolvedForm} {specs : List MemberSpec}
  {nested : String → Traced Plan}

theorem bindingLeft_some {name : String} {binding : MemberBinding}
    (h : d.bindingLeft form name = some binding) :
    name ∉ d.dependencyNames form.strategy ∧ Assoc.get? form.bindings name = some binding := by
  unfold bindingLeft at h
  split at h
  · cases h
  · rename_i hFree
    exact ⟨hFree, h⟩

theorem bound_lowered (h : d.Resolves table form specs) {spec : MemberSpec} (hSpec : spec ∈ specs)
    (hBound : spec.isBound = true) {op : Operation}
    (hLower : (spec.lower d.name nested (d.bindingLeft form spec.name)).result = .ok (some op)) :
    ∃ binding, d.bindingLeft form spec.name = some binding ∧
      spec.name ∉ d.dependencyNames form.strategy ∧
        d.resolveMember table spec = .ok (some binding) := by
  cases hLeft : d.bindingLeft form spec.name with
  | none =>
    rw [hLeft, spec.lower_unbound hBound] at hLower
    cases hLower
  | some binding =>
    obtain ⟨hFree, hBinding⟩ := bindingLeft_some hLeft
    exact ⟨binding, rfl, hFree, hBinding ▸ h.bound spec hSpec⟩

theorem lowers (h : d.Resolves table form specs) {m : MemberDeclaration} {spec : MemberSpec}
    {op : Operation} (hSpec : spec ∈ specs) (hSpecifies : m.Specifies spec)
    (hLower : (spec.lower d.name nested (d.bindingLeft form spec.name)).result = .ok (some op)) :
    d.Lowers table nested m op ∧
      (op.isBound = true → m.name ∉ d.dependencyNames form.strategy) ∧
      (op.isStep = false → spec.isPrompted = true) := by
  cases hSpecifies with
  | text options type tags shape scalar =>
    cases hLower
    refine ⟨.text options type tags shape scalar, ?_, fun _ => rfl⟩
    rintro ⟨⟩
  | select options type tags shape noForm =>
    obtain ⟨binding, hLeft, hFree, hBinding⟩ := h.bound_lowered hSpec rfl hLower
    obtain ⟨found, hFound, hEq⟩ := Outcome.map_eq_ok.mp hBinding
    cases hEq
    obtain ⟨-, -, source, converter, -, -, rfl⟩ := resolveSelect_ok hFound
    rw [hLeft] at hLower
    cases hLower
    exact ⟨.select options type tags shape noForm source converter hFound, fun _ => hFree,
      fun _ => rfl⟩
  | step options returns tags shape =>
    obtain ⟨binding, hLeft, hFree, hBinding⟩ := h.bound_lowered hSpec rfl hLower
    obtain ⟨found, hFound, hEq⟩ := Outcome.map_eq_ok.mp hBinding
    cases hEq
    obtain ⟨body, hBody, hFlavour, rfl⟩ := resolveStep_ok hFound
    rw [hLeft] at hLower
    cases hLower
    refine ⟨.step options returns tags shape body hBody hFlavour, fun _ => hFree, ?_⟩
    rintro ⟨⟩
  | nested b tags shape =>
    simp only [MemberSpec.lower, Traced.result_bind] at hLower
    obtain ⟨plan, hPlan, hEq⟩ := Outcome.bind_eq_ok.mp hLower
    cases hEq
    refine ⟨.recurse b tags shape plan hPlan, ?_, fun _ => rfl⟩
    rintro ⟨⟩

theorem lowered_members (h : d.Resolves table form specs) {operations : List Operation}
    (hLowered : List.Forall₂ (fun spec op =>
      (spec.lower d.name nested (d.bindingLeft form spec.name)).result = .ok (some op))
        specs operations) :
    List.Forall₂ (fun m op => d.Lowers table nested m op ∧
      (op.isBound = true → m.name ∉ d.dependencyNames form.strategy) ∧
      ∀ p ∈ form.strategy.parameters, m.name ≠ p.name) d.tagged operations := by
  refine forall₂_comp h.specified hLowered fun m spec hSpec op hSpecifies hMember => ?_
  obtain ⟨hLowers, hFree, hPrompted⟩ := h.lowers hSpec hSpecifies hMember
  refine ⟨hLowers, hFree, fun p hp hName => ?_⟩
  -- The check of parameters is against prompted members only; a step of the name of a parameter
  -- would not have found its binding.
  cases hStep : op.isStep with
  | false =>
    rw [← hSpecifies.name_eq] at hName
    exact h.parametersFree p hp spec hSpec (hPrompted hStep) hName
  | true =>
    refine hFree (Operation.isBound_of_isStep hStep) ?_
    rw [hName]
    exact d.mem_dependencyNames hp

theorem isPlan (h : d.Resolves table form specs) {plan : Plan}
    (hLower : (form.lower nested).result = .ok plan) : d.IsPlan table nested plan := by
  obtain ⟨operations, rfl, hLowered⟩ := h.lower_ok hLower
  have hNames : ((d.dependencySpecs form.strategy).map MemberSpec.required).map Dependency.name =
      d.dependencyNames form.strategy := by
    rw [List.map_map]
    rfl
  have hBoth := h.lowered_members hLowered
  have hMembers : specs.map MemberSpec.name = operations.map Operation.member := by
    rw [← forall₂_map_eq h.specified fun m spec hSpec => hSpec.name_eq.symm,
      forall₂_map_eq hBoth fun m op hOp => hOp.1.member_eq.symm]
  refine {
    typeName := rfl
    culture := rfl
    strategy := h.strategy
    dependencies := rfl
    operations := hBoth.imp fun m op hOp => hOp.1
    distinctDependencies := hNames ▸ h.dependenciesDistinct
    distinctMembers := hMembers ▸ h.distinct
    boundFree := ?_
    parametersFree := ?_ }
  · intro op hOp hIs
    obtain ⟨m, -, hLowers, hFree, -⟩ := forall₂_exists_left hBoth hOp
    rw [hLowers.member_eq, hNames]
    exact hFree hIs
  · rintro p hp hIn
    obtain ⟨op, hOp, hName⟩ := List.mem_map.mp hIn
    obtain ⟨m, -, hLowers, -, hNot⟩ := forall₂_exists_left hBoth hOp
    exact hNot p hp (hLowers.member_eq ▸ hName)

end Declaration.Resolves

end Plans

/-- The second plan is the first or nested in it at any depth. -/
inductive PlanOf.Holds : Plan → Plan → Prop where
  | self (plan : Plan) : Holds plan plan
  | nested {plan inner q : Plan} {member : String} (op : .recurse member inner ∈ plan.operations)
      (rest : Holds inner q) : Holds plan q

theorem PlanOf.forall_holds_iff {P : Plan → Prop} {plan : Plan} :
    (∀ q, plan.Holds q → P q) ↔
      P plan ∧ ∀ member inner, .recurse member inner ∈ plan.operations → ∀ q, inner.Holds q → P q := by
  constructor
  · exact fun h => ⟨h plan (.self plan), fun member inner hOp q hHolds => h q (.nested hOp hHolds)⟩
  · rintro ⟨hSelf, hNested⟩ q hHolds
    cases hHolds with
    | self => exact hSelf
    | nested hOp hRest => exact hNested _ _ hOp q hRest

theorem PlanOf.forall_holds_nested {P : Plan → Prop} {plan : Plan} (h : ∀ q, plan.Holds q → P q)
    {op : Operation} (hOp : op ∈ plan.operations) :
    ∀ member inner, op = .recurse member inner → ∀ q, inner.Holds q → P q := by
  rintro member inner rfl
  exact (forall_holds_iff.mp h).2 member inner hOp

theorem PlanOf.Holds.trans {p q r : Plan} (h : p.Holds q) (hInner : q.Holds r) : p.Holds r := by
  induction h with
  | self => exact hInner
  | nested op _ ih => exact .nested op (ih hInner)

namespace Catalog
variable {c : Catalog} {limit : Nat}

theorem compileBelow_isPlan {room : Nat} {chain : List String} {t : String} {plan : Plan}
    (h : (c.compileBelow limit room chain t).result = .ok plan) :
    ∃ lower d, room = lower + 1 ∧ t ∉ chain ∧ c.declaration? t = some d ∧
      d.IsPlan (c.bindingsOf t) (c.compileBelow limit lower (chain ++ [t])) plan := by
  obtain ⟨lower, d, form, hRoom, hFresh, hDeclared, hResolved, hLower⟩ := compileBelow_lowered h
  obtain ⟨specs, hResolves⟩ := Declaration.resolves_of_resolved hResolved
  exact ⟨lower, d, hRoom, hFresh, hDeclared, hResolves.isPlan hLower⟩

/-- Induction along compilation: over the plans of a catalog, those of nested forms first. -/
theorem compileBelow_induction {P : String → Plan → Prop}
    (plan : ∀ t d (nested : String → Traced Plan) plan, c.declaration? t = some d →
      d.IsPlan (c.bindingsOf t) nested plan →
      (∀ b inner, (nested b).result = .ok inner → P b inner) → P t plan)
    (room : Nat) : ∀ {chain : List String} {t : String} {compiled : Plan},
      (c.compileBelow limit room chain t).result = .ok compiled → P t compiled := by
  induction room with
  | zero =>
    intro chain t compiled h
    obtain ⟨lower, d, hRoom, -⟩ := compileBelow_isPlan h
    cases hRoom
  | succ room ih =>
    intro chain t compiled h
    obtain ⟨lower, d, hRoom, -, hDeclared, hPlan⟩ := compileBelow_isPlan h
    cases hRoom
    exact plan t d _ compiled hDeclared hPlan fun b inner => ih

theorem isPlan_of_compile {t : String} {compiled : Plan}
    (h : (c.compile limit t).result = .ok compiled) : ∀ q, compiled.Holds q →
      ∃ d nested, c.declaration? q.typeName = some d ∧
        d.IsPlan (c.bindingsOf q.typeName) nested q := by
  refine compileBelow_induction (P := fun _ plan => ∀ q, plan.Holds q →
    ∃ d nested, c.declaration? q.typeName = some d ∧
      d.IsPlan (c.bindingsOf q.typeName) nested q) ?_ (limit + 1) h
  intro t d nested plan hDeclared hPlan ih q hHolds
  cases hHolds with
  | self =>
    obtain rfl : plan.typeName = t := hPlan.typeName.trans (name_of_declaration? hDeclared)
    exact ⟨d, nested, hDeclared, hPlan⟩
  | nested hOp hRest =>
    obtain ⟨m, -, hLowers⟩ := forall₂_exists_left hPlan.operations hOp
    cases hLowers with
    | recurse b tags shape inner hInner => exact ih b _ hInner q hRest

end Catalog

section Dependencies

def MemberDeclaration.isUnbound (m : MemberDeclaration) : Bool :=
  m.tags.any fun tag => match tag with
    | .textPrompt _ | .nestedForm => true
    | .selectPrompt _ | .taskStep _ => false

/-- The name is that of a required property without a tag and of another member that is prompted for
as a text or a nested form. -/
def Declaration.PromptsRequired (d : Declaration) (name : String) : Prop :=
  (∃ m ∈ d.members, m.name = name ∧ m.requiredProperty?.isSome = true) ∧
    ∃ m ∈ d.members, m.name = name ∧ m.isUnbound = true

theorem MemberDeclaration.name_of_requiredProperty? {m : MemberDeclaration}
    {property : String × FieldType} (h : m.requiredProperty? = some property) :
    property.1 = m.name := by
  unfold requiredProperty? at h
  split at h
  · obtain ⟨type, -, rfl⟩ := Option.map_eq_some_iff.mp h
    rfl
  · cases h

namespace Declaration.IsPlan
variable {d : Declaration} {table : BindingTable} {nested : String → Traced Plan} {plan : Plan}

theorem mem_dependencies_iff (h : d.IsPlan table nested plan) {name : String} :
    name ∈ plan.dependencies.map Dependency.name ↔
      (∃ p ∈ plan.strategy.parameters, p.name = name) ∨
        ∃ m ∈ d.members, m.name = name ∧ m.requiredProperty?.isSome = true := by
  have hNames : plan.dependencies.map Dependency.name =
      plan.strategy.parameters.map Parameter.name ++ d.requiredProperties.map Prod.fst := by
    rw [h.dependencies, dependencySpecs, List.map_map, List.map_append, List.map_map, List.map_map]
    rfl
  rw [hNames, List.mem_append, List.mem_map, List.mem_map]
  refine or_congr_right ?_
  constructor
  · rintro ⟨property, hProperty, rfl⟩
    obtain ⟨m, hm, hRequired⟩ := List.mem_filterMap.mp hProperty
    refine ⟨m, hm, (MemberDeclaration.name_of_requiredProperty? hRequired).symm, ?_⟩
    rw [hRequired]
    rfl
  · rintro ⟨m, hm, rfl, hRequired⟩
    obtain ⟨property, hProperty⟩ := Option.isSome_iff_exists.mp hRequired
    exact ⟨property, List.mem_filterMap.mpr ⟨m, hm, hProperty⟩,
      MemberDeclaration.name_of_requiredProperty? hProperty⟩

theorem unbound_iff (h : d.IsPlan table nested plan) {name : String} :
    (∃ op ∈ plan.operations, op.member = name ∧ op.isBound = false) ↔
      ∃ m ∈ d.members, m.name = name ∧ m.isUnbound = true := by
  have hSame : ∀ m op, d.Lowers table nested m op → m.isUnbound = !op.isBound := by
    intro m op hLowers
    cases hLowers <;> simp [MemberDeclaration.isUnbound, Operation.isBound, *]
  constructor
  · rintro ⟨op, hOp, rfl, hUnbound⟩
    obtain ⟨m, hm, hLowers⟩ := forall₂_exists_left h.operations hOp
    refine ⟨m, (List.mem_filter.mp hm).1, hLowers.member_eq.symm, ?_⟩
    rw [hSame m op hLowers, hUnbound]
    rfl
  · rintro ⟨m, hm, rfl, hUnbound⟩
    have hTagged : m.isTagged = true := by
      cases hTags : m.tags with
      | nil => simp [MemberDeclaration.isUnbound, hTags] at hUnbound
      | cons tag rest => simp [MemberDeclaration.isTagged, hTags]
    obtain ⟨op, hOp, hLowers⟩ :=
      forall₂_exists_right h.operations (List.mem_filter.mpr ⟨hm, hTagged⟩)
    rw [hSame m op hLowers] at hUnbound
    exact ⟨op, hOp, hLowers.member_eq, by simpa using hUnbound⟩

theorem prompts_dependency_iff (h : d.IsPlan table nested plan) {name : String} :
    name ∈ plan.dependencies.map Dependency.name ∧ name ∈ plan.operations.map Operation.member ↔
      d.PromptsRequired name := by
  rw [PromptsRequired, ← h.unbound_iff]
  constructor
  · rintro ⟨hDependency, hMember⟩
    obtain ⟨op, hOp, rfl⟩ := List.mem_map.mp hMember
    refine ⟨?_, op, hOp, rfl, ?_⟩
    · refine (h.mem_dependencies_iff.mp hDependency).resolve_left ?_
      rintro ⟨p, hp, hName⟩
      exact h.parametersFree p hp (hName ▸ hMember)
    · exact Bool.eq_false_iff.mpr fun hIs => h.boundFree op hOp hIs hDependency
  · rintro ⟨hRequired, op, hOp, rfl, -⟩
    exact ⟨h.mem_dependencies_iff.mpr (.inr hRequired), List.mem_map_of_mem hOp⟩

end Declaration.IsPlan

/-- In every plan of a catalog, nested ones included, the dependencies have distinct names, and one
of them is prompted for exactly if it is a required property beside a text prompt or a nested form of
its name. No prompt and no nested form assigns any other dependency. -/
theorem Catalog.compile_prompts_dependency_iff {c : Catalog} {limit : Nat} {t : String} {plan : Plan}
    (h : (c.compile limit t).result = .ok plan) : ∀ q, plan.Holds q →
      (q.dependencies.map Dependency.name).Nodup ∧
        ∃ d, c.declaration? q.typeName = some d ∧
          (∀ name, name ∈ q.dependencies.map Dependency.name ∧
              name ∈ q.operations.map Operation.member ↔ d.PromptsRequired name) ∧
          ∀ name ∈ q.dependencies.map Dependency.name, ¬ d.PromptsRequired name →
            ∀ op ∈ q.operations, op.isStep = false → ∀ scope inst surface,
              (op.run scope inst surface).inst.get? name = inst.get? name := by
  intro q hHolds
  obtain ⟨d, nested, hDeclared, hPlan⟩ := isPlan_of_compile h q hHolds
  refine ⟨hPlan.distinctDependencies, d, hDeclared, fun name => hPlan.prompts_dependency_iff, ?_⟩
  intro name hName hFree op hOp hStep scope inst surface
  refine Operation.run_get?_of_ne hStep ?_
  rintro rfl
  exact hFree (hPlan.prompts_dependency_iff.mp ⟨hName, List.mem_map_of_mem hOp⟩)

end Dependencies

namespace Sample

/-- An invitation must be given an address, and asks for one. -/
def invite : Declaration :=
  { name := "Invite"
    members := [
      { name := "inviter", shape := .property .text, required := true },
      { name := "email", shape := .property .text, required := true },
      { name := "email", shape := .property .text, tags := [.textPrompt {}] }] }

def team : Declaration :=
  { name := "Team"
    members := [{ name := "invite", shape := .property (.form "Invite"), tags := [.nestedForm] }] }

def invites : Catalog := .ofDeclarations [invite, team]

def askEmail : Operation := .askText "email" "email" .text false {} none

def invitePlan : Plan :=
  ⟨"Invite", none, .default, [⟨"inviter", some .text⟩, ⟨"email", some .text⟩], [askEmail]⟩

def teamPlan : Plan := ⟨"Team", none, .default, [], [.recurse "invite" invitePlan]⟩

theorem inviter_not_prompted :
    (invites.compile 16 "Team").result = .ok teamPlan ∧ teamPlan.Holds invitePlan ∧
      (invitePlan.dependencies.map Dependency.name).Nodup ∧
      ∀ scope inst surface, (askEmail.run scope inst surface).inst.get? "inviter" =
        inst.get? "inviter" := by
  have hCompiled : (invites.compile 16 "Team").result = .ok teamPlan := by cbv
  have hHolds : teamPlan.Holds invitePlan := .nested (List.mem_singleton_self _) (.self _)
  obtain ⟨hNodup, d, hDeclared, -, hKept⟩ := Catalog.compile_prompts_dependency_iff hCompiled
    invitePlan hHolds
  have hInvite : invites.declaration? "Invite" = some invite := by cbv
  obtain rfl : invite = d := Option.some.inj (hInvite.symm.trans hDeclared)
  have hFree : ¬ invite.PromptsRequired "inviter" := by
    have hNone : ∀ m ∈ invite.members, m.name = "inviter" → m.isUnbound = false := by decide
    rintro ⟨-, m, hm, hName, hUnbound⟩
    rw [hNone m hm hName] at hUnbound
    cases hUnbound
  exact ⟨hCompiled, hHolds, hNodup, hKept "inviter" (by decide) hFree askEmail
    (List.mem_singleton_self _) rfl⟩

theorem required_email_prompted :
    (invites.compile 16 "Invite").result = .ok invitePlan ∧
      "email" ∈ invitePlan.dependencies.map Dependency.name ∧
      "email" ∈ invitePlan.operations.map Operation.member ∧
      ∃ supplied final, invitePlan.construct supplied = .ok ⟨"Invite", supplied⟩ ∧
        Assoc.get? supplied "email" = some (.str "ada@example.org") ∧
        (invitePlan.run "1" none ⟨"Invite", supplied⟩ oneAnswer).result = .ok final ∧
        final.get? "email" = some (.str "Elm Street 5") := by
  have hCompiled : (invites.compile 16 "Invite").result = .ok invitePlan := by cbv
  refine ⟨hCompiled, by decide, by decide,
    [("email", .str "ada@example.org"), ("inviter", .str "Ada")], _, rfl, rfl, rfl, rfl⟩

end Sample
end FormFlow
