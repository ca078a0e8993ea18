import FormFlow.Proofs.Compilation.Bindings
import FormFlow.Proofs.Compilation.Context
/-!
# Well-formed plans

Extraction lets a text prompt through for a scalar only, the callables of a
select or step member are found under its name in a table of bindings, and the
model is built anew between that and lowering. What lowering makes of it still
fits: each operation of a plan has a member of its own, and what it runs with is
what this member was resolved to.
-/
namespace FormFlow

/-- The operation has what it runs with from the member of its own name. -/
inductive Declaration.Supports (d : Declaration) (table : BindingTable) (model : Model)
    (bindings : ResolvedBindings) : Operation → Prop
  | text {member title : String} {type : FieldType} {secret : Bool} {search : SearchOptions}
      {culture : Option String} (scalar : type.isScalar = true) :
      d.Supports table model bindings (.askText member title type secret search culture)
  | select {m : MemberSpec} {title : String} {source : Source} {converter : Option Converter}
      {search : SearchOptions} {culture : Option String} (listed : m ∈ model.members)
      (binds : d.Binds table m (.select source converter))
      (entry : Assoc.get? bindings m.name = some (.select source converter)) :
      d.Supports table model bindings (.askSelect m.name title source converter search culture)
  | step {member : String} {isAsync : Bool} {status : StepOptions} {body : StepBody}
      (registered : Assoc.get? table member = some (.step body)) :
      d.Supports table model bindings (.runStep member isAsync status body)
  | nested {member : String} {plan : Plan} :
      d.Supports table model bindings (.recurse member plan)

structure PlanOf.WellFormed (c : Catalog) (plan : Plan) : Prop where
  distinct : (plan.operations.map Operation.member).Nodup
  supported : ∃ d model bindings, c.declaration? plan.typeName = some d ∧
    d.extract = .ok model ∧ d.resolve model (c.bindingsOf plan.typeName) = .ok bindings ∧
      ∀ op ∈ plan.operations, d.Supports (c.bindingsOf plan.typeName) model bindings op

section Members
variable {d : Declaration} {table : BindingTable} {nested : String → Traced Plan} {model : Model}
  {bindings : ResolvedBindings}

theorem Declaration.select_listed (hModel : d.extract = .ok model) {m : MemberDeclaration}
    (hTagged : m ∈ d.tagged) {options : SelectOptions} {type : FieldType}
    (hTags : m.tags = [.selectPrompt options]) (hShape : m.shape = .property type) :
    ⟨m.name, some type, .selectPrompt options⟩ ∈ model.members := by
  obtain ⟨spec, hSpec, hSpecifies⟩ := forall₂_exists_right (extract_members hModel).1 hTagged
  cases hSpecifies with
  | select options' type' tags shape =>
    cases hTags.symm.trans tags
    cases hShape.symm.trans shape
    exact hSpec
  | text options' type' tags => cases hTags.symm.trans tags
  | step options' returns tags => cases hTags.symm.trans tags
  | nested form tags => cases hTags.symm.trans tags

theorem Declaration.Lowers.supported (hModel : d.extract = .ok model)
    (hBindings : d.resolve model table = .ok bindings) {m : MemberDeclaration} (hTagged : m ∈ d.tagged)
    {op : Operation} (h : d.Lowers table nested m op) : d.Supports table model bindings op := by
  cases h with
  | text options type tags shape scalar => exact .text scalar
  | select options type tags shape noForm source converter resolved =>
    have hListed := select_listed hModel hTagged tags shape
    obtain ⟨binding, hEntry, hBinds⟩ := resolve_entry hModel hBindings hListed rfl
    have hMember := hBinds.resolveMember
    simp only [resolveMember, resolved, Except.map] at hMember
    cases hMember
    exact .select hListed hBinds hEntry
  | step options returns tags shape body registered flavour => exact .step registered
  | recurse form tags shape plan compiled => exact .nested

end Members

namespace Catalog
variable {c : Catalog} {limit : Nat}

theorem wellFormed_of_compile {t : String} {plan : Plan} (h : (c.compile limit t).result = .ok plan) :
    plan.WellFormed c := by
  obtain rfl := compile_typeName h
  obtain ⟨lower, d, form, -, -, hDeclared, hResolved, hLower⟩ := compileBelow_lowered h
  obtain ⟨model, hModel, hBindings, hResolves⟩ := Declaration.resolved_resolves hResolved
  have hPlan := hResolves.isPlan hLower
  refine ⟨hPlan.distinctMembers, d, model, form.bindings, hDeclared, hModel, hBindings, ?_⟩
  intro op hOp
  obtain ⟨m, hTagged, hLowers⟩ := forall₂_exists_left hPlan.operations hOp
  exact hLowers.supported hModel hBindings hTagged

end Catalog
end FormFlow
