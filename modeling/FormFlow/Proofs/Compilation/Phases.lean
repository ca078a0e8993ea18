import FormFlow.Compilation
import FormFlow.Nesting
import FormFlow.Proofs.Compilation.Dependencies
/-!
# The phases of compilation

A phase fails only for a defect of the declaration it is given, and the model
that comes out of the phases nests the forms that the tags of the declaration
name. So whatever goes wrong between forms goes wrong where lowering asks for
the plans of nested forms.
-/
namespace FormFlow

/-- The declaration that a defect is about; defects between forms are about none alone. -/
def ModelError.declaration? : ModelError → Option String
  | .duplicateMember form _ | .conflictingTags form _ _ | .invalidMemberType form _ _
  | .unresolvedSource form _ _ | .unresolvedConverter form _ _ | .ambiguousBinding form _ _ _
  | .incompatibleSignature form _ _ _ | .missingImplementation form _ | .ambiguousConstructor form
  | .duplicateDependency form _ | .conflictingDependency form _ => some form
  | .unknownType _ | .cyclicNesting _ | .nestingCycle _ | .nestingTooDeep _ _ _
  | .asyncPlanRequiresAsyncRun _ => none

theorem ModelError.kind_of_declaration? {e : ModelError} {form : String}
    (h : e.declaration? = some form) : e.kind ≠ "CyclicNesting" ∧ e.kind ≠ "UnknownType" := by
  cases e <;> simp [declaration?, kind] at h ⊢

/-- The defect is one of the declaration of that name; an implementation that is missing is not
registered in the table. -/
structure ModelError.FaultOf (form : String) (table : BindingTable) (e : ModelError) : Prop where
  about : e.declaration? = some form
  unregistered : ∀ name, e = .missingImplementation form name → Assoc.get? table name = none

theorem ModelError.FaultOf.unmissed {form : String} {table : BindingTable} {e : ModelError}
    (h : e.declaration? = some form) (hOther : ∀ name, e ≠ .missingImplementation form name) :
    e.FaultOf form table := ⟨h, fun name hEq => absurd hEq (hOther name)⟩

theorem ModelError.FaultOf.missed {form : String} {table : BindingTable} {name : String}
    (h : Assoc.get? table name = none) : (missingImplementation form name).FaultOf form table := by
  refine ⟨rfl, fun other hEq => ?_⟩
  cases hEq
  exact h

def Concerns {α : Type} (form : String) (table : BindingTable) (x : Except ModelError α) : Prop :=
  Outcome.FailsOnly (ModelError.FaultOf form table) x

namespace Concerns
variable {α β : Type} {form : String} {table : BindingTable} {x : Except ModelError α}

theorem ok (a : α) : Concerns form table (.ok a) := Outcome.FailsOnly.ok a

theorem error {e : ModelError} (h : e.FaultOf form table) :
    Concerns form table (.error e : Except ModelError α) := Outcome.FailsOnly.error h

theorem unmissed {e : ModelError} (h : e.declaration? = some form)
    (hOther : ∀ name, e ≠ .missingImplementation form name) :
    Concerns form table (.error e : Except ModelError α) := error (.unmissed h hOther)

theorem bind {f : α → Except ModelError β} (hFirst : Concerns form table x)
    (hNext : ∀ a, x = .ok a → Concerns form table (f a)) : Concerns form table (x >>= f) :=
  Outcome.FailsOnly.bind hFirst hNext

theorem map {f : α → β} (h : Concerns form table x) : Concerns form table (x.map f) :=
  Outcome.FailsOnly.map h

end Concerns

section Extraction

theorem MemberDeclaration.extract_concerns (table : BindingTable) (form : String)
    (seen : List String) (m : MemberDeclaration) : Concerns form table (m.extract form seen) := by
  unfold extract
  split
  · exact .ok _
  · split
    · exact .unmissed rfl (by simp)
    · split
      · exact .ok _
      · exact .unmissed rfl (by simp)
  · exact .unmissed rfl (by simp)

theorem extractAfter_concerns (table : BindingTable) (form : String)
    (members : List MemberDeclaration) :
    ∀ seen, Concerns form table (extractAfter form seen members) := by
  induction members with
  | nil => exact fun seen => .ok _
  | cons m rest ih =>
    intro seen
    unfold extractAfter
    split
    · rename_i e hMember
      exact .error (m.extract_concerns table form seen e hMember)
    · exact ih seen
    · exact (ih _).map

theorem Declaration.extract_concerns (d : Declaration) (table : BindingTable) :
    Concerns d.name table d.extract :=
  (extractAfter_concerns table d.name d.members []).map

def MemberSpec.nestedForm? (m : MemberSpec) : Option String :=
  match m.kind with
  | .nestedForm form => some form
  | _ => none

def Model.nestedForms (m : Model) : List String := m.members.filterMap MemberSpec.nestedForm?

theorem MemberDeclaration.kindOf_nestedForm? {m : MemberDeclaration} {tag : PromptTag}
    {type : Option FieldType} {kind : MemberKind} (hTags : m.tags = [tag])
    (h : m.kindOf tag = .ok (type, kind)) :
    (MemberSpec.mk m.name type kind).nestedForm? = m.nestedForm? := by
  have hTag : .nestedForm ∈ m.tags ↔ tag = .nestedForm := by
    rw [hTags, List.mem_singleton]
    exact eq_comm
  unfold nestedForm?
  unfold kindOf at h
  split at h
  · split at h <;> cases h
    simp [hTag, MemberSpec.nestedForm?]
  · split at h <;> cases h
    simp [hTag, MemberSpec.nestedForm?]
  · rename_i hShape
    split at h <;> cases h
    simp [hTag, MemberSpec.nestedForm?, propertyType?, hShape, FieldType.formName?]
  · cases h
    simp [hTag, MemberSpec.nestedForm?]
  · cases h
  · cases h
  · cases h

theorem MemberDeclaration.extract_nestedForm? {form : String} {seen : List String}
    {m : MemberDeclaration} {spec : Option MemberSpec} (h : m.extract form seen = .ok spec) :
    spec.bind MemberSpec.nestedForm? = m.nestedForm? := by
  unfold extract at h
  split at h
  · rename_i hTags
    cases h
    simp [nestedForm?, hTags]
  · rename_i tag hTags
    split at h
    · cases h
    · split at h
      · rename_i type kind hKind
        cases h
        exact kindOf_nestedForm? hTags hKind
      · cases h
  · cases h

theorem extractAfter_nestedForms {form : String} (members : List MemberDeclaration) :
    ∀ {seen : List String} {specs : List MemberSpec}, extractAfter form seen members = .ok specs →
      specs.filterMap MemberSpec.nestedForm? =
        members.filterMap MemberDeclaration.nestedForm? := by
  induction members with
  | nil =>
    intro seen specs h
    cases h
    rfl
  | cons m rest ih =>
    intro seen specs h
    unfold extractAfter at h
    split at h
    · cases h
    · rename_i hMember
      rw [List.filterMap_cons, ← MemberDeclaration.extract_nestedForm? hMember]
      exact ih h
    · rename_i spec hMember
      obtain ⟨later, hLater, rfl⟩ := Outcome.map_eq_ok.mp h
      have hSpec := MemberDeclaration.extract_nestedForm? hMember
      rw [Option.bind_some] at hSpec
      rw [List.filterMap_cons, List.filterMap_cons, hSpec, ih hLater]

theorem Declaration.extract_ok {d : Declaration} {model : Model} (h : d.extract = .ok model) :
    model.typeName = d.name ∧ model.nestedForms = d.nestedForms := by
  obtain ⟨specs, hMembers, rfl⟩ := Outcome.map_eq_ok.mp h
  exact ⟨rfl, extractAfter_nestedForms d.members hMembers⟩

end Extraction

section Resolution
variable (d : Declaration) (table : BindingTable) (m : MemberSpec)

theorem Declaration.sourceMember_concerns (name : String) :
    Concerns d.name table (d.sourceMember m name) := by
  simp only [sourceMember]
  repeat' split
  all_goals first | exact .ok _ | exact .unmissed rfl (by simp)

theorem Declaration.attachSource_concerns (member : MemberDeclaration) :
    Concerns d.name table (d.attachSource table m member) := by
  unfold attachSource
  split
  · exact .ok _
  · split
    · exact .ok _
    · exact .unmissed rfl (by simp)
    · rename_i hMissing
      exact .error (.missed hMissing)

theorem Declaration.resolveConverter_concerns (element : FieldType) (name : String) :
    Concerns d.name table (d.resolveConverter table m element name) := by
  unfold resolveConverter
  split
  · exact .unmissed rfl (by simp)
  · split
    · exact .unmissed rfl (by simp)
    · split
      · exact .ok _
      · exact .unmissed rfl (by simp)
      · rename_i hMissing
        exact .error (.missed hMissing)
    · exact .unmissed rfl (by simp)

theorem Declaration.resolveStep_concerns (isAsync : Bool) :
    Concerns d.name table (d.resolveStep table m isAsync) := by
  simp only [resolveStep]
  split
  · exact .unmissed rfl (by simp)
  · split
    · split
      · exact .ok _
      · exact .unmissed rfl (by simp)
    · exact .unmissed rfl (by simp)
    · rename_i hMissing
      exact .error (.missed hMissing)

theorem Declaration.resolveSelect_concerns (options : SelectOptions) :
    Concerns d.name table (d.resolveSelect table m options) := by
  refine (d.sourceMember_concerns table m options.source).bind fun found _ => ?_
  refine (d.attachSource_concerns table m found.1).bind fun source _ => ?_
  split
  · exact .ok _
  · exact (d.resolveConverter_concerns table m _ _).bind fun converter _ => .ok _

theorem Declaration.resolveMember_concerns : Concerns d.name table (d.resolveMember table m) := by
  unfold resolveMember
  split
  · exact (d.resolveSelect_concerns table m _).map
  · exact (d.resolveStep_concerns table m _).map
  all_goals exact .ok _

theorem Declaration.resolveAfter_concerns (members : List MemberSpec) :
    ∀ resolved, Concerns d.name table (d.resolveAfter table resolved members) := by
  induction members with
  | nil => exact fun resolved => .ok _
  | cons m rest ih =>
    intro resolved
    unfold resolveAfter
    split
    · rename_i e hMember
      exact .error (d.resolveMember_concerns table m e hMember)
    · exact ih resolved
    · exact ih _

theorem Declaration.resolve_concerns (model : Model) : Concerns d.name table (d.resolve model table) :=
  d.resolveAfter_concerns table model.members []

end Resolution

section Construction

theorem Declaration.chooseConstructor_concerns (d : Declaration) (table : BindingTable) :
    Concerns d.name table d.chooseConstructor := by
  unfold chooseConstructor
  repeat' split
  all_goals first | exact .ok _ | exact .unmissed rfl (by simp)

theorem parameterDependencies_concerns (table : BindingTable) (form : String) (model : Model)
    (parameters : List Parameter) :
    ∀ names, Concerns form table (parameterDependencies form model names parameters) := by
  induction parameters with
  | nil => exact fun names => .ok _
  | cons p rest ih =>
    intro names
    unfold parameterDependencies
    split
    · exact .unmissed rfl (by simp)
    · split
      · exact .unmissed rfl (by simp)
      · exact (ih _).map

theorem propertyDependencies_concerns (table : BindingTable) (form : String)
    (properties : List (String × FieldType)) :
    ∀ names, Concerns form table (propertyDependencies form names properties) := by
  induction properties with
  | nil => exact fun names => .ok _
  | cons property rest ih =>
    intro names
    unfold propertyDependencies
    split
    · exact .unmissed rfl (by simp)
    · exact (ih _).map

theorem Declaration.construct_concerns (d : Declaration) (table : BindingTable) (model : Model) :
    Concerns d.name table (d.construct model) := by
  refine (d.chooseConstructor_concerns table).bind fun strategy _ => ?_
  refine Concerns.bind ?_ fun dependencies _ => .ok _
  refine (parameterDependencies_concerns table d.name model _ _).bind fun ofParameters _ => ?_
  exact (propertyDependencies_concerns table d.name _ _).bind fun ofProperties _ => .ok _

theorem Declaration.construct_ok {d : Declaration} {model full : Model}
    {strategy : ConstructionStrategy} (h : d.construct model = .ok (strategy, full)) :
    ∃ dependencies, (∀ spec ∈ dependencies, spec.isDependency = true) ∧
      full = { model with members := dependencies ++ model.members } := by
  obtain ⟨-, hFull, -⟩ := construct_eq h
  exact ⟨d.dependencySpecs strategy, d.isDependency_dependencySpecs strategy, hFull⟩

theorem Declaration.construct_nestedForms {d : Declaration} {model full : Model}
    {strategy : ConstructionStrategy} (h : d.construct model = .ok (strategy, full)) :
    full.nestedForms = model.nestedForms := by
  obtain ⟨dependencies, hDependencies, rfl⟩ := construct_ok h
  have hNone : dependencies.filterMap MemberSpec.nestedForm? = [] := by
    refine List.filterMap_eq_nil_iff.mpr fun spec hSpec => ?_
    have hDependency := hDependencies spec hSpec
    unfold MemberSpec.isDependency at hDependency
    unfold MemberSpec.nestedForm?
    split at hDependency
    · rename_i hKind
      rw [hKind]
    · cases hDependency
  rw [Model.nestedForms, List.filterMap_append, hNone]
  rfl

end Construction

namespace Declaration

theorem resolved_result (d : Declaration) (table : BindingTable) :
    (d.resolved table).result = d.extract >>= fun model => d.resolve model table >>= fun bindings =>
      d.construct model >>= fun built => .ok ⟨built.2, built.1, bindings⟩ := by
  simp only [resolved, Traced.result_bind, extractTraced, resolveTraced, constructTraced,
    Traced.result_of]
  rfl

theorem resolved_concerns (d : Declaration) (table : BindingTable) :
    Concerns d.name table (d.resolved table).result := by
  rw [resolved_result]
  refine (d.extract_concerns table).bind fun model _ => ?_
  refine (d.resolve_concerns table model).bind fun bindings _ => ?_
  exact (d.construct_concerns table model).bind fun built _ => .ok _

theorem resolved_ok {d : Declaration} {table : BindingTable} {form : ResolvedForm}
    (h : (d.resolved table).result = .ok form) :
    form.model.typeName = d.name ∧ form.model.nestedForms = d.nestedForms := by
  rw [resolved_result] at h
  obtain ⟨model, hModel, h⟩ := Outcome.bind_eq_ok.mp h
  obtain ⟨bindings, hBindings, h⟩ := Outcome.bind_eq_ok.mp h
  obtain ⟨built, hBuilt, h⟩ := Outcome.bind_eq_ok.mp h
  cases h
  obtain ⟨hName, hForms⟩ := extract_ok hModel
  obtain ⟨dependencies, -, hFull⟩ := construct_ok hBuilt
  refine ⟨?_, (construct_nestedForms hBuilt).trans hForms⟩
  rw [hFull]
  exact hName

end Declaration

section Lowering
variable {nested : String → Traced Plan}

theorem MemberSpec.lower_of_plain {form : String} {m : MemberSpec} (h : m.nestedForm? = none)
    (other : String → Traced Plan) (binding : Option MemberBinding) :
    m.lower form other binding = m.lower form nested binding := by
  obtain ⟨name, type, kind⟩ := m
  cases kind with
  | nestedForm b => cases h
  | selectPrompt options => rcases binding with _ | _ | _ <;> rfl
  | taskStep isAsync options => rcases binding with _ | _ | _ <;> rfl
  | textPrompt options => rfl
  | dependency source => rfl

theorem MemberSpec.lower_of_nested {form : String} {m : MemberSpec} {b : String}
    (h : m.nestedForm? = some b) (binding : Option MemberBinding) :
    m.lower form nested binding =
      nested b >>= fun plan => m.lower form (fun _ => pure plan) binding := by
  obtain ⟨name, type, kind⟩ := m
  cases kind with
  | nestedForm b' =>
    obtain rfl : b' = b := Option.some.inj h
    rfl
  | _ => cases h

theorem MemberSpec.lower_result {form : String} {m : MemberSpec} {binding : Option MemberBinding} :
    Outcome.FailsOnly (fun e => e.declaration? = some form)
        (m.lower form nested binding).result ∧ m.nestedForm? = none ∨
      ∃ b, m.nestedForm? = some b ∧ (m.lower form nested binding).result =
        (nested b).result.map fun plan => some (.recurse m.name plan) := by
  unfold lower nestedForm?
  split
  case h_5 form' hKind =>
    right
    refine ⟨form', by rw [hKind], ?_⟩
    rw [Traced.result_bind]
    cases (nested form').result <;> rfl
  all_goals
    left
    first
    | exact ⟨.ok _, by simp only [*]⟩
    | exact ⟨.error rfl, by simp only [*]⟩

theorem lowerMembers_cons {form : String} {bindings : ResolvedBindings} {m : MemberSpec}
    {rest : List MemberSpec} :
    (lowerMembers form nested bindings (m :: rest)).result =
      (m.lower form nested (Assoc.get? bindings m.name)).result >>= fun operation =>
        (lowerMembers form nested (Assoc.erase bindings m.name) rest).result >>= fun lowered =>
          .ok (match operation with
            | some operation => lowered.withOperation operation
            | none => lowered.withDependency ⟨m.name, m.declaredType⟩) := by
  simp only [lowerMembers, Traced.result_bind]
  congr
  funext operation
  cases operation <;> rfl

theorem lowerMembers_ok {form : String} (members : List MemberSpec) :
    ∀ {bindings : ResolvedBindings} {lowered : Lowered},
      (lowerMembers form nested bindings members).result = .ok lowered →
        ∀ b ∈ members.filterMap MemberSpec.nestedForm?, ∃ plan, (nested b).result = .ok plan := by
  induction members with
  | nil => exact fun _ b hForm => absurd hForm List.not_mem_nil
  | cons m rest ih =>
    intro bindings lowered h b hForm
    rw [lowerMembers_cons] at h
    obtain ⟨operation, hMember, h⟩ := Outcome.bind_eq_ok.mp h
    obtain ⟨later, hRest, -⟩ := Outcome.bind_eq_ok.mp h
    rcases m.lower_result with ⟨-, hNone⟩ | ⟨b', hNested, hResult⟩
    · rw [List.filterMap_cons, hNone] at hForm
      exact ih hRest b hForm
    · rw [List.filterMap_cons, hNested] at hForm
      rcases List.mem_cons.mp hForm with rfl | hForm
      · obtain ⟨plan, hPlan, -⟩ := Outcome.map_eq_ok.mp (hResult.symm.trans hMember)
        exact ⟨plan, hPlan⟩
      · exact ih hRest b hForm

theorem lowerMembers_error {form : String} {e : ModelError} (members : List MemberSpec) :
    ∀ {bindings : ResolvedBindings},
      (lowerMembers form nested bindings members).result = .error e →
        e.declaration? = some form ∨
          ∃ b ∈ members.filterMap MemberSpec.nestedForm?, (nested b).result = .error e := by
  induction members with
  | nil =>
    intro bindings h
    cases h
  | cons m rest ih =>
    intro bindings h
    rw [lowerMembers_cons] at h
    rcases Outcome.bind_eq_error.mp h with hMember | ⟨operation, -, h⟩
    · rcases m.lower_result with ⟨hConcerns, -⟩ | ⟨b, hNested, hResult⟩
      · exact .inl (hConcerns e hMember)
      · refine .inr ⟨b, ?_, Outcome.map_eq_error.mp (hResult.symm.trans hMember)⟩
        rw [List.filterMap_cons, hNested]
        exact List.mem_cons_self
    · rcases Outcome.bind_eq_error.mp h with hRest | ⟨later, -, h⟩
      · refine (ih hRest).imp_right ?_
        rintro ⟨b, hForm, hPlan⟩
        refine ⟨b, ?_, hPlan⟩
        rw [List.filterMap_cons]
        split
        · exact hForm
        · exact List.mem_cons_of_mem _ hForm
      · cases h

theorem ResolvedForm.lower_result {f : ResolvedForm} :
    (f.lower nested).result =
      (lowerMembers f.model.typeName nested f.bindings f.model.members).result >>= fun lowered =>
        .ok ⟨f.model.typeName, f.model.culture, f.strategy, lowered.dependencies,
          lowered.operations⟩ := by
  simp only [lower, Traced.result_bind]
  rfl

theorem ResolvedForm.lower_ok {f : ResolvedForm} {plan : Plan}
    (h : (f.lower nested).result = .ok plan) :
    ∀ b ∈ f.model.nestedForms, ∃ inner, (nested b).result = .ok inner := by
  rw [lower_result] at h
  obtain ⟨lowered, hMembers, -⟩ := Outcome.bind_eq_ok.mp h
  exact lowerMembers_ok _ hMembers

theorem ResolvedForm.lower_error {f : ResolvedForm} {e : ModelError}
    (h : (f.lower nested).result = .error e) :
    e.declaration? = some f.model.typeName ∨
      ∃ b ∈ f.model.nestedForms, (nested b).result = .error e := by
  rw [lower_result] at h
  rcases Outcome.bind_eq_error.mp h with hMembers | ⟨lowered, -, h⟩
  · exact lowerMembers_error _ hMembers
  · cases h

end Lowering

theorem Catalog.compileBelow_lowered {c : Catalog} {limit room : Nat} {chain : List String} {t : String}
    {plan : Plan} (h : (c.compileBelow limit room chain t).result = .ok plan) :
    ∃ lower d form, room = lower + 1 ∧ t ∉ chain ∧ c.declaration? t = some d ∧
      (d.resolved (c.bindingsOf t)).result = .ok form ∧
      (form.lower (c.compileBelow limit lower (chain ++ [t]))).result = .ok plan := by
  unfold compileBelow at h
  split at h
  · cases h
  · rename_i hFresh
    split at h
    · cases h
    · rename_i lower
      split at h
      · cases h
      · rename_i d hDeclared
        rw [Traced.result_bind] at h
        obtain ⟨form, hResolved, hLowered⟩ := Outcome.bind_eq_ok.mp h
        exact ⟨lower, d, form, rfl, hFresh, hDeclared, hResolved, hLowered⟩

end FormFlow
