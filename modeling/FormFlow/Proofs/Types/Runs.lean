import FormFlow.Proofs.Compilation.Plans
import FormFlow.Proofs.Types.Values
import Mathlib.Data.List.Permutation
/-!
# Completed runs hold values of the declared types

In a plan without steps each operation assigns its own member, and only that
one. What it assigns is admitted by the declared type of the member: an answer is
read as that type, a chosen candidate comes from a source whose elements the
type accepts, and a nested form leaves an object. The candidates of a list
property are what the property holds at that moment, so the run keeps all
arrays in the properties that serve as sources conforming.
-/
namespace FormFlow

section Specification

namespace Declaration

/-- The declared type of the tagged property of that name. -/
def promptType? (d : Declaration) (name : String) : Option FieldType :=
  (d.tagged.find? fun m => m.name = name).bind MemberDeclaration.propertyType?

/-- Each property that is declared as a list is unset or holds a list of its type. -/
def ListsAdmit (d : Declaration) (fields : Fields) : Prop :=
  ∀ m ∈ d.members, ∀ element, m.shape = .property (.list element) →
    ∀ value, Assoc.get? fields m.name = some value →
      value.isNull = true ∨ (FieldType.list element).admits value = true

/-- The callables that are registered for methods without parameters return only values of the
element type that the method declares. -/
def SourcesConform (d : Declaration) (table : BindingTable) : Prop :=
  ∀ m ∈ d.members, m.isMethod = true → ∀ element, m.sourceElement? = some element →
    ∀ call, Assoc.get? table m.name = some (.source call) →
      ∀ inst items, call inst = .ok items → ∀ item ∈ items, element.admits item = true

end Declaration

def Catalog.SourcesConform (c : Catalog) : Prop :=
  ∀ t d, c.declaration? t = some d → d.SourcesConform (c.bindingsOf t)

mutual
/-- In the objects that a nested form holds, at any depth, the lists are as declared. -/
def Operation.Prepared (c : Catalog) (fields : Fields) : Operation → Prop
  | .recurse member ⟨typeName, _, _, _, operations⟩ =>
    ∀ child, Assoc.get? fields member = some (.obj child) →
      (∀ d, c.declaration? typeName = some d → d.ListsAdmit child) ∧
        Operation.AllPrepared c child operations
  | .askText _ _ _ _ _ _ => True
  | .askSelect _ _ _ _ _ _ => True
  | .runStep _ _ _ _ => True

def Operation.AllPrepared (c : Catalog) (fields : Fields) : List Operation → Prop
  | [] => True
  | op :: rest => Operation.Prepared c fields op ∧ Operation.AllPrepared c fields rest
end

/-- The fields, and the objects held by nested forms, hold lists as they are declared. -/
def PlanOf.Prepared (c : Catalog) (plan : Plan) (fields : Fields) : Prop :=
  (∀ d, c.declaration? plan.typeName = some d → d.ListsAdmit fields) ∧
    Operation.AllPrepared c fields plan.operations

mutual
/-- The member of a prompt holds a value of its declared type, and that of a nested form an object
of which the same holds. -/
def Operation.Populated (c : Catalog) (d : Declaration) (fields : Fields) : Operation → Prop
  | .askText member _ type _ _ _ => d.promptType? member = some type ∧
    ∃ value, Assoc.get? fields member = some value ∧ type.admits value = true
  | .askSelect member _ _ _ _ _ => ∃ type, d.promptType? member = some type ∧
    ∃ value, Assoc.get? fields member = some value ∧ type.admits value = true
  | .recurse member ⟨typeName, _, _, _, operations⟩ =>
    ∃ child, Assoc.get? fields member = some (.obj child) ∧
      ∃ d', c.declaration? typeName = some d' ∧ Operation.AllPopulated c d' child operations
  | .runStep _ _ _ _ => True

def Operation.AllPopulated (c : Catalog) (d : Declaration) (fields : Fields) : List Operation → Prop
  | [] => True
  | op :: rest => Operation.Populated c d fields op ∧ Operation.AllPopulated c d fields rest
end

/-- All members that the plan asks for, at any depth, hold values of their declared types. -/
def PlanOf.Populated (c : Catalog) (plan : Plan) (fields : Fields) : Prop :=
  ∃ d, c.declaration? plan.typeName = some d ∧ Operation.AllPopulated c d fields plan.operations

/-- No operation of the plan, or of a plan nested in it, is a step. -/
def PlanOf.Stepless (plan : Plan) : Prop :=
  ∀ q, plan.Holds q → ∀ op ∈ q.operations, op.isStep = false

end Specification

section Fields
variable {c : Catalog} {d : Declaration} {fields other : Fields}

namespace Operation

theorem prepared_recurse {member : String} {plan : Plan} :
    (recurse member plan).Prepared c fields ↔
      ∀ child, Assoc.get? fields member = some (.obj child) → plan.Prepared c child := by
  cases plan
  simp only [Prepared, PlanOf.Prepared]

theorem populated_recurse {member : String} {plan : Plan} :
    (recurse member plan).Populated c d fields ↔
      ∃ child, Assoc.get? fields member = some (.obj child) ∧ plan.Populated c child := by
  cases plan
  simp only [Populated, PlanOf.Populated]

theorem Prepared.congr {op : Operation} (h : op.Prepared c fields)
    (hSame : Assoc.get? other op.member = Assoc.get? fields op.member) : op.Prepared c other := by
  cases op with
  | recurse member plan =>
    rw [prepared_recurse] at h ⊢
    exact fun child hChild => h child (hSame ▸ hChild)
  | _ => simp only [Prepared]

theorem Populated.congr {op : Operation} (h : op.Populated c d fields)
    (hSame : Assoc.get? other op.member = Assoc.get? fields op.member) :
    op.Populated c d other := by
  simp only [member] at hSame
  cases op with
  | askText member title type secret search culture =>
    simp only [Populated] at h ⊢
    rwa [hSame]
  | askSelect member title source converter search culture =>
    simp only [Populated] at h ⊢
    rwa [hSame]
  | recurse member plan =>
    rw [populated_recurse] at h ⊢
    rwa [hSame]
  | runStep member isAsync status body => simp only [Populated]

theorem AllPrepared.congr {ops : List Operation} (h : AllPrepared c fields ops)
    (hSame : ∀ op ∈ ops, Assoc.get? other op.member = Assoc.get? fields op.member) :
    AllPrepared c other ops := by
  induction ops with
  | nil => simp only [AllPrepared]
  | cons op rest ih =>
    simp only [AllPrepared] at h ⊢
    obtain ⟨hHead, hTail⟩ := List.forall_mem_cons.mp hSame
    exact ⟨h.1.congr hHead, ih h.2 hTail⟩

theorem allPrepared_nil (ops : List Operation) : AllPrepared c [] ops := by
  induction ops with
  | nil => simp only [AllPrepared]
  | cons op rest ih =>
    simp only [AllPrepared]
    refine ⟨?_, ih⟩
    cases op with
    | recurse member plan =>
      rw [prepared_recurse]
      rintro child ⟨⟩
    | _ => simp only [Prepared]

end Operation

theorem PlanOf.prepared_nil (plan : Plan) : plan.Prepared c [] := by
  refine ⟨fun d _ m _ element _ value hValue => ?_, Operation.allPrepared_nil _⟩
  cases hValue

theorem PlanOf.prepared_nestedInstance {plan : Plan} {path member : String} {inst child : Instance}
    (h : (Operation.recurse member plan).Prepared c inst.fields)
    (hChild : plan.nestedInstance path (inst.get? member) = .ok child) :
    plan.Prepared c child.fields := by
  rw [Operation.prepared_recurse] at h
  unfold PlanOf.nestedInstance at hChild
  split at hChild
  · rename_i held hHeld
    cases hChild
    exact h held hHeld
  · split at hChild <;> cases hChild
    exact plan.prepared_nil
  · split at hChild <;> cases hChild
    exact plan.prepared_nil
  · cases hChild

namespace PlanOf.Stepless
variable {plan inner : Plan} {member : String}

theorem operation (h : plan.Stepless) {op : Operation} (hOp : op ∈ plan.operations) :
    op.isStep = false := h plan (.self plan) op hOp

theorem nested (h : plan.Stepless) (hOp : .recurse member inner ∈ plan.operations) :
    inner.Stepless := fun q hHolds => h q (.nested hOp hHolds)

end PlanOf.Stepless

end Fields

section Sources
variable {d : Declaration} {table : BindingTable}

theorem MemberDeclaration.shape_of_source {m : MemberDeclaration} {element : FieldType}
    (hElement : m.sourceElement? = some element) (hProperty : m.isMethod = false) :
    m.shape = .property (.list element) := by
  unfold sourceElement? at hElement
  split at hElement
  · rename_i hShape
    cases hElement
    exact hShape
  · cases hElement
  · rename_i hShape
    simp [isMethod, hShape] at hProperty
  · cases hElement

/-- An array in a property that is the only source of its name is of the declared type. -/
def Declaration.ArraysAdmit (d : Declaration) (fields : Fields) : Prop :=
  ∀ name m element, d.SoleSource name m element → m.isMethod = false →
    ∀ items, Assoc.get? fields name = some (.arr items) → ∀ item ∈ items, element.admits item = true

theorem Declaration.ListsAdmit.arraysAdmit {fields : Fields} (h : d.ListsAdmit fields) :
    d.ArraysAdmit fields := by
  intro name m element hSole hProperty items hItems
  obtain ⟨hMem, rfl, hElement⟩ := hSole.mem
  have hShape := m.shape_of_source hElement hProperty
  rcases h m hMem element hShape _ hItems with hNull | hAdmits
  · cases hNull
  · obtain ⟨items', hEq, hAll⟩ := FieldType.admits_list_iff.mp hAdmits
    cases hEq
    exact hAll

/-- A value of the declared type of a property keeps the arrays conforming: if the property is a
source as well, it is the one that the value is declared for. -/
theorem Declaration.ArraysAdmit.insert {fields : Fields} (h : d.ArraysAdmit fields)
    {m : MemberDeclaration} (hMem : m ∈ d.members) {type : FieldType}
    (hShape : m.shape = .property type) {value : Json} (hAdmits : type.admits value = true) :
    d.ArraysAdmit (Assoc.insert fields m.name value) := by
  intro name source element hSole hProperty items hItems
  by_cases hName : name = m.name
  · subst hName
    rw [Assoc.get?_insert_self] at hItems
    cases hItems
    obtain ⟨element', rfl, hAll⟩ := FieldType.admits_arr_iff.mp hAdmits
    have hElement : m.sourceElement? = some element' := by
      simp only [MemberDeclaration.sourceElement?, hShape]
    obtain ⟨-, rfl⟩ := hSole.iff_of_mem.mp ⟨hMem, rfl, hElement⟩
    exact hAll
  · rw [Assoc.get?_insert_of_ne _ _ hName] at hItems
    exact h name source element hSole hProperty items hItems

theorem Source.fetch_property {name : String} {inst : Instance} {candidates : List Json}
    (h : (Source.property name).fetch inst = .ok candidates) :
    candidates = [] ∨ inst.get? name = some (.arr candidates) := by
  simp only [fetch] at h
  split at h
  · cases h
    exact .inl rfl
  · cases h
    exact .inl rfl
  · rename_i items hItems
    cases h
    exact .inr hItems
  · cases h

theorem Declaration.candidates_admit (hSources : d.SourcesConform table) {m : MemberSpec}
    {type : FieldType} (hType : m.declaredType = some type) {options : SelectOptions}
    {source : Source} {converter : Option Converter}
    (hResolved : d.resolveSelect table m options = .ok (.select source converter)) {inst : Instance}
    (hArrays : d.ArraysAdmit inst.fields) {candidates : List Json}
    (hFetch : source.fetch inst = .ok candidates) : ∀ value ∈ candidates, type.admits value = true := by
  obtain ⟨member, element, found, _, hMember, hAttached, hEq⟩ := resolveSelect_ok hResolved
  cases hEq
  obtain ⟨hSole, hAccepts⟩ := sourceMember_ok hType hMember
  obtain ⟨hMem, hName, hElement⟩ := hSole.mem
  -- The member may be declared wider than the elements: a decimal accepts integers.
  suffices hAll : ∀ value ∈ candidates, element.admits value = true from
    fun value hValue => FieldType.admits_of_accepts hAccepts (hAll value hValue)
  simp only [attachSource] at hAttached
  split at hAttached
  · rename_i hShape
    cases hAttached
    rcases Source.fetch_property hFetch with rfl | hHeld
    · exact fun value hValue => absurd hValue List.not_mem_nil
    · refine hArrays _ member element hSole ?_ candidates (hName ▸ hHeld)
      simp only [MemberDeclaration.isMethod, hShape]
  · rename_i hShape
    split at hAttached
    · rename_i call hCall
      cases hAttached
      refine hSources member hMem ?_ element hElement call hCall inst candidates hFetch
      simp only [MemberDeclaration.isMethod, hShape]
    · cases hAttached
    · cases hAttached

end Sources

section Runs
variable {c : Catalog} {d : Declaration} {table : BindingTable} {nested : String → Traced Plan}

def PlanOf.Sound (c : Catalog) (plan : Plan) : Prop :=
  plan.Stepless → ∀ scope inst surface, plan.Prepared c inst.fields →
    (Operation.runAll plan.operations scope inst surface).halt = none →
      plan.Populated c (Operation.runAll plan.operations scope inst surface).inst.fields

theorem Declaration.Lowers.finished (hSources : d.SourcesConform table)
    (hNested : ∀ b inner, (nested b).result = .ok inner → inner.Sound c) {m : MemberDeclaration}
    {op : Operation} (hLowers : d.Lowers table nested m op)
    (hType : d.promptType? m.name = m.propertyType?) (hStep : op.isStep = false)
    (hStepless : ∀ member inner, op = .recurse member inner → inner.Stepless) {scope : Scope}
    {inst : Instance} {surface : Surface} (hArrays : d.ArraysAdmit inst.fields)
    (hPrepared : op.Prepared c inst.fields) (hHalt : (op.run scope inst surface).halt = none) :
    ∃ type value, m.shape = .property type ∧ type.admits value = true ∧
      (op.run scope inst surface).inst = inst.set m.name value ∧
      op.Populated c d (inst.set m.name value).fields := by
  have hHeld (value : Json) : Assoc.get? (inst.set m.name value).fields m.name = some value :=
    Assoc.get?_insert_self _ _ _
  cases hLowers with
  | text options type tags shape scalar =>
    simp only [Operation.run] at hHalt ⊢
    obtain ⟨answer, value, hValue, hInst⟩ := scope.askText_finished inst surface m.name hHalt
    have hAdmits := coerce_admits hValue
    refine ⟨type, value, shape, hAdmits, hInst, ?_⟩
    simp only [Operation.Populated, hType, MemberDeclaration.propertyType?, shape, true_and]
    exact ⟨value, hHeld value, hAdmits⟩
  | select options type tags shape noForm source converter resolved =>
    simp only [Operation.run] at hHalt ⊢
    obtain ⟨candidates, hFetch, chosen, hChosen, hInst⟩ :=
      scope.askSelect_finished inst surface m.name hHalt
    have hAdmits := candidates_admit hSources rfl resolved hArrays hFetch chosen hChosen
    refine ⟨type, chosen, shape, hAdmits, hInst, ?_⟩
    simp only [Operation.Populated, hType, MemberDeclaration.propertyType?, shape]
    exact ⟨type, rfl, chosen, hHeld chosen, hAdmits⟩
  | step options returns tags shape body registered flavour => cases hStep
  | recurse b tags shape inner compiled =>
    cases hChild : inner.nestedInstance (joinPath scope.path m.name) (inst.get? m.name) with
    | error error =>
      rw [Operation.run_recurse_error hChild] at hHalt
      cases hHalt
    | ok child =>
      rw [Operation.run_recurse_ok hChild] at hHalt ⊢
      obtain ⟨hInner, hInst⟩ := Trail.nest_finished hHalt
      refine ⟨_, _, shape, rfl, hInst, ?_⟩
      rw [Operation.populated_recurse]
      exact ⟨_, hHeld _, hNested b inner compiled (hStepless _ inner rfl) _ child surface
        (PlanOf.prepared_nestedInstance hPrepared hChild) hInner⟩

theorem Declaration.runAll_populated (hSources : d.SourcesConform table)
    (hNested : ∀ b inner, (nested b).result = .ok inner → inner.Sound c) {scope : Scope}
    {members : List MemberDeclaration} {ops : List Operation}
    (hLowers : List.Forall₂ (d.Lowers table nested) members ops) :
    (∀ m ∈ members, m ∈ d.members ∧ d.promptType? m.name = m.propertyType?) →
    (ops.map Operation.member).Nodup → (∀ op ∈ ops, op.isStep = false) →
    (∀ member inner, .recurse member inner ∈ ops → inner.Stepless) →
    ∀ inst surface, d.ArraysAdmit inst.fields → Operation.AllPrepared c inst.fields ops →
      (Operation.runAll ops scope inst surface).halt = none →
        Operation.AllPopulated c d (Operation.runAll ops scope inst surface).inst.fields ops := by
  -- Later operations start on the instance that the earlier ones leave, so what is carried along
  -- the list is that its arrays conform and that the nested forms still to run are prepared.
  induction hLowers with
  | nil =>
    intro _ _ _ _ inst surface _ _ _
    simp only [Operation.AllPopulated]
  | @cons m op members rest hHead hRest ih =>
    intro hMembers hNodup hSteps hStepless inst surface hArrays hPrepared hHalt
    obtain ⟨⟨hMem, hType⟩, hMembers⟩ := List.forall_mem_cons.mp hMembers
    obtain ⟨hStep, hSteps⟩ := List.forall_mem_cons.mp hSteps
    obtain ⟨hOther, hNodup⟩ := nodup_map_cons.mp hNodup
    simp only [Operation.AllPrepared] at hPrepared
    obtain ⟨hFirst, later, hLater, hLaterHalt, hInst⟩ := Operation.runAll_completed hHalt
    obtain ⟨type, value, hShape, hAdmits, hAssigned, hPopulated⟩ :=
      hHead.finished hSources hNested hType hStep
        (fun member inner hOp => hStepless member inner (hOp ▸ List.mem_cons_self))
        hArrays hPrepared.1 hFirst
    rw [hAssigned] at hLater
    subst hLater
    rw [hInst]
    simp only [Operation.AllPopulated]
    refine ⟨hPopulated.congr (Operation.runAll_get?_of_ne hSteps hOther _ _), ?_⟩
    refine ih hMembers hNodup hSteps (fun member inner hOp => hStepless member inner
      (List.mem_cons_of_mem _ hOp)) _ _ (hArrays.insert hMem hShape hAdmits)
      (hPrepared.2.congr fun other hIn => ?_) hLaterHalt
    exact inst.get?_set_of_ne value (hHead.member_eq ▸ hOther other hIn)

theorem Declaration.IsPlan.sound {plan : Plan} (hPlan : d.IsPlan table nested plan)
    (hDeclared : c.declaration? plan.typeName = some d) (hSources : d.SourcesConform table)
    (hNested : ∀ b inner, (nested b).result = .ok inner → inner.Sound c) : plan.Sound c := by
  intro hStepless scope inst surface hPrepared hHalt
  obtain ⟨hLists, hForms⟩ := hPrepared
  have hDistinct : (d.tagged.map MemberDeclaration.name).Nodup := by
    have hNames : d.tagged.map MemberDeclaration.name = plan.operations.map Operation.member :=
      forall₂_map_eq hPlan.operations fun m op hOp => hOp.member_eq.symm
    rw [hNames]
    exact hPlan.distinctMembers
  refine ⟨d, hDeclared, d.runAll_populated hSources hNested hPlan.operations (fun m hm => ⟨?_, ?_⟩)
    hPlan.distinctMembers (fun op => hStepless.operation) (fun member inner => hStepless.nested)
    inst surface (hLists d hDeclared).arraysAdmit hForms hHalt⟩
  · exact (List.mem_filter.mp hm).1
  · rw [promptType?, find?_of_nodup hDistinct hm, Option.bind_some]

theorem Catalog.sound_of_compile {limit : Nat} {t : String} {plan : Plan}
    (hSources : c.SourcesConform) (h : (c.compile limit t).result = .ok plan) : plan.Sound c := by
  refine compileBelow_induction (P := fun _ plan => plan.Sound c) ?_ (limit + 1) h
  intro t d nested plan hDeclared hPlan ih
  have hName : plan.typeName = t := hPlan.typeName.trans (name_of_declaration? hDeclared)
  exact hPlan.sound (hName ▸ hDeclared) (hSources t d hDeclared) ih

/-- A run of a plan without steps that completes leaves each member that is asked for with a value of
its declared type, and each nested form with an object of which the same holds, if the sources
return values of their element types and the lists given are of the declared types. -/
theorem Catalog.completed_run_populated {limit : Nat} {t : String} {plan : Plan}
    (hCompiled : (c.compile limit t).result = .ok plan) (hStepless : plan.Stepless)
    (hSources : c.SourcesConform) (runId : String) (culture : Option String) (inst : Instance)
    (surface : Surface) (hPrepared : plan.Prepared c inst.fields) {final : Instance}
    (hCompleted : (plan.run runId culture inst surface).result = .ok final) :
    plan.Populated c final.fields := by
  rw [PlanOf.run_result, Trail.failure?] at hCompleted
  cases hHalt : (plan.trail runId culture inst surface).halt with
  | none =>
    rw [hHalt] at hCompleted
    cases hCompleted
    exact sound_of_compile hSources hCompiled hStepless _ inst surface hPrepared hHalt
  | some halt =>
    rw [hHalt] at hCompleted
    cases halt <;> cases hCompleted

end Runs

namespace Sample

def payment : Declaration :=
  { name := "Payment"
    members := [
      { name := "amounts", shape := .property (.list .integer) },
      { name := "currencies", shape := .method [] (.sequence .text) },
      { name := "amount", shape := .property .decimal, tags := [.selectPrompt { source := "amounts" }] },
      { name := "currency", shape := .property .text,
        tags := [.selectPrompt { source := "currencies" }] },
      { name := "payee", shape := .property (.form "Payee"), tags := [.nestedForm] }] }

def payee : Declaration :=
  { name := "Payee"
    members := [{ name := "age", shape := .property .integer, tags := [.textPrompt {}] }] }

def currencies (_ : Instance) : Except StepError (List Json) := .ok [.str "EUR", .str "CHF"]

def payments : Catalog :=
  (Catalog.ofDeclarations [payment, payee]).bind "Payment" [("currencies", .source currencies)]

def payeePlan : Plan := ⟨"Payee", none, .default, [], [.askText "age" "age" .integer false {} none]⟩

def paymentPlan : Plan :=
  ⟨"Payment", none, .default, [], [
    .askSelect "amount" "amount" (.property "amounts") none {} none,
    .askSelect "currency" "currency" (.method "currencies" currencies) none {} none,
    .recurse "payee" payeePlan]⟩

def chosen (index : Nat) : Answer := .finished false () ⟨.error .cancelled, .ok index⟩

theorem payments_conform : payments.SourcesConform := by
  intro t d hDeclared m hm hMethod element hElement call hCall inst items hItems item hItem
  obtain rfl := Catalog.name_of_declaration? hDeclared
  have hTypes : payments.all = [payee, payment] := by cbv
  have hMem : d ∈ payments.all := Catalog.mem_all_iff.mpr hDeclared
  rw [hTypes, List.mem_cons, List.mem_singleton] at hMem
  obtain rfl | rfl := hMem
  · have hNone : ∀ m ∈ payee.members, m.isMethod = false := by decide
    rw [hNone m hm] at hMethod
    cases hMethod
  · have hOne : ∀ m ∈ payment.members, m.isMethod = true →
        m.name = "currencies" ∧ m.sourceElement? = some .text := by decide
    obtain ⟨hName, hText⟩ := hOne m hm hMethod
    cases hText.symm.trans hElement
    rw [hName] at hCall
    cases hCall
    cases hItems
    have hTexts : ∀ item ∈ [Json.str "EUR", Json.str "CHF"], FieldType.text.admits item = true := by
      simp [FieldType.admits]
    exact hTexts item hItem

theorem paymentPlan_stepless : paymentPlan.Stepless := by
  have hPayee : ∀ q, payeePlan.Holds q → ∀ op ∈ q.operations, op.isStep = false := by
    rw [PlanOf.forall_holds_iff]
    simp [payeePlan, Operation.isStep]
  rw [PlanOf.Stepless, PlanOf.forall_holds_iff]
  refine ⟨by simp [paymentPlan, Operation.isStep], fun member inner hOp => ?_⟩
  obtain ⟨-, rfl⟩ : member = "payee" ∧ inner = payeePlan := by simpa [paymentPlan] using hOp
  exact hPayee

def amounts : Fields := [("amounts", .arr [.int 10, .int 20])]

theorem amounts_prepared : paymentPlan.Prepared payments amounts := by
  refine ⟨fun d hDeclared m hm element hShape value hValue => ?_, ?_⟩
  · have hPayment : payments.declaration? "Payment" = some payment := by cbv
    obtain rfl : payment = d := Option.some.inj (hPayment.symm.trans hDeclared)
    have hOne : ∀ m ∈ payment.members, ∀ element, m.shape = .property (.list element) →
        m.name = "amounts" ∧ element = .integer := by simp [payment]
    obtain ⟨hName, rfl⟩ := hOne m hm element hShape
    rw [hName] at hValue
    cases hValue
    exact .inr (by simp [FieldType.admits])
  · simp only [paymentPlan, Operation.AllPrepared, Operation.prepared_recurse]
    simp [Operation.Prepared, amounts, Assoc.get?]

theorem payment_populated :
    let ran := paymentPlan.run "1" none ⟨"Payment", amounts⟩
      ⟨[chosen 1, chosen 0, text " 36 "], .cancelled, false⟩
    ∃ final, ran.result = .ok final ∧ final.get? "amount" = some (.int 20) ∧
      paymentPlan.Populated payments final.fields := by
  intro ran
  have hCompiled : (payments.compile 16 "Payment").result = .ok paymentPlan := by cbv
  have hRan : ran.result = .ok ⟨"Payment", [("amount", .int 20), ("amounts", .arr [.int 10, .int 20]),
      ("currency", .str "EUR"), ("payee", .obj [("age", .int 36)])]⟩ := rfl
  exact ⟨_, hRan, rfl, Catalog.completed_run_populated hCompiled paymentPlan_stepless
    payments_conform _ _ _ _ amounts_prepared hRan⟩

end Sample
end FormFlow
