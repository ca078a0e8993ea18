import FormFlow.Proofs.Compilation.Phases
import Mathlib.Data.List.Forall2
/-!
# Members of a form

What extraction and resolution make of the members of one
declaration when they succeed: the tagged members become specifications with
names of their own, and each select and step member finds its binding.
-/
namespace FormFlow

section Pairs
variable {α β : Type} {R : α → β → Prop} {xs : List α} {ys : List β}

theorem forall₂_exists_right (h : List.Forall₂ R xs ys) {x : α} (hx : x ∈ xs) : ∃ y ∈ ys, R x y := by
  induction h with
  | nil => exact absurd hx List.not_mem_nil
  | cons hHead _ ih =>
    rcases List.mem_cons.mp hx with rfl | hx
    · exact ⟨_, List.mem_cons_self, hHead⟩
    · obtain ⟨y, hy, hRest⟩ := ih hx
      exact ⟨y, List.mem_cons_of_mem _ hy, hRest⟩

theorem forall₂_exists_left (h : List.Forall₂ R xs ys) {y : β} (hy : y ∈ ys) : ∃ x ∈ xs, R x y :=
  forall₂_exists_right h.flip hy

theorem forall₂_comp {γ : Type} {S : β → γ → Prop} {T : α → γ → Prop} {zs : List γ}
    (hFirst : List.Forall₂ R xs ys) (hSecond : List.Forall₂ S ys zs)
    (h : ∀ x, ∀ y ∈ ys, ∀ z, R x y → S y z → T x z) : List.Forall₂ T xs zs := by
  induction hFirst generalizing zs with
  | nil =>
    cases hSecond
    exact .nil
  | cons hHead _ ih =>
    cases hSecond with
    | cons hNext hRest =>
      obtain ⟨hThis, hOthers⟩ := List.forall_mem_cons.mp fun y hy x z => h x y hy z
      exact .cons (hThis _ _ hHead hNext) (ih hRest fun x y hy z => hOthers y hy x z)

theorem forall₂_map_eq {γ : Type} {f : α → γ} {g : β → γ} (h : List.Forall₂ R xs ys)
    (hEq : ∀ x y, R x y → f x = g y) : xs.map f = ys.map g := by
  rw [← List.forall₂_eq_eq_eq]
  exact List.rel_map hEq h

end Pairs

theorem find?_of_nodup {α : Type} {name : α → String} {xs : List α} (hNodup : (xs.map name).Nodup)
    {x : α} (hx : x ∈ xs) : xs.find? (fun y => name y = name x) = some x := by
  obtain ⟨before, after, rfl⟩ := List.append_of_mem hx
  rw [List.map_append, List.map_cons] at hNodup
  have hBefore : before.find? (fun y => name y = name x) = none := by
    refine List.find?_eq_none.mpr fun y hy hName => ?_
    have hIn : name x ∈ before.map name := List.mem_map.mpr ⟨y, hy, of_decide_eq_true hName⟩
    exact (List.nodup_append.mp hNodup).2.2 _ hIn _ List.mem_cons_self rfl
  rw [List.find?_append, hBefore, Option.none_or]
  exact List.find?_cons_of_pos (decide_eq_true rfl)

def MemberDeclaration.isTagged (m : MemberDeclaration) : Bool := !m.tags.isEmpty

def Declaration.tagged (d : Declaration) : List MemberDeclaration :=
  d.members.filter MemberDeclaration.isTagged

inductive MemberDeclaration.Specifies (m : MemberDeclaration) : MemberSpec → Prop where
  | text (options : TextOptions) (type : FieldType) (tags : m.tags = [.textPrompt options])
      (shape : m.shape = .property type) (scalar : type.isScalar = true) :
      m.Specifies ⟨m.name, some type, .textPrompt options⟩
  | select (options : SelectOptions) (type : FieldType) (tags : m.tags = [.selectPrompt options])
      (shape : m.shape = .property type) (noForm : type.formName? = none) :
      m.Specifies ⟨m.name, some type, .selectPrompt options⟩
  | step (options : StepOptions) (returns : ReturnShape) (tags : m.tags = [.taskStep options])
      (shape : m.shape = .method [] returns) :
      m.Specifies ⟨m.name, returns.settledType?, .taskStep returns.isDeferred options⟩
  | nested (form : String) (tags : m.tags = [.nestedForm])
      (shape : m.shape = .property (.form form)) :
      m.Specifies ⟨m.name, some (.form form), .nestedForm form⟩

def MemberSpec.isBound (m : MemberSpec) : Bool :=
  match m.kind with
  | .selectPrompt _ | .taskStep _ _ => true
  | .textPrompt _ | .nestedForm _ | .dependency _ => false

section Extraction

theorem MemberDeclaration.kindOf_specifies {m : MemberDeclaration} {tag : PromptTag}
    {type : Option FieldType} {kind : MemberKind} (hTags : m.tags = [tag])
    (h : m.kindOf tag = .ok (type, kind)) : m.Specifies ⟨m.name, type, kind⟩ := by
  unfold kindOf at h
  split at h
  · rename_i hShape
    split at h
    · rename_i hScalar
      cases h
      exact .text _ _ hTags hShape hScalar
    · cases h
  · rename_i hShape
    split at h
    · cases h
    · rename_i hNoForm
      cases h
      refine .select _ _ hTags hShape ?_
      unfold FieldType.formName?
      split
      · rename_i name
        exact absurd rfl (hNoForm name)
      · rfl
  · rename_i hShape
    split at h
    · cases h
      exact .nested _ hTags hShape
    · cases h
  · rename_i hShape
    cases h
    exact .step _ _ hTags hShape
  all_goals cases h

theorem MemberDeclaration.extract_none {form : String} {seen : List String} {m : MemberDeclaration}
    (h : m.extract form seen = .ok none) : m.isTagged = false := by
  unfold extract at h
  split at h
  · rename_i hTags
    simp [isTagged, hTags]
  · split at h
    · cases h
    · split at h <;> cases h
  · cases h

theorem MemberDeclaration.extract_some {form : String} {seen : List String} {m : MemberDeclaration}
    {spec : MemberSpec} (h : m.extract form seen = .ok (some spec)) :
    m.isTagged = true ∧ m.name ∉ seen ∧ m.Specifies spec := by
  unfold extract at h
  split at h
  · cases h
  · rename_i tag hTags
    split at h
    · cases h
    · rename_i hFresh
      split at h
      · rename_i type kind hKind
        cases h
        exact ⟨by simp [isTagged, hTags], hFresh, kindOf_specifies hTags hKind⟩
      · cases h
  · cases h

namespace MemberDeclaration.Specifies
variable {m : MemberDeclaration} {spec : MemberSpec}

theorem name_eq (h : m.Specifies spec) : spec.name = m.name := by
  cases h <;> rfl

theorem not_dependency (h : m.Specifies spec) : spec.isDependency = false := by
  cases h <;> rfl

end MemberDeclaration.Specifies

theorem extractAfter_ok {form : String} (members : List MemberDeclaration) :
    ∀ {seen : List String} {specs : List MemberSpec}, extractAfter form seen members = .ok specs →
      List.Forall₂ MemberDeclaration.Specifies (members.filter MemberDeclaration.isTagged) specs ∧
        (specs.map MemberSpec.name).Nodup ∧ ∀ spec ∈ specs, spec.name ∉ seen := by
  -- The names seen so far grow along the list, so it is freshness that is carried along it.
  induction members with
  | nil =>
    intro seen specs h
    cases h
    exact ⟨.nil, List.nodup_nil, fun spec hSpec => absurd hSpec List.not_mem_nil⟩
  | cons m rest ih =>
    intro seen specs h
    unfold extractAfter at h
    split at h
    · cases h
    · rename_i hMember
      rw [List.filter_cons_of_neg (Bool.eq_false_iff.mp (m.extract_none hMember))]
      exact ih h
    · rename_i spec hMember
      obtain ⟨later, hLater, rfl⟩ := Outcome.map_eq_ok.mp h
      obtain ⟨hTagged, hFresh, hSpec⟩ := m.extract_some hMember
      obtain ⟨hAll, hNodup, hNew⟩ := ih hLater
      rw [List.filter_cons_of_pos hTagged]
      rw [← hSpec.name_eq] at hFresh hNew
      exact ⟨.cons hSpec hAll, fresh_cons hFresh hNodup hNew⟩

theorem Declaration.extract_members {d : Declaration} {model : Model} (h : d.extract = .ok model) :
    List.Forall₂ MemberDeclaration.Specifies d.tagged model.members ∧
      (model.members.map MemberSpec.name).Nodup := by
  obtain ⟨specs, hSpecs, rfl⟩ := Outcome.map_eq_ok.mp h
  obtain ⟨hAll, hNodup, -⟩ := extractAfter_ok d.members hSpecs
  exact ⟨hAll, hNodup⟩

theorem Declaration.extract_culture {d : Declaration} {model : Model} (h : d.extract = .ok model) :
    model.culture = d.culture := by
  obtain ⟨specs, -, rfl⟩ := Outcome.map_eq_ok.mp h
  rfl

end Extraction

section Resolution
variable {d : Declaration} {table : BindingTable}

def Declaration.SoleSource (d : Declaration) (name : String) (m : MemberDeclaration)
    (element : FieldType) : Prop :=
  ((d.membersNamed name).filterMap fun m => m.sourceElement?.map fun element => (m, element)) =
    [(m, element)]

namespace Declaration.SoleSource
variable {name : String} {m : MemberDeclaration} {element : FieldType}

theorem iff_of_mem (h : d.SoleSource name m element) {m' : MemberDeclaration} {element' : FieldType} :
    m' ∈ d.members ∧ m'.name = name ∧ m'.sourceElement? = some element' ↔
      m' = m ∧ element' = element := by
  have hMem : (m', element') ∈ (d.membersNamed name).filterMap
      (fun m => m.sourceElement?.map fun element => (m, element)) ↔
        m' ∈ d.members ∧ m'.name = name ∧ m'.sourceElement? = some element' := by
    simp only [List.mem_filterMap, Option.map_eq_some_iff, Prod.mk.injEq, membersNamed,
      List.mem_filter, decide_eq_true_eq]
    constructor
    · rintro ⟨x, ⟨hx, hName⟩, e, hElement, rfl, rfl⟩
      exact ⟨hx, hName, hElement⟩
    · rintro ⟨hx, hName, hElement⟩
      exact ⟨m', ⟨hx, hName⟩, element', hElement, rfl, rfl⟩
  rw [← hMem, h, List.mem_singleton, Prod.mk.injEq]

theorem mem (h : d.SoleSource name m element) :
    m ∈ d.members ∧ m.name = name ∧ m.sourceElement? = some element := h.iff_of_mem.mpr ⟨rfl, rfl⟩

end Declaration.SoleSource

theorem Declaration.sourceMember_ok {m : MemberSpec} {name : String} {member : MemberDeclaration}
    {element type : FieldType} (hType : m.declaredType = some type)
    (h : d.sourceMember m name = .ok (member, element)) :
    d.SoleSource name member element ∧ type.accepts element = true := by
  simp only [sourceMember, hType] at h
  split at h
  · cases h
  · split at h
    · cases h
    · rename_i single hSingle
      split at h
      · rename_i hAccepts
        cases h
        exact ⟨hSingle, hAccepts⟩
      · cases h
    · cases h

theorem Declaration.attachSource_name {m : MemberSpec} {member : MemberDeclaration} {source : Source}
    (h : d.attachSource table m member = .ok source) : source.name = member.name := by
  unfold attachSource at h
  split at h
  · cases h
    rfl
  · split at h
    · cases h
      rfl
    · cases h
    · cases h

theorem Declaration.resolveConverter_name {m : MemberSpec} {element : FieldType} {name : String}
    {converter : Converter} (h : d.resolveConverter table m element name = .ok converter) :
    converter.name = name := by
  unfold resolveConverter at h
  split at h
  · cases h
  · split at h
    · cases h
    · split at h
      · cases h
        rfl
      · cases h
      · cases h
    · cases h

theorem Declaration.resolveSelect_ok {m : MemberSpec} {options : SelectOptions}
    {binding : MemberBinding} (h : d.resolveSelect table m options = .ok binding) :
    ∃ member element source converter, d.sourceMember m options.source = .ok (member, element) ∧
      d.attachSource table m member = .ok source ∧ binding = .select source converter := by
  obtain ⟨⟨member, element⟩, hMember, h⟩ := Outcome.bind_eq_ok.mp h
  obtain ⟨source, hSource, h⟩ := Outcome.bind_eq_ok.mp h
  split at h
  · cases h
    exact ⟨member, element, source, none, hMember, hSource, rfl⟩
  · obtain ⟨converter, -, h⟩ := Outcome.bind_eq_ok.mp h
    cases h
    exact ⟨member, element, source, some converter, hMember, hSource, rfl⟩

theorem Declaration.resolveSelect_names {m : MemberSpec} {type : FieldType}
    (hType : m.declaredType = some type) {options : SelectOptions} {source : Source}
    {converter : Option Converter}
    (h : d.resolveSelect table m options = .ok (.select source converter)) :
    source.name = options.source ∧ converter.map Converter.name = options.converter := by
  obtain ⟨⟨member, element⟩, hMember, h⟩ := Outcome.bind_eq_ok.mp h
  obtain ⟨found, hSource, h⟩ := Outcome.bind_eq_ok.mp h
  have hName : found.name = options.source := by
    rw [attachSource_name hSource]
    exact (sourceMember_ok hType hMember).1.mem.2.1
  split at h
  · rename_i hNone
    cases h
    exact ⟨hName, hNone.symm⟩
  · rename_i name hSome
    obtain ⟨rendered, hConverter, h⟩ := Outcome.bind_eq_ok.mp h
    cases h
    exact ⟨hName, by rw [hSome, Option.map_some, resolveConverter_name hConverter]⟩

theorem Declaration.resolveStep_ok {m : MemberSpec} {isAsync : Bool} {binding : MemberBinding}
    (h : d.resolveStep table m isAsync = .ok binding) :
    ∃ body, Assoc.get? table m.name = some (.step body) ∧ body.isAsync = isAsync ∧
      binding = .step body := by
  simp only [resolveStep] at h
  split at h
  · cases h
  · split at h
    · rename_i body hBody
      split at h
      · rename_i hAsync
        cases h
        exact ⟨body, hBody, hAsync, rfl⟩
      · cases h
    · cases h
    · cases h

theorem Declaration.resolveAfter_get? (members : List MemberSpec) :
    ∀ {resolved bindings : ResolvedBindings}, (members.map MemberSpec.name).Nodup →
      (∀ m ∈ members, Assoc.get? resolved m.name = none) →
      d.resolveAfter table resolved members = .ok bindings →
        (∀ m ∈ members, d.resolveMember table m = .ok (Assoc.get? bindings m.name)) ∧
          ∀ name ∉ members.map MemberSpec.name,
            Assoc.get? bindings name = Assoc.get? resolved name := by
  induction members with
  | nil =>
    intro resolved bindings _ _ h
    cases h
    exact ⟨fun m hMem => absurd hMem List.not_mem_nil, fun _ _ => rfl⟩
  | cons m rest ih =>
    intro resolved bindings hNodup hNew h
    have hUnnamed := (List.nodup_cons.mp hNodup).1
    obtain ⟨hNe, hNodup⟩ := nodup_map_cons.mp hNodup
    obtain ⟨hHead, hTail⟩ := List.forall_mem_cons.mp hNew
    unfold resolveAfter at h
    split at h
    · cases h
    · rename_i hMember
      obtain ⟨hAll, hOther⟩ := ih hNodup hTail h
      refine ⟨List.forall_mem_cons.mpr ⟨?_, hAll⟩, fun name hName => ?_⟩
      · rw [hMember, hOther _ hUnnamed, hHead]
      · exact hOther name fun hIn => hName (List.mem_cons_of_mem _ hIn)
    · rename_i binding hMember
      have hStill : ∀ other ∈ rest,
          Assoc.get? (Assoc.insert resolved m.name binding) other.name = none := by
        intro other hOther
        rw [Assoc.get?_insert_of_ne _ _ (hNe other hOther)]
        exact hTail other hOther
      obtain ⟨hAll, hOther⟩ := ih hNodup hStill h
      refine ⟨List.forall_mem_cons.mpr ⟨?_, hAll⟩, fun name hName => ?_⟩
      · rw [hMember, hOther _ hUnnamed, Assoc.get?_insert_self]
      · rw [List.map_cons, List.mem_cons, not_or] at hName
        rw [hOther name hName.2, Assoc.get?_insert_of_ne _ _ hName.1]

theorem Declaration.resolve_get? {model : Model} {bindings : ResolvedBindings}
    (hNodup : (model.members.map MemberSpec.name).Nodup) (h : d.resolve model table = .ok bindings) :
    ∀ m ∈ model.members, d.resolveMember table m = .ok (Assoc.get? bindings m.name) :=
  (d.resolveAfter_get? model.members hNodup (fun _ _ => rfl) h).1

end Resolution

end FormFlow
