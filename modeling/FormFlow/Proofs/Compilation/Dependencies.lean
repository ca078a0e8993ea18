import FormFlow.Model.Construction
import FormFlow.Proofs.Outcome
/-!
# Dependencies of a form

Construction lists the parameters of the chosen constructor and then the
required untagged properties. All these names are distinct, and no parameter has
the name of a prompted member; a required property may.
-/
namespace FormFlow

section Names
variable {α : Type} {name : α → String} {x : α} {xs : List α}

theorem nodup_map_cons :
    ((x :: xs).map name).Nodup ↔ (∀ y ∈ xs, name y ≠ name x) ∧ (xs.map name).Nodup := by
  rw [List.map_cons, List.nodup_cons]
  refine and_congr_left' ?_
  simp only [List.mem_map, not_exists, not_and, ne_eq]

theorem fresh_cons {seen : List String} (hFresh : name x ∉ seen) (hNodup : (xs.map name).Nodup)
    (hNew : ∀ y ∈ xs, name y ∉ name x :: seen) :
    ((x :: xs).map name).Nodup ∧ ∀ y ∈ x :: xs, name y ∉ seen := by
  refine ⟨nodup_map_cons.mpr ⟨fun y hy hName => ?_, hNodup⟩,
    List.forall_mem_cons.mpr ⟨hFresh, fun y hy hSeen => ?_⟩⟩
  · exact hNew y hy (hName ▸ List.mem_cons_self)
  · exact hNew y hy (List.mem_cons_of_mem _ hSeen)

end Names

def Parameter.dependency (p : Parameter) : MemberSpec :=
  ⟨p.name, some p.type, .dependency .constructorParameter⟩

def Declaration.requiredProperties (d : Declaration) : List (String × FieldType) :=
  d.members.filterMap MemberDeclaration.requiredProperty?

def propertyDependency (property : String × FieldType) : MemberSpec :=
  ⟨property.1, some property.2, .dependency .requiredProperty⟩

def Declaration.dependencySpecs (d : Declaration) (strategy : ConstructionStrategy) :
    List MemberSpec :=
  strategy.parameters.map Parameter.dependency ++ d.requiredProperties.map propertyDependency

theorem Declaration.chooseConstructor_parameters {d : Declaration} {strategy : ConstructionStrategy}
    (h : d.chooseConstructor = .ok strategy) :
    (∃ k ∈ d.constructors, k.parameters = strategy.parameters) ∨
      d.constructors = [] ∧ strategy = .default := by
  unfold chooseConstructor at h
  split at h
  · rename_i marked hMarked
    cases h
    have hMem : marked ∈ d.constructors.filter ConstructorDeclaration.designated :=
      hMarked ▸ List.mem_singleton_self marked
    exact .inl ⟨marked, (List.mem_filter.mp hMem).1, rfl⟩
  · cases h
  · split at h
    · rename_i hNone
      cases h
      exact .inr ⟨hNone, rfl⟩
    · rename_i only hOnly
      refine .inl ⟨only, hOnly ▸ List.mem_singleton_self only, ?_⟩
      split at h
      · rename_i hEmpty
        cases h
        exact hEmpty
      · cases h
        rfl
    · split at h
      · rename_i hAny
        obtain ⟨k, hMem, hEmpty⟩ := List.any_eq_true.mp hAny
        cases h
        exact .inl ⟨k, hMem, of_decide_eq_true hEmpty⟩
      · cases h

theorem parameterDependencies_eq {form : String} {model : Model} (parameters : List Parameter) :
    ∀ {names : List String} {specs : List MemberSpec},
      parameterDependencies form model names parameters = .ok specs →
        specs = parameters.map Parameter.dependency ∧
          (∀ p ∈ parameters, (model.member? p.name).any MemberSpec.isPrompted = false) ∧
          (specs.map MemberSpec.name).Nodup ∧ ∀ spec ∈ specs, spec.name ∉ names := by
  induction parameters with
  | nil =>
    intro names specs h
    cases h
    exact ⟨rfl, fun p hMem => absurd hMem List.not_mem_nil, List.nodup_nil,
      fun spec hSpec => absurd hSpec List.not_mem_nil⟩
  | cons p rest ih =>
    intro names specs h
    unfold parameterDependencies at h
    split at h
    · cases h
    · rename_i hPrompted
      split at h
      · cases h
      · rename_i hFresh
        obtain ⟨later, hLater, rfl⟩ := Outcome.map_eq_ok.mp h
        obtain ⟨rfl, hRest, hNodup, hNew⟩ := ih hLater
        exact ⟨rfl, List.forall_mem_cons.mpr ⟨Bool.eq_false_iff.mpr hPrompted, hRest⟩,
          fresh_cons (x := p.dependency) hFresh hNodup hNew⟩

theorem propertyDependencies_eq {form : String} (properties : List (String × FieldType)) :
    ∀ {names : List String} {specs : List MemberSpec},
      propertyDependencies form names properties = .ok specs →
        specs = properties.map propertyDependency ∧
          (specs.map MemberSpec.name).Nodup ∧ ∀ spec ∈ specs, spec.name ∉ names := by
  induction properties with
  | nil =>
    intro names specs h
    cases h
    exact ⟨rfl, List.nodup_nil, fun spec hSpec => absurd hSpec List.not_mem_nil⟩
  | cons property rest ih =>
    intro names specs h
    unfold propertyDependencies at h
    split at h
    · cases h
    · rename_i hFresh
      obtain ⟨later, hLater, rfl⟩ := Outcome.map_eq_ok.mp h
      obtain ⟨rfl, hNodup, hNew⟩ := ih hLater
      exact ⟨rfl, fresh_cons (x := propertyDependency property) hFresh hNodup hNew⟩

theorem Declaration.dependencies_eq {d : Declaration} {model : Model}
    {strategy : ConstructionStrategy} {specs : List MemberSpec}
    (h : d.dependencies model strategy = .ok specs) :
    specs = d.dependencySpecs strategy ∧ (specs.map MemberSpec.name).Nodup ∧
      ∀ p ∈ strategy.parameters, (model.member? p.name).any MemberSpec.isPrompted = false := by
  obtain ⟨ofParameters, hParameters, h⟩ := Outcome.bind_eq_ok.mp h
  obtain ⟨ofProperties, hProperties, h⟩ := Outcome.bind_eq_ok.mp h
  cases h
  obtain ⟨rfl, hPrompted, hNodup, -⟩ := parameterDependencies_eq _ hParameters
  obtain ⟨rfl, hNodup', hNew⟩ := propertyDependencies_eq _ hProperties
  refine ⟨rfl, ?_, hPrompted⟩
  rw [List.map_append, List.nodup_append]
  refine ⟨hNodup, hNodup', ?_⟩
  rintro a ha b hb rfl
  obtain ⟨spec, hSpec, rfl⟩ := List.mem_map.mp hb
  exact hNew spec hSpec ha

theorem Declaration.construct_eq {d : Declaration} {model full : Model}
    {strategy : ConstructionStrategy} (h : d.construct model = .ok (strategy, full)) :
    d.chooseConstructor = .ok strategy ∧
      full = { model with members := d.dependencySpecs strategy ++ model.members } ∧
      ((d.dependencySpecs strategy).map MemberSpec.name).Nodup ∧
      ∀ p ∈ strategy.parameters, (model.member? p.name).any MemberSpec.isPrompted = false := by
  obtain ⟨chosen, hChosen, h⟩ := Outcome.bind_eq_ok.mp h
  obtain ⟨dependencies, hDependencies, h⟩ := Outcome.bind_eq_ok.mp h
  cases h
  obtain ⟨rfl, hNodup, hPrompted⟩ := Declaration.dependencies_eq hDependencies
  exact ⟨hChosen, rfl, hNodup, hPrompted⟩

theorem Declaration.isDependency_dependencySpecs (d : Declaration)
    (strategy : ConstructionStrategy) : ∀ spec ∈ d.dependencySpecs strategy,
      spec.isDependency = true := by
  intro spec hSpec
  rcases List.mem_append.mp hSpec with hIn | hIn
  · obtain ⟨p, -, rfl⟩ := List.mem_map.mp hIn
    rfl
  · obtain ⟨property, -, rfl⟩ := List.mem_map.mp hIn
    rfl

end FormFlow
