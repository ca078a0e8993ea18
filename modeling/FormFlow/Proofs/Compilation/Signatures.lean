import FormFlow.Proofs.Compilation.Members
/-!
# Named members and their signatures

A member that is named as a source or as a converter is looked for by its name
and its shape, and has to be the only one. Where the name stands for a method,
the callable that is registered under it has to be of the right flavour.
-/
namespace FormFlow

section Shapes

/-- A member of that shape has elements of the type at hand: it is a list, or a method without
parameters that hands a sequence or a list over at once. -/
inductive MemberShape.Yields : MemberShape → FieldType → Prop
  | list (element : FieldType) : Yields (.property (.list element)) element
  | sequence (element : FieldType) : Yields (.method [] (.sequence element)) element
  | value (element : FieldType) : Yields (.method [] (.value (.list element))) element

/-- A member of that shape makes a text of an element of the type. -/
inductive MemberShape.Renders (element : FieldType) : MemberShape → Prop
  | method {parameter : FieldType} (accepts : parameter.accepts element = true) :
      Renders element (.method [parameter] (.value .text))

namespace MemberDeclaration
variable {m : MemberDeclaration} {element : FieldType}

def Offers (name : String) (m : MemberDeclaration) : Prop :=
  m.name = name ∧ ∃ element, m.shape.Yields element

def Converts (name : String) (element : FieldType) (m : MemberDeclaration) : Prop :=
  m.name = name ∧ m.shape.Renders element

theorem Offers.name_eq {name : String} (h : m.Offers name) : m.name = name := h.1

theorem Converts.name_eq {name : String} (h : m.Converts name element) : m.name = name := h.1

theorem sourceElement?_eq_some : m.sourceElement? = some element ↔ m.shape.Yields element := by
  constructor
  · intro h
    unfold sourceElement? at h
    split at h
    · rename_i hShape
      cases h
      exact hShape ▸ .list element
    · cases h
    · rename_i returns hShape
      rw [hShape]
      unfold ReturnShape.sequenceElement? at h
      split at h
      · cases h
        exact .sequence element
      · cases h
        exact .value element
      · cases h
    · cases h
  · intro h
    generalize hShape : m.shape = shape at h
    cases h <;> simp [sourceElement?, hShape, ReturnShape.sequenceElement?]

theorem convertsFrom_eq_true : m.convertsFrom element = true ↔ m.shape.Renders element := by
  constructor
  · intro h
    unfold convertsFrom at h
    split at h
    · rename_i parameter returns hShape
      obtain ⟨hAccepts, hReturns⟩ := Bool.and_eq_true_iff.mp h
      rw [hShape, of_decide_eq_true hReturns]
      exact .method hAccepts
    · cases h
  · intro h
    generalize hShape : m.shape = shape at h
    cases h with
    | method accepts => simp [convertsFrom, hShape, accepts]

theorem offers_iff {name : String} : m.Offers name ↔ m.name = name ∧ m.sourceElement?.isSome = true := by
  simp only [Offers, Option.isSome_iff_exists, sourceElement?_eq_some]

theorem converts_iff {name : String} :
    m.Converts name element ↔ m.name = name ∧ m.convertsFrom element = true := by
  rw [Converts, convertsFrom_eq_true]

instance (name : String) : DecidablePred (Offers name) := fun _ => decidable_of_iff' _ offers_iff

instance (name : String) (element : FieldType) : DecidablePred (Converts name element) :=
  fun _ => decidable_of_iff' _ converts_iff

end MemberDeclaration
end Shapes

namespace Declaration

section Specification
variable (d : Declaration) (table : BindingTable)

def Sole (P : MemberDeclaration → Prop) [DecidablePred P] (member : MemberDeclaration) : Prop :=
  d.members.filter P = [member]

inductive NoSole (m : MemberSpec) (name : String) (P : MemberDeclaration → Prop) [DecidablePred P]
    (unknown : ModelError) (misfit : SignatureMisfit) : ModelError → Prop
  | undeclared (none : ∀ member ∈ d.members, member.name ≠ name) :
      NoSole m name P unknown misfit unknown
  | unfit (declared : ∃ member ∈ d.members, member.name = name)
      (none : ∀ member ∈ d.members, ¬ P member) :
      NoSole m name P unknown misfit (.incompatibleSignature d.name m.name name misfit)
  | ambiguous (several : 2 ≤ (d.members.filter P).length) : NoSole m name P unknown misfit
      (.ambiguousBinding d.name m.name name (d.members.filter P).length)

inductive Unregistered (m : MemberSpec) (name : String) (flavour : Flavour)
    (misfit : Flavour → SignatureMisfit) : ModelError → Prop
  | missing (none : Assoc.get? table name = none) :
      Unregistered m name flavour misfit (.missingImplementation d.name name)
  | other {callable : Callable} (found : Assoc.get? table name = some callable)
      (differs : callable.flavour ≠ flavour) : Unregistered m name flavour misfit
        (.incompatibleSignature d.name m.name name (misfit callable.flavour))

/-- The source of that name is the only one, and hands elements of the type over. -/
inductive Supplies (name : String) (element : FieldType) : Source → Prop
  | property {member : MemberDeclaration} (sole : d.Sole (MemberDeclaration.Offers name) member)
      (shape : member.shape = .property (.list element)) : Supplies name element (.property name)
  | method {member : MemberDeclaration} {returns : ReturnShape}
      {call : Instance → Except StepError (List Json)}
      (sole : d.Sole (MemberDeclaration.Offers name) member) (shape : member.shape = .method [] returns)
      (yields : member.shape.Yields element)
      (registered : Assoc.get? table name = some (.source call)) :
      Supplies name element (.method name call)

/-- The converter of that name, if one is named, is the only one for elements of the type. -/
inductive Labels (element : FieldType) : Option String → Option Converter → Prop
  | none : Labels element none none
  | some {name : String} {member : MemberDeclaration} {render : Json → String}
      (sole : d.Sole (MemberDeclaration.Converts name element) member)
      (registered : Assoc.get? table name = some (.converter render)) :
      Labels element (some name) (some ⟨name, render⟩)

end Specification

def stepFlavour (isAsync : Bool) : Flavour := if isAsync then .asyncStep else .step

section Flavours
variable {callable : Callable}

theorem flavour_eq_source : callable.flavour = .source ↔ ∃ call, callable = .source call := by
  cases callable with
  | step body => cases body <;> simp [Callable.flavour]
  | _ => simp [Callable.flavour]

theorem flavour_eq_converter : callable.flavour = .converter ↔ ∃ render, callable = .converter render := by
  cases callable with
  | step body => cases body <;> simp [Callable.flavour]
  | _ => simp [Callable.flavour]

theorem flavour_eq_stepFlavour {isAsync : Bool} :
    callable.flavour = stepFlavour isAsync ↔ ∃ body, callable = .step body ∧ body.isAsync = isAsync := by
  cases callable with
  | step body => cases body <;> cases isAsync <;>
      simp [Callable.flavour, stepFlavour, StepBody.isAsync]
  | _ => cases isAsync <;> simp [Callable.flavour, stepFlavour]

end Flavours

section Lookup

theorem exists_two {α : Type} {xs : List α} (h : 2 ≤ xs.length) : ∃ x y rest, xs = x :: y :: rest := by
  match xs with
  | x :: y :: rest => exact ⟨x, y, rest, rfl⟩

variable {d : Declaration} {table : BindingTable} {m : MemberSpec} {name : String}

theorem membersNamed_eq_nil : d.membersNamed name = [] ↔ ∀ member ∈ d.members, member.name ≠ name := by
  simp [membersNamed]

theorem membersNamed_ne_nil {member : MemberDeclaration} (hMem : member ∈ d.members)
    (hName : member.name = name) : d.membersNamed name ≠ [] :=
  fun hNil => membersNamed_eq_nil.mp hNil member hMem hName

theorem membersNamed_ne_nil_of_several {P : MemberDeclaration → Prop} [DecidablePred P]
    (hName : ∀ member, P member → member.name = name) (h : 2 ≤ (d.members.filter P).length) :
    d.membersNamed name ≠ [] := by
  obtain ⟨member, second, rest, hMany⟩ := exists_two h
  have hMem : member ∈ d.members.filter P := hMany ▸ List.mem_cons_self
  obtain ⟨hMem, hP⟩ := List.mem_filter.mp hMem
  exact membersNamed_ne_nil hMem (hName member (of_decide_eq_true hP))

theorem Sole.mem {P : MemberDeclaration → Prop} [DecidablePred P] {member : MemberDeclaration}
    (h : d.Sole P member) : member ∈ d.members ∧ P member := by
  have hMem : member ∈ d.members.filter P := h ▸ List.mem_singleton_self member
  exact (List.mem_filter.mp hMem).imp_right of_decide_eq_true

theorem sole_or_noSole (d : Declaration) (m : MemberSpec) (name : String) (P : MemberDeclaration → Prop)
    [DecidablePred P] (unknown : ModelError) (misfit : SignatureMisfit) :
    (∃ member, d.Sole P member) ∨ ∃ e, d.NoSole m name P unknown misfit e := by
  match hFilter : d.members.filter P with
  | [] =>
    refine .inr ?_
    by_cases hDeclared : ∃ member ∈ d.members, member.name = name
    · exact ⟨_, .unfit hDeclared (by simpa using List.filter_eq_nil_iff.mp hFilter)⟩
    · exact ⟨_, .undeclared fun member hMem hName => hDeclared ⟨member, hMem, hName⟩⟩
  | [member] => exact .inl ⟨member, hFilter⟩
  | first :: second :: rest => exact .inr ⟨_, .ambiguous (by simp [hFilter])⟩

theorem registered_or_unregistered (table : BindingTable) (m : MemberSpec) (name : String)
    (flavour : Flavour) (misfit : Flavour → SignatureMisfit) :
    (∃ callable, Assoc.get? table name = some callable ∧ callable.flavour = flavour) ∨
      ∃ e, d.Unregistered table m name flavour misfit e := by
  cases hFound : Assoc.get? table name with
  | none => exact .inr ⟨_, .missing hFound⟩
  | some callable =>
    by_cases hFlavour : callable.flavour = flavour
    · exact .inl ⟨callable, rfl, hFlavour⟩
    · exact .inr ⟨_, .other hFound hFlavour⟩

end Lookup

section Sources
variable {d : Declaration} {table : BindingTable} {m : MemberSpec} {name : String}
  {member : MemberDeclaration} {element type : FieldType} {e : ModelError}

def sourcesNamed (d : Declaration) (name : String) : List (MemberDeclaration × FieldType) :=
  (d.membersNamed name).filterMap fun member => member.sourceElement?.map fun element => (member, element)

theorem map_fst_sourcesNamed (d : Declaration) (name : String) :
    (d.sourcesNamed name).map Prod.fst = d.members.filter (MemberDeclaration.Offers name) := by
  unfold sourcesNamed membersNamed
  induction d.members with
  | nil => rfl
  | cons member rest ih =>
    by_cases hName : member.name = name
    · cases hElement : member.sourceElement? <;>
        simp_all [MemberDeclaration.offers_iff]
    · simp_all [MemberDeclaration.offers_iff]

theorem Sole.soleSource (hSole : d.Sole (MemberDeclaration.Offers name) member)
    (hYields : member.shape.Yields element) : d.SoleSource name member element := by
  have hFirst : (d.sourcesNamed name).map Prod.fst = [member] :=
    (d.map_fst_sourcesNamed name).trans hSole
  obtain ⟨⟨found, type⟩, hFound, rfl⟩ := List.map_eq_singleton_iff.mp hFirst
  have hMem : (found, type) ∈ d.sourcesNamed name := hFound ▸ List.mem_singleton_self _
  obtain ⟨_, -, hElement⟩ := List.mem_filterMap.mp hMem
  obtain ⟨_, hType, hEq⟩ := Option.map_eq_some_iff.mp hElement
  cases hEq
  cases hType.symm.trans (MemberDeclaration.sourceElement?_eq_some.mpr hYields)
  exact hFound

theorem sourceMember_of_named (h : d.membersNamed name ≠ []) :
    d.sourceMember m name = match d.sourcesNamed name with
      | [] => .error (.incompatibleSignature d.name m.name name .noSequence)
      | [single] =>
        match m.declaredType with
        | some type =>
          if type.accepts single.2 then .ok single
          else .error (.incompatibleSignature d.name m.name name (.elementType single.2 type))
        | none => .ok single
      | many => .error (.ambiguousBinding d.name m.name name many.length) := by
  unfold sourceMember
  split
  · contradiction
  · rfl

theorem sourceMember_of_sole (hSole : d.Sole (MemberDeclaration.Offers name) member)
    (hYields : member.shape.Yields element) (hType : m.declaredType = some type) :
    d.sourceMember m name = if type.accepts element then .ok (member, element)
      else .error (.incompatibleSignature d.name m.name name (.elementType element type)) := by
  have hSources : d.sourcesNamed name = [(member, element)] := hSole.soleSource hYields
  rw [sourceMember_of_named (membersNamed_ne_nil hSole.mem.1 hSole.mem.2.name_eq), hSources, hType]

theorem sourceMember_of_noSole (h : d.NoSole m name (MemberDeclaration.Offers name)
    (.unresolvedSource d.name m.name name) .noSequence e) : d.sourceMember m name = .error e := by
  have hFirst := d.map_fst_sourcesNamed name
  cases h with
  | undeclared none => simp only [sourceMember, membersNamed_eq_nil.mpr none]
  | unfit declared none =>
    obtain ⟨member, hMem, hName⟩ := declared
    rw [List.filter_eq_nil_iff.mpr (by simpa using none), List.map_eq_nil_iff] at hFirst
    rw [sourceMember_of_named (membersNamed_ne_nil hMem hName), hFirst]
  | ambiguous several =>
    rw [sourceMember_of_named
      (membersNamed_ne_nil_of_several (fun _ => MemberDeclaration.Offers.name_eq) several)]
    rw [← hFirst, List.length_map] at several ⊢
    obtain ⟨first, second, rest, hMany⟩ := exists_two several
    rw [hMany]

theorem attachSource_of_supplies {source : Source} (h : d.Supplies table name element source) :
    ∃ member, d.Sole (MemberDeclaration.Offers name) member ∧ member.shape.Yields element ∧
      d.attachSource table m member = .ok source := by
  cases h with
  | property sole shape =>
    exact ⟨_, sole, shape ▸ .list element, by simp only [attachSource, shape, sole.mem.2.1]⟩
  | method sole shape yields registered =>
    exact ⟨_, sole, yields, by simp only [attachSource, shape, sole.mem.2.1, registered]⟩

theorem attachSource_of_unregistered {returns : ReturnShape} (hName : member.name = name)
    (hShape : member.shape = .method [] returns)
    (h : d.Unregistered table m name .source (fun found => .registeredAs found .source) e) :
    d.attachSource table m member = .error e := by
  subst hName
  cases h with
  | missing none => simp only [attachSource, hShape, none]
  | @other callable found differs =>
    cases callable with
    | source call => exact absurd rfl differs
    | _ => simp only [attachSource, hShape, found]

theorem supplies_or_unregistered (m : MemberSpec) (hSole : d.Sole (MemberDeclaration.Offers name) member)
    (hYields : member.shape.Yields element) :
    (∃ source, d.Supplies table name element source) ∨ ∃ returns, member.shape = .method [] returns ∧
      ∃ e, d.Unregistered table m name .source (fun found => .registeredAs found .source) e := by
  have hMethod {returns : ReturnShape} (hShape : member.shape = .method [] returns) :
      (∃ source, d.Supplies table name element source) ∨
        ∃ e, d.Unregistered table m name .source (fun found => .registeredAs found .source) e := by
    refine (registered_or_unregistered table m name .source _).imp_left ?_
    rintro ⟨callable, hFound, hFlavour⟩
    obtain ⟨call, rfl⟩ := flavour_eq_source.mp hFlavour
    exact ⟨_, .method hSole hShape hYields hFound⟩
  generalize hShape : member.shape = shape at hYields hMethod
  cases hYields with
  | list element => exact .inl ⟨_, .property hSole hShape⟩
  | sequence element => exact (hMethod rfl).imp_right fun hFault => ⟨_, rfl, hFault⟩
  | value element => exact (hMethod rfl).imp_right fun hFault => ⟨_, rfl, hFault⟩

end Sources

section Converters
variable {d : Declaration} {table : BindingTable} {m : MemberSpec} {name : String}
  {member : MemberDeclaration} {element : FieldType} {e : ModelError}

theorem filter_convertsFrom :
    (d.membersNamed name).filter (MemberDeclaration.convertsFrom element) =
      d.members.filter (MemberDeclaration.Converts name element) := by
  rw [membersNamed, List.filter_filter]
  refine List.filter_congr fun member _ => ?_
  rw [Bool.eq_iff_iff, Bool.and_eq_true, decide_eq_true_eq, decide_eq_true_eq,
    MemberDeclaration.converts_iff, and_comm]

theorem resolveConverter_of_named (h : d.membersNamed name ≠ []) :
    d.resolveConverter table m element name =
      match d.members.filter (MemberDeclaration.Converts name element) with
      | [] => .error (.incompatibleSignature d.name m.name name (.converterShape element))
      | [_] =>
        match Assoc.get? table name with
        | some (.converter render) => .ok ⟨name, render⟩
        | some other =>
          .error (.incompatibleSignature d.name m.name name (.registeredAs other.flavour .converter))
        | none => .error (.missingImplementation d.name name)
      | many => .error (.ambiguousBinding d.name m.name name many.length) := by
  rw [← filter_convertsFrom]
  unfold resolveConverter
  split
  · contradiction
  · rfl

theorem resolveConverter_of_sole {render : Json → String}
    (hSole : d.Sole (MemberDeclaration.Converts name element) member)
    (hFound : Assoc.get? table name = some (.converter render)) :
    d.resolveConverter table m element name = .ok ⟨name, render⟩ := by
  rw [resolveConverter_of_named (membersNamed_ne_nil hSole.mem.1 hSole.mem.2.name_eq), hSole, hFound]

theorem resolveConverter_of_unregistered
    (hSole : d.Sole (MemberDeclaration.Converts name element) member)
    (h : d.Unregistered table m name .converter (fun found => .registeredAs found .converter) e) :
    d.resolveConverter table m element name = .error e := by
  rw [resolveConverter_of_named (membersNamed_ne_nil hSole.mem.1 hSole.mem.2.name_eq), hSole]
  cases h with
  | missing none => simp only [none]
  | @other callable found differs =>
    cases callable with
    | converter render => exact absurd rfl differs
    | _ => simp only [found]

theorem resolveConverter_of_noSole (h : d.NoSole m name (MemberDeclaration.Converts name element)
    (.unresolvedConverter d.name m.name name) (.converterShape element) e) :
    d.resolveConverter table m element name = .error e := by
  cases h with
  | undeclared none => simp only [resolveConverter, membersNamed_eq_nil.mpr none]
  | unfit declared none =>
    obtain ⟨member, hMem, hName⟩ := declared
    rw [resolveConverter_of_named (membersNamed_ne_nil hMem hName),
      List.filter_eq_nil_iff.mpr (by simpa using none)]
  | ambiguous several =>
    rw [resolveConverter_of_named
      (membersNamed_ne_nil_of_several (fun _ => MemberDeclaration.Converts.name_eq) several)]
    obtain ⟨first, second, rest, hMany⟩ := exists_two several
    rw [hMany]

theorem labels_cases (m : MemberSpec) (element : FieldType) (named : Option String) :
    (∃ converter, d.Labels table element named converter) ∨ ∃ name, named = some name ∧
      ((∃ e, d.NoSole m name (MemberDeclaration.Converts name element)
        (.unresolvedConverter d.name m.name name) (.converterShape element) e) ∨
      ∃ member e, d.Sole (MemberDeclaration.Converts name element) member ∧ d.Unregistered table m name
        .converter (fun found => .registeredAs found .converter) e) := by
  cases named with
  | none => exact .inl ⟨none, .none⟩
  | some name =>
    rcases d.sole_or_noSole m name (MemberDeclaration.Converts name element)
        (.unresolvedConverter d.name m.name name) (.converterShape element) with
      ⟨member, hSole⟩ | hFault
    · rcases registered_or_unregistered table m name .converter (fun found => .registeredAs found .converter)
        with ⟨callable, hFound, hFlavour⟩ | ⟨e, hFault⟩
      · obtain ⟨render, rfl⟩ := flavour_eq_converter.mp hFlavour
        exact .inl ⟨_, .some hSole hFound⟩
      · exact .inr ⟨name, rfl, .inr ⟨member, e, hSole, hFault⟩⟩
    · exact .inr ⟨name, rfl, .inl hFault⟩

end Converters
end Declaration
end FormFlow
