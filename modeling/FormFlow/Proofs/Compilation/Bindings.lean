import FormFlow.Proofs.Compilation.Signatures
/-!
# Well-bound members

A select member is bound if exactly one declared member of its source's name
yields candidates, their type is accepted by the member, and exactly one
declared member of its converter's name renders them; a step if no other
declared member has its name. What is a method has to be registered, each in
its flavour. The bindings of a model are resolved exactly if all its select and
step members are bound; otherwise the first of them that is not is told.
-/
namespace FormFlow
namespace Declaration

section Specification
variable (d : Declaration) (table : BindingTable)

/-- The select or step member has that binding. -/
inductive Binds (m : MemberSpec) : MemberBinding → Prop
  | select {options : SelectOptions} {type element : FieldType} {source : Source}
      {converter : Option Converter} (kind : m.kind = .selectPrompt options)
      (supplies : d.Supplies table options.source element source)
      (typed : m.declaredType = some type) (accepts : type.accepts element = true)
      (labels : d.Labels table element options.converter converter) :
      Binds m (.select source converter)
  | step {isAsync : Bool} {options : StepOptions} {body : StepBody}
      (kind : m.kind = .taskStep isAsync options)
      (alone : ∃ member, d.Sole (fun other => other.name = m.name) member)
      (registered : Assoc.get? table m.name = some (.step body)) (flavour : body.isAsync = isAsync) :
      Binds m (.step body)

def WellBound (m : MemberSpec) : Prop := m.isBound = true → ∃ binding, d.Binds table m binding

/-- What keeps the select or step member from its binding: the source is looked for before its type is
compared and its callable is looked up, and the converter after that. -/
inductive Misbinds (m : MemberSpec) : ModelError → Prop
  | source {options : SelectOptions} {e : ModelError} (kind : m.kind = .selectPrompt options)
      (fault : d.NoSole m options.source (MemberDeclaration.Offers options.source)
        (.unresolvedSource d.name m.name options.source) .noSequence e) : Misbinds m e
  | element {options : SelectOptions} {member : MemberDeclaration} {type element : FieldType}
      (kind : m.kind = .selectPrompt options)
      (sole : d.Sole (MemberDeclaration.Offers options.source) member)
      (yields : member.shape.Yields element) (typed : m.declaredType = some type)
      (rejects : type.accepts element = false) :
      Misbinds m (.incompatibleSignature d.name m.name options.source (.elementType element type))
  | sourceCallable {options : SelectOptions} {member : MemberDeclaration} {returns : ReturnShape}
      {type element : FieldType} {e : ModelError} (kind : m.kind = .selectPrompt options)
      (sole : d.Sole (MemberDeclaration.Offers options.source) member)
      (shape : member.shape = .method [] returns) (yields : member.shape.Yields element)
      (typed : m.declaredType = some type) (accepts : type.accepts element = true)
      (fault : d.Unregistered table m options.source .source
        (fun found => .registeredAs found .source) e) : Misbinds m e
  | converter {options : SelectOptions} {name : String} {type element : FieldType} {source : Source}
      {e : ModelError} (kind : m.kind = .selectPrompt options)
      (supplies : d.Supplies table options.source element source)
      (typed : m.declaredType = some type) (accepts : type.accepts element = true)
      (named : options.converter = some name)
      (fault : d.NoSole m name (MemberDeclaration.Converts name element)
        (.unresolvedConverter d.name m.name name) (.converterShape element) e) : Misbinds m e
  | converterCallable {options : SelectOptions} {name : String} {member : MemberDeclaration}
      {type element : FieldType} {source : Source} {e : ModelError}
      (kind : m.kind = .selectPrompt options)
      (supplies : d.Supplies table options.source element source)
      (typed : m.declaredType = some type) (accepts : type.accepts element = true)
      (named : options.converter = some name)
      (sole : d.Sole (MemberDeclaration.Converts name element) member)
      (fault : d.Unregistered table m name .converter
        (fun found => .registeredAs found .converter) e) : Misbinds m e
  | shared {isAsync : Bool} {options : StepOptions} (kind : m.kind = .taskStep isAsync options)
      (several : 2 ≤ (d.membersNamed m.name).length) :
      Misbinds m (.ambiguousBinding d.name m.name m.name (d.membersNamed m.name).length)
  | stepCallable {isAsync : Bool} {options : StepOptions} {e : ModelError}
      (kind : m.kind = .taskStep isAsync options)
      (alone : ∃ member, d.Sole (fun other => other.name = m.name) member)
      (fault : d.Unregistered table m m.name (stepFlavour isAsync) (.stepFlavour isAsync) e) :
      Misbinds m e

end Specification

section Members
variable {d : Declaration} {table : BindingTable} {m : MemberSpec} {e : ModelError}

theorem resolveSelect_of_supplies {options : SelectOptions} {type element : FieldType} {source : Source}
    (hSupplies : d.Supplies table options.source element source) (hType : m.declaredType = some type)
    (hAccepts : type.accepts element = true) :
    d.resolveSelect table m options = match options.converter with
      | none => .ok (.select source none)
      | some name => (d.resolveConverter table m element name).map fun converter =>
        .select source (some converter) := by
  obtain ⟨member, hSole, hYields, hAttach⟩ := attachSource_of_supplies (m := m) hSupplies
  have hMember : d.sourceMember m options.source = .ok (member, element) := by
    rw [sourceMember_of_sole hSole hYields hType, if_pos hAccepts]
  simp only [resolveSelect, hMember, hAttach, bind, Except.bind]
  cases options.converter with
  | none => rfl
  | some name => cases hConverter : d.resolveConverter table m element name <;> rfl

theorem resolveStep_of_sole {isAsync : Bool} {member : MemberDeclaration}
    (hAlone : d.Sole (fun other => other.name = m.name) member) :
    d.resolveStep table m isAsync = match Assoc.get? table m.name with
      | some (.step body) => if body.isAsync = isAsync then .ok (.step body)
        else .error (.incompatibleSignature d.name m.name m.name
          (.stepFlavour isAsync (Callable.step body).flavour))
      | some other =>
        .error (.incompatibleSignature d.name m.name m.name (.stepFlavour isAsync other.flavour))
      | none => .error (.missingImplementation d.name m.name) := by
  have hNamed : d.membersNamed m.name = [member] := hAlone
  unfold resolveStep
  rw [hNamed]
  rfl

theorem resolveStep_of_unregistered {isAsync : Bool} {member : MemberDeclaration}
    (hAlone : d.Sole (fun other => other.name = m.name) member)
    (h : d.Unregistered table m m.name (stepFlavour isAsync) (.stepFlavour isAsync) e) :
    d.resolveStep table m isAsync = .error e := by
  rw [resolveStep_of_sole hAlone]
  cases h with
  | missing none => simp only [none]
  | @other callable found differs =>
    rw [ne_eq, flavour_eq_stepFlavour] at differs
    cases callable with
    | step body =>
      have hAsync : ¬ body.isAsync = isAsync := fun hSame => differs ⟨body, rfl, hSame⟩
      simp only [found, hAsync, if_false]
    | _ => simp only [found]

theorem Binds.resolveMember {binding : MemberBinding} (h : d.Binds table m binding) :
    d.resolveMember table m = .ok (some binding) := by
  cases h with
  | select kind supplies typed accepts labels =>
    simp only [Declaration.resolveMember, kind, resolveSelect_of_supplies supplies typed accepts]
    generalize hNamed : SelectOptions.converter _ = named at labels
    cases labels with
    | none => rfl
    | some sole registered => simp only [resolveConverter_of_sole sole registered, Except.map]
  | step kind alone registered flavour =>
    obtain ⟨member, hAlone⟩ := alone
    simp only [Declaration.resolveMember, kind, resolveStep_of_sole hAlone, registered, flavour,
      if_true, Except.map]

theorem Misbinds.resolveMember (h : d.Misbinds table m e) : d.resolveMember table m = .error e := by
  cases h with
  | source kind fault =>
    simp only [Declaration.resolveMember, kind, resolveSelect, sourceMember_of_noSole fault, bind,
      Except.bind, Except.map]
  | element kind sole yields typed rejects =>
    simp only [Declaration.resolveMember, kind, resolveSelect, sourceMember_of_sole sole yields typed,
      rejects, bind, Except.bind, Except.map]
    rfl
  | sourceCallable kind sole shape yields typed accepts fault =>
    simp only [Declaration.resolveMember, kind, resolveSelect, sourceMember_of_sole sole yields typed,
      accepts, if_true, attachSource_of_unregistered sole.mem.2.1 shape fault, bind, Except.bind, Except.map]
  | converter kind supplies typed accepts named fault =>
    simp only [Declaration.resolveMember, kind, resolveSelect_of_supplies supplies typed accepts, named,
      resolveConverter_of_noSole fault, Except.map]
  | converterCallable kind supplies typed accepts named sole fault =>
    simp only [Declaration.resolveMember, kind, resolveSelect_of_supplies supplies typed accepts, named,
      resolveConverter_of_unregistered sole fault, Except.map]
  | shared kind several =>
    have hSeveral : 1 < (d.membersNamed m.name).length := several
    simp only [Declaration.resolveMember, kind, resolveStep, hSeveral, if_true, Except.map]
  | stepCallable kind alone fault =>
    obtain ⟨member, hAlone⟩ := alone
    simp only [Declaration.resolveMember, kind, resolveStep_of_unregistered hAlone fault, Except.map]

theorem select_binds_or_misbinds {options : SelectOptions} {type : FieldType}
    (hKind : m.kind = .selectPrompt options) (hType : m.declaredType = some type) :
    (∃ binding, d.Binds table m binding) ∨ ∃ e, d.Misbinds table m e := by
  rcases d.sole_or_noSole m options.source (MemberDeclaration.Offers options.source)
      (.unresolvedSource d.name m.name options.source) .noSequence with
    ⟨member, hSole⟩ | ⟨e, hFault⟩
  · obtain ⟨element, hYields⟩ := hSole.mem.2.2
    cases hAccepts : type.accepts element with
    | false => exact .inr ⟨_, .element hKind hSole hYields hType hAccepts⟩
    | true =>
      rcases supplies_or_unregistered m hSole hYields with
        ⟨source, hSupplies⟩ | ⟨returns, hShape, e, hFault⟩
      · rcases labels_cases m element options.converter with
          ⟨converter, hLabels⟩ | ⟨name, hNamed, ⟨e, hFault⟩ | ⟨member, e, hSole, hFault⟩⟩
        · exact .inl ⟨_, .select hKind hSupplies hType hAccepts hLabels⟩
        · exact .inr ⟨e, .converter hKind hSupplies hType hAccepts hNamed hFault⟩
        · exact .inr ⟨e, .converterCallable hKind hSupplies hType hAccepts hNamed hSole hFault⟩
      · exact .inr ⟨e, .sourceCallable hKind hSole hShape hYields hType hAccepts hFault⟩
  · exact .inr ⟨e, .source hKind hFault⟩

theorem step_binds_or_misbinds {isAsync : Bool} {options : StepOptions}
    (hKind : m.kind = .taskStep isAsync options) (hNamed : d.membersNamed m.name ≠ []) :
    (∃ binding, d.Binds table m binding) ∨ ∃ e, d.Misbinds table m e := by
  match hMembers : d.membersNamed m.name with
  | [] => exact absurd hMembers hNamed
  | first :: second :: rest => exact .inr ⟨_, .shared hKind (by simp [hMembers])⟩
  | [member] =>
    rcases registered_or_unregistered table m m.name (stepFlavour isAsync) (.stepFlavour isAsync) with
      ⟨callable, hFound, hFlavour⟩ | ⟨e, hFault⟩
    · obtain ⟨body, rfl, hAsync⟩ := flavour_eq_stepFlavour.mp hFlavour
      exact .inl ⟨_, .step hKind ⟨member, hMembers⟩ hFound hAsync⟩
    · exact .inr ⟨e, .stepCallable hKind ⟨member, hMembers⟩ hFault⟩

theorem binds_or_misbinds (table : BindingTable) {declared : MemberDeclaration} (hMem : declared ∈ d.members)
    (hSpec : declared.Specifies m) (hBound : m.isBound = true) :
    (∃ binding, d.Binds table m binding) ∨ ∃ e, d.Misbinds table m e := by
  have hNamed := membersNamed_ne_nil hMem hSpec.name_eq.symm
  cases hSpec with
  | text options type tags shape scalar => cases hBound
  | nested form tags shape => cases hBound
  | select options type tags shape noForm => exact select_binds_or_misbinds rfl rfl
  | step options returns tags shape => exact step_binds_or_misbinds rfl hNamed

theorem resolveMember_unbound (h : m.isBound = false) : d.resolveMember table m = .ok none := by
  unfold Declaration.resolveMember
  cases hKind : m.kind <;> simp_all [MemberSpec.isBound]

variable (hDeclared : ∃ declared ∈ d.members, declared.Specifies m)
include hDeclared

theorem resolveMember_ok_iff :
    (∃ found, d.resolveMember table m = .ok found) ↔ d.WellBound table m := by
  obtain ⟨declared, hMem, hSpec⟩ := hDeclared
  constructor
  · rintro ⟨found, hFound⟩ hBound
    refine (binds_or_misbinds table hMem hSpec hBound).resolve_right ?_
    rintro ⟨e, hMisbinds⟩
    cases hMisbinds.resolveMember.symm.trans hFound
  · intro hWell
    cases hBound : m.isBound with
    | false => exact ⟨none, resolveMember_unbound hBound⟩
    | true =>
      obtain ⟨binding, hBinds⟩ := hWell hBound
      exact ⟨some binding, hBinds.resolveMember⟩

theorem resolveMember_error_iff : d.resolveMember table m = .error e ↔ d.Misbinds table m e := by
  refine ⟨fun hError => ?_, Misbinds.resolveMember⟩
  obtain ⟨declared, hMem, hSpec⟩ := hDeclared
  cases hBound : m.isBound with
  | false => cases (resolveMember_unbound hBound).symm.trans hError
  | true =>
    rcases binds_or_misbinds table hMem hSpec hBound with ⟨binding, hBinds⟩ | ⟨e', hMisbinds⟩
    · cases hBinds.resolveMember.symm.trans hError
    · cases hMisbinds.resolveMember.symm.trans hError
      exact hMisbinds

end Members

section Models
variable {d : Declaration} {table : BindingTable} {e : ModelError}

theorem resolveAfter_ok_iff (members : List MemberSpec) : ∀ resolved : ResolvedBindings,
    (∃ bindings, d.resolveAfter table resolved members = .ok bindings) ↔
      ∀ m ∈ members, ∃ found, d.resolveMember table m = .ok found := by
  induction members with
  | nil => exact fun resolved => ⟨by simp, fun _ => ⟨resolved, rfl⟩⟩
  | cons m rest ih =>
    intro resolved
    rw [List.forall_mem_cons]
    unfold resolveAfter
    split
    · rename_i hError
      simp [hError]
    · rename_i hNone
      rw [ih]
      exact ⟨fun hRest => ⟨⟨_, hNone⟩, hRest⟩, And.right⟩
    · rename_i binding hSome
      rw [ih]
      exact ⟨fun hRest => ⟨⟨_, hSome⟩, hRest⟩, And.right⟩

theorem resolveAfter_error_iff (members : List MemberSpec) : ∀ resolved : ResolvedBindings,
    d.resolveAfter table resolved members = .error e ↔
      ∃ before m after, members = before ++ m :: after ∧
        (∀ earlier ∈ before, ∃ found, d.resolveMember table earlier = .ok found) ∧
          d.resolveMember table m = .error e := by
  induction members with
  | nil => simp [resolveAfter]
  | cons m rest ih =>
    intro resolved
    rw [exists_split_cons]
    simp only [List.forall_mem_cons]
    unfold resolveAfter
    split
    · rename_i hError
      simp [hError]
    · rename_i hNone
      simp [hNone, ih]
    · rename_i binding hSome
      simp [hSome, ih]

theorem resolveAfter_sorted (members : List MemberSpec) : ∀ {resolved bindings : ResolvedBindings},
    Assoc.Sorted resolved → d.resolveAfter table resolved members = .ok bindings →
      Assoc.Sorted bindings := by
  induction members with
  | nil =>
    intro resolved bindings hSorted h
    cases h
    exact hSorted
  | cons m rest ih =>
    intro resolved bindings hSorted h
    unfold resolveAfter at h
    split at h
    · cases h
    · exact ih hSorted h
    · exact ih (Assoc.sorted_insert _ _ hSorted) h

variable {model : Model} (hModel : d.extract = .ok model)
include hModel

theorem declared_of_extract {m : MemberSpec} (hMem : m ∈ model.members) :
    ∃ declared ∈ d.members, declared.Specifies m := by
  obtain ⟨declared, hTagged, hSpec⟩ := forall₂_exists_left (extract_members hModel).1 hMem
  exact ⟨declared, (List.mem_filter.mp hTagged).1, hSpec⟩

theorem resolve_ok_iff : (∃ bindings, d.resolve model table = .ok bindings) ↔
    ∀ m ∈ model.members, d.WellBound table m := by
  rw [resolve, resolveAfter_ok_iff]
  exact forall₂_congr fun m hMem => resolveMember_ok_iff (declared_of_extract hModel hMem)

theorem resolve_error_iff : d.resolve model table = .error e ↔
    ∃ before m after, model.members = before ++ m :: after ∧
      (∀ earlier ∈ before, d.WellBound table earlier) ∧ d.Misbinds table m e := by
  rw [resolve, resolveAfter_error_iff]
  refine exists_congr fun before => exists_congr fun m => exists_congr fun after =>
    and_congr_right fun hSplit => and_congr (forall₂_congr fun earlier hEarlier => ?_) ?_
  · exact resolveMember_ok_iff (declared_of_extract hModel (by simp [hSplit, hEarlier]))
  · exact resolveMember_error_iff (declared_of_extract hModel (by simp [hSplit]))

theorem Misbinds.not_wellBound {m : MemberSpec} (hMem : m ∈ model.members)
    (h : d.Misbinds table m e) : ¬ d.WellBound table m := by
  intro hWell
  obtain ⟨found, hFound⟩ := (resolveMember_ok_iff (declared_of_extract hModel hMem)).mpr hWell
  cases hFound.symm.trans h.resolveMember

variable {bindings : ResolvedBindings} (hBindings : d.resolve model table = .ok bindings)
include hBindings

theorem resolve_entry {m : MemberSpec} (hMem : m ∈ model.members) (hBound : m.isBound = true) :
    ∃ binding, Assoc.get? bindings m.name = some binding ∧ d.Binds table m binding := by
  obtain ⟨binding, hBinds⟩ := (resolve_ok_iff hModel).mp ⟨bindings, hBindings⟩ m hMem hBound
  have hFound := resolve_get? (extract_members hModel).2 hBindings m hMem
  rw [hBinds.resolveMember] at hFound
  exact ⟨binding, (Except.ok.inj hFound).symm, hBinds⟩

theorem isSome_resolve_entry {m : MemberSpec} (hMem : m ∈ model.members) :
    (Assoc.get? bindings m.name).isSome = m.isBound := by
  cases hBound : m.isBound with
  | true =>
    obtain ⟨binding, hGet, -⟩ := resolve_entry hModel hBindings hMem hBound
    rw [hGet, Option.isSome_some]
  | false =>
    have hFound := resolve_get? (extract_members hModel).2 hBindings m hMem
    rw [resolveMember_unbound hBound] at hFound
    rw [← Except.ok.inj hFound, Option.isSome_none]

theorem resolve_keys_perm :
    (Assoc.keys bindings).Perm ((model.members.filter MemberSpec.isBound).map MemberSpec.name) := by
  have hNodup := (extract_members hModel).2
  obtain ⟨-, hOther⟩ := d.resolveAfter_get? model.members hNodup (fun _ _ => rfl) hBindings
  have hNil : Assoc.Sorted ([] : ResolvedBindings) := .nil
  have hSorted : Assoc.Sorted bindings := resolveAfter_sorted model.members hNil hBindings
  refine (List.perm_ext_iff_of_nodup (Assoc.nodup_keys hSorted)
    (hNodup.sublist (List.filter_sublist.map _))).mpr fun name => ?_
  rw [← Assoc.contains_iff, Assoc.contains]
  simp only [List.mem_map, List.mem_filter]
  constructor
  · intro hSome
    by_cases hIn : name ∈ model.members.map MemberSpec.name
    · obtain ⟨m, hMem, rfl⟩ := List.mem_map.mp hIn
      exact ⟨m, ⟨hMem, (isSome_resolve_entry hModel hBindings hMem).symm.trans hSome⟩, rfl⟩
    · rw [hOther name hIn] at hSome
      cases hSome
  · rintro ⟨m, ⟨hMem, hTrue⟩, rfl⟩
    exact (isSome_resolve_entry hModel hBindings hMem).trans hTrue

omit hModel hBindings

/-- The bindings of a model are resolved exactly if all its members are well bound, and each select and
step member then has one entry, which is its binding. Otherwise the first member that is not well bound
is told, with the first thing that keeps it from its binding. -/
theorem resolve_exact (hModel : d.extractTraced.result = .ok model) (table : BindingTable) :
    ((∃ bindings, (d.resolveTraced model table).result = .ok bindings) ↔
        ∀ m ∈ model.members, d.WellBound table m) ∧
      (∀ bindings, (d.resolveTraced model table).result = .ok bindings →
        (Assoc.keys bindings).Perm ((model.members.filter MemberSpec.isBound).map MemberSpec.name) ∧
          ∀ m ∈ model.members, m.isBound = true →
            ∃ binding, Assoc.get? bindings m.name = some binding ∧ d.Binds table m binding) ∧
      ∀ e, (d.resolveTraced model table).result = .error e ↔
        ∃ before m after, model.members = before ++ m :: after ∧
          (∀ earlier ∈ before, d.WellBound table earlier) ∧ ¬ d.WellBound table m ∧
            d.Misbinds table m e := by
  simp only [resolveTraced, Traced.result_of]
  refine ⟨resolve_ok_iff hModel, fun bindings hBindings => ⟨resolve_keys_perm hModel hBindings,
    fun m => resolve_entry hModel hBindings⟩, fun e => ?_⟩
  rw [resolve_error_iff hModel]
  constructor
  · rintro ⟨before, m, after, hSplit, hBefore, hMisbinds⟩
    have hMem : m ∈ model.members := by simp [hSplit]
    exact ⟨before, m, after, hSplit, hBefore, hMisbinds.not_wellBound hModel hMem, hMisbinds⟩
  · rintro ⟨before, m, after, hSplit, hBefore, -, hMisbinds⟩
    exact ⟨before, m, after, hSplit, hBefore, hMisbinds⟩

end Models
end Declaration

namespace Sample

/-- A trip whose method for the legs is overloaded, and whose booking is asynchronous. -/
def trip : Declaration :=
  { name := "Trip"
    members := [
      { name := "legs", shape := .method [] (.sequence .integer) },
      { name := "legs", shape := .method [.text] (.value .integer) },
      { name := "label", shape := .method [.decimal] (.value .text) },
      { name := "leg", shape := .property .decimal,
        tags := [.selectPrompt { source := "legs", converter := some "label" }] },
      { name := "book", shape := .method [] (.deferred .unit), tags := [.taskStep {}] }] }

def tripModel : Model :=
  ⟨"Trip", none, [⟨"leg", some .decimal, .selectPrompt { source := "legs", converter := some "label" }⟩,
    ⟨"book", none, .taskStep true {}⟩]⟩

def tripTable : BindingTable :=
  [("book", .step (.async fun inst => .finished false inst (.ok ()))),
    ("label", .converter Json.display), ("legs", .source fun _ => .ok [])]

theorem trip_well_bound :
    trip.extractTraced.result = .ok tripModel ∧
      (∀ m ∈ tripModel.members, trip.WellBound tripTable m) ∧
        ¬ ∀ m ∈ tripModel.members, trip.WellBound [] m := by
  have hModel : trip.extractTraced.result = .ok tripModel := rfl
  have hNone : (trip.resolveTraced tripModel []).result =
      .error (.missingImplementation "Trip" "legs") := rfl
  refine ⟨hModel, (Declaration.resolve_exact hModel tripTable).1.mp ⟨_, rfl⟩, fun hAll => ?_⟩
  obtain ⟨bindings, hBindings⟩ := (Declaration.resolve_exact hModel []).1.mpr hAll
  cases hNone.symm.trans hBindings

end Sample
end FormFlow
