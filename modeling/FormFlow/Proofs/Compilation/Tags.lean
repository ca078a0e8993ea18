import FormFlow.Proofs.Compilation.Members
/-!
# Well-tagged declarations

A declaration has a model exactly if each tagged member carries one tag, the tag
fits the member, and no two tagged members have one name. The first member in
order that breaks one of these rules is the one that is told, by the first rule
that it breaks: tags that conflict come before a name that is taken, and this
before a tag that does not fit.
-/
namespace FormFlow

section Specification

/-- A member of that shape can be prompted for by the tag. -/
inductive PromptTag.Fits : PromptTag → MemberShape → Prop
  | text (options : TextOptions) {type : FieldType} (scalar : type.isScalar = true) :
      Fits (.textPrompt options) (.property type)
  | select (options : SelectOptions) {type : FieldType} (noForm : ∀ form, type ≠ .form form) :
      Fits (.selectPrompt options) (.property type)
  | nested (form : String) : Fits .nestedForm (.property (.form form))
  | step (options : StepOptions) (returns : ReturnShape) :
      Fits (.taskStep options) (.method [] returns)

inductive PromptTag.Misfits : PromptTag → MemberShape → TagMisfit → Prop
  | text (options : TextOptions) {type : FieldType} (compound : type.isScalar = false) :
      Misfits (.textPrompt options) (.property type) (.textNotScalar type)
  | select (options : SelectOptions) (form : String) :
      Misfits (.selectPrompt options) (.property (.form form)) (.selectOfForm (.form form))
  | nested {type : FieldType} (noForm : ∀ form, type ≠ .form form) :
      Misfits .nestedForm (.property type) (.nestedNotForm type)
  | stepParameters (options : StepOptions) {parameters : List FieldType} (some : parameters ≠ [])
      (returns : ReturnShape) : Misfits (.taskStep options) (.method parameters returns)
        (.stepParameters parameters.length)
  | stepProperty (options : StepOptions) (type : FieldType) :
      Misfits (.taskStep options) (.property type) .stepNotMethod
  | method {tag : PromptTag} (prompts : ∀ options, tag ≠ .taskStep options)
      (parameters : List FieldType) (returns : ReturnShape) :
      Misfits tag (.method parameters returns) (.notProperty tag.kindName)

def taggedNames (members : List MemberDeclaration) : List String :=
  (members.filter MemberDeclaration.isTagged).map MemberDeclaration.name

/-- The members can be prompted for together. -/
structure WellTagged (members : List MemberDeclaration) : Prop where
  single : ∀ m ∈ members, m.tags ≠ [] → ∃ tag, m.tags = [tag]
  distinct : (taggedNames members).Nodup
  fitting : ∀ m ∈ members, ∀ tag ∈ m.tags, tag.Fits m.shape

/-- What is wrong with a member behind tagged members of the given names. -/
inductive MemberDeclaration.Offends (form : String) (taken : List String) (m : MemberDeclaration) :
    ModelError → Prop
  | conflict (several : 2 ≤ m.tags.length) :
      m.Offends form taken (.conflictingTags form m.name (m.tags.map PromptTag.kindName))
  | duplicate {tag : PromptTag} (single : m.tags = [tag]) (again : m.name ∈ taken) :
      m.Offends form taken (.duplicateMember form m.name)
  | misfit {tag : PromptTag} {misfit : TagMisfit} (single : m.tags = [tag])
      (fresh : m.name ∉ taken) (misfits : tag.Misfits m.shape misfit) :
      m.Offends form taken (.invalidMemberType form m.name misfit)

/-- The type of what is finally returned: deferrals are passed through, and a sequence is a list. -/
inductive ReturnShape.Settles : ReturnShape → Option FieldType → Prop
  | unit : Settles .unit none
  | value (type : FieldType) : Settles (.value type) (some type)
  | sequence (element : FieldType) : Settles (.sequence element) (some (.list element))
  | deferred {inner : ReturnShape} {type : Option FieldType} (settles : inner.Settles type) :
      Settles (.deferred inner) type

structure MemberSpec.StepOf (returns : ReturnShape) (spec : MemberSpec) : Prop where
  settles : returns.Settles spec.declaredType
  flavour : ∃ isAsync options, spec.kind = .taskStep isAsync options ∧
    (isAsync = true ↔ ∃ inner, returns = .deferred inner)

/-- The model has the tagged members of the declaration, in its order. -/
structure Declaration.Models (d : Declaration) (model : Model) : Prop where
  typeName : model.typeName = d.name
  culture : model.culture = d.culture
  members : List.Forall₂ MemberDeclaration.Specifies d.tagged model.members
  steps : List.Forall₂ (fun m spec => ∀ returns, m.shape = .method [] returns → spec.StepOf returns)
    d.tagged model.members

end Specification

section Rules
variable {form : String} {taken : List String} {m : MemberDeclaration} {tag : PromptTag}

theorem PromptTag.Fits.not_misfits {shape : MemberShape} (h : tag.Fits shape) (misfit : TagMisfit) :
    ¬ tag.Misfits shape misfit := by
  intro hMisfits
  cases hMisfits with
  | text options compound =>
    cases h with
    | text _ scalar => cases compound.symm.trans scalar
  | select options form =>
    cases h with
    | select _ noForm => exact noForm form rfl
  | nested noForm =>
    cases h with
    | nested form => exact noForm form rfl
  | stepParameters options some returns =>
    cases h with
    | step _ _ => exact some rfl
  | stepProperty options type => cases h
  | method prompts parameters returns =>
    cases h with
    | step options _ => exact prompts options rfl

theorem PromptTag.fits_or_misfits (tag : PromptTag) (shape : MemberShape) :
    tag.Fits shape ∨ ∃ misfit, tag.Misfits shape misfit := by
  have hForm (type : FieldType) : (∃ form, type = .form form) ∨ ∀ form, type ≠ .form form := by
    cases type <;> simp
  cases shape with
  | method parameters returns =>
    cases tag with
    | taskStep options =>
      cases parameters with
      | nil => exact .inl (.step options returns)
      | cons first rest => exact .inr ⟨_, .stepParameters options (List.cons_ne_nil _ _) returns⟩
    | _ => exact .inr ⟨_, .method (by simp) parameters returns⟩
  | property type =>
    cases tag with
    | textPrompt options =>
      cases hScalar : type.isScalar with
      | true => exact .inl (.text options hScalar)
      | false => exact .inr ⟨_, .text options hScalar⟩
    | selectPrompt options =>
      rcases hForm type with ⟨form, rfl⟩ | hNoForm
      · exact .inr ⟨_, .select options form⟩
      · exact .inl (.select options hNoForm)
    | taskStep options => exact .inr ⟨_, .stepProperty options type⟩
    | nestedForm =>
      rcases hForm type with ⟨form, rfl⟩ | hNoForm
      · exact .inl (.nested form)
      · exact .inr ⟨_, .nested hNoForm⟩

theorem MemberDeclaration.kindOf_of_fits (h : tag.Fits m.shape) :
    ∃ type kind, m.kindOf tag = .ok (type, kind) := by
  generalize hShape : m.shape = shape at h
  cases h with
  | text options scalar => simp [kindOf, hShape, scalar]
  | @select options type noForm => cases type <;> simp_all [kindOf]
  | nested form => simp [kindOf, hShape]
  | step options returns => simp [kindOf, hShape]

theorem MemberDeclaration.kindOf_of_misfits {misfit : TagMisfit} (h : tag.Misfits m.shape misfit) :
    m.kindOf tag = .error misfit := by
  generalize hShape : m.shape = shape at h
  cases h with
  | text options compound => simp [kindOf, hShape, compound]
  | select options form => simp [kindOf, hShape]
  | @nested type noForm => cases type <;> simp_all [kindOf]
  | @stepParameters options parameters some returns => cases parameters <;> simp_all [kindOf]
  | stepProperty options type => simp [kindOf, hShape]
  | method prompts parameters returns => cases tag <;> simp_all [kindOf]

theorem MemberDeclaration.tags_cases (form : String) (taken : List String) (m : MemberDeclaration) :
    m.tags = [] ∨ (∃ tag, m.tags = [tag] ∧ m.name ∉ taken ∧ tag.Fits m.shape) ∨
      ∃ e, m.Offends form taken e := by
  match hTags : m.tags with
  | [] => exact .inl rfl
  | [tag] =>
    refine .inr ?_
    by_cases hTaken : m.name ∈ taken
    · exact .inr ⟨_, .duplicate hTags hTaken⟩
    · refine (tag.fits_or_misfits m.shape).imp (fun hFits => ⟨tag, rfl, hTaken, hFits⟩) ?_
      rintro ⟨misfit, hMisfits⟩
      exact ⟨_, .misfit hTags hTaken hMisfits⟩
  | first :: second :: rest => exact .inr (.inr ⟨_, .conflict (by simp [hTags])⟩)

theorem MemberDeclaration.extract_of_fits (form : String) (hTags : m.tags = [tag]) (hFresh : m.name ∉ taken)
    (hFits : tag.Fits m.shape) : ∃ spec, m.extract form taken = .ok (some spec) := by
  obtain ⟨type, kind, hKind⟩ := kindOf_of_fits hFits
  simp [extract, hTags, hFresh, hKind]

namespace MemberDeclaration.Offends
variable {e : ModelError}

theorem extract (h : m.Offends form taken e) : m.extract form taken = .error e := by
  cases h with
  | conflict several =>
    match hTags : m.tags with
    | [] | [_] => simp [hTags] at several
    | first :: second :: rest => simp [MemberDeclaration.extract, hTags]
  | duplicate single again => simp [MemberDeclaration.extract, single, again]
  | misfit single fresh misfits =>
    simp [MemberDeclaration.extract, single, fresh, kindOf_of_misfits misfits]

theorem tags_ne_nil (h : m.Offends form taken e) : m.tags ≠ [] := by
  cases h with
  | conflict several =>
    rintro hNone
    simp [hNone] at several
  | duplicate single again => simp [single]
  | misfit single fresh misfits => simp [single]

theorem congr (h : m.Offends form taken e) {taken' : List String}
    (hSame : ∀ name, name ∈ taken' ↔ name ∈ taken) : m.Offends form taken' e := by
  cases h with
  | conflict several => exact .conflict several
  | duplicate single again => exact .duplicate single ((hSame _).mpr again)
  | misfit single fresh misfits =>
    exact .misfit single (fun hIn => fresh ((hSame _).mp hIn)) misfits

end MemberDeclaration.Offends
end Rules

section Members
variable {form : String} {taken : List String} {m : MemberDeclaration}
  {rest : List MemberDeclaration} {tag : PromptTag}

theorem taggedNames_untagged (h : m.tags = []) : taggedNames (m :: rest) = taggedNames rest := by
  simp [taggedNames, MemberDeclaration.isTagged, h]

theorem taggedNames_tagged (h : m.tags ≠ []) :
    taggedNames (m :: rest) = m.name :: taggedNames rest := by
  have hTagged : m.isTagged = true := by simp [MemberDeclaration.isTagged, h]
  rw [taggedNames, List.filter_cons_of_pos hTagged, List.map_cons, taggedNames]

structure WellTaggedAfter (taken : List String) (members : List MemberDeclaration) : Prop
    extends WellTagged members where
  fresh : ∀ name ∈ taggedNames members, name ∉ taken

theorem wellTaggedAfter_nil (taken : List String) : WellTaggedAfter taken [] :=
  ⟨⟨by simp, by simp [taggedNames], by simp⟩, by simp [taggedNames]⟩

theorem wellTaggedAfter_none {members : List MemberDeclaration} :
    WellTaggedAfter [] members ↔ WellTagged members :=
  ⟨WellTaggedAfter.toWellTagged, fun h => ⟨h, by simp⟩⟩

theorem wellTaggedAfter_untagged (h : m.tags = []) :
    WellTaggedAfter taken (m :: rest) ↔ WellTaggedAfter taken rest := by
  constructor
  · rintro ⟨⟨single, distinct, fitting⟩, fresh⟩
    rw [taggedNames_untagged h] at distinct fresh
    exact ⟨⟨(List.forall_mem_cons.mp single).2, distinct, (List.forall_mem_cons.mp fitting).2⟩,
      fresh⟩
  · rintro ⟨⟨single, distinct, fitting⟩, fresh⟩
    rw [← taggedNames_untagged h] at distinct fresh
    exact ⟨⟨List.forall_mem_cons.mpr ⟨fun hTags => absurd h hTags, single⟩, distinct,
      List.forall_mem_cons.mpr ⟨by simp [h], fitting⟩⟩, fresh⟩

theorem wellTaggedAfter_tagged (h : m.tags = [tag]) :
    WellTaggedAfter taken (m :: rest) ↔
      m.name ∉ taken ∧ tag.Fits m.shape ∧ WellTaggedAfter (m.name :: taken) rest := by
  have hNames : taggedNames (m :: rest) = m.name :: taggedNames rest :=
    taggedNames_tagged (by simp [h])
  constructor
  · rintro ⟨⟨single, distinct, fitting⟩, fresh⟩
    rw [hNames] at distinct fresh
    obtain ⟨hNew, distinct⟩ := List.nodup_cons.mp distinct
    obtain ⟨hFresh, fresh⟩ := List.forall_mem_cons.mp fresh
    obtain ⟨hFits, fitting⟩ := List.forall_mem_cons.mp fitting
    refine ⟨hFresh, hFits tag (by simp [h]), ⟨(List.forall_mem_cons.mp single).2, distinct, fitting⟩,
      fun name hName hTaken => ?_⟩
    rcases List.mem_cons.mp hTaken with rfl | hTaken
    · exact hNew hName
    · exact fresh name hName hTaken
  · rintro ⟨hFresh, hFits, ⟨single, distinct, fitting⟩, fresh⟩
    refine ⟨⟨List.forall_mem_cons.mpr ⟨fun _ => ⟨tag, h⟩, single⟩, ?_,
      List.forall_mem_cons.mpr ⟨by simpa [h] using hFits, fitting⟩⟩, ?_⟩
    · rw [hNames]
      exact List.nodup_cons.mpr ⟨fun hIn => fresh m.name hIn List.mem_cons_self, distinct⟩
    · rw [hNames]
      refine List.forall_mem_cons.mpr ⟨hFresh, fun name hName hTaken => ?_⟩
      exact fresh name hName (List.mem_cons_of_mem _ hTaken)

theorem MemberDeclaration.Offends.not_wellTaggedAfter {e : ModelError}
    (h : m.Offends form taken e) : ¬ WellTaggedAfter taken (m :: rest) := by
  intro hAfter
  have h' := h
  cases h with
  | conflict several =>
    obtain ⟨tag, hTags⟩ := hAfter.single m List.mem_cons_self h'.tags_ne_nil
    simp [hTags] at several
  | duplicate single again => exact ((wellTaggedAfter_tagged single).mp hAfter).1 again
  | misfit single fresh misfits =>
    exact ((wellTaggedAfter_tagged single).mp hAfter).2.1.not_misfits _ misfits

end Members

section Extraction
variable {form : String}

theorem extractAfter_untagged {taken : List String} {m : MemberDeclaration}
    {rest : List MemberDeclaration} (h : m.tags = []) :
    extractAfter form taken (m :: rest) = extractAfter form taken rest := by
  simp [extractAfter, MemberDeclaration.extract, h]

theorem extractAfter_ok_iff (form : String) (members : List MemberDeclaration) : ∀ taken,
    (∃ specs, extractAfter form taken members = .ok specs) ↔ WellTaggedAfter taken members := by
  induction members with
  | nil => exact fun taken => ⟨fun _ => wellTaggedAfter_nil taken, fun _ => ⟨[], rfl⟩⟩
  | cons m rest ih =>
    intro taken
    rcases m.tags_cases form taken with hNone | ⟨tag, hTags, hFresh, hFits⟩ | ⟨e, hOffends⟩
    · rw [extractAfter_untagged hNone, wellTaggedAfter_untagged hNone, ih]
    · obtain ⟨spec, hSpec⟩ := m.extract_of_fits form hTags hFresh hFits
      rw [wellTaggedAfter_tagged hTags, ← ih (m.name :: taken)]
      simp only [extractAfter, hSpec, Outcome.map_eq_ok]
      constructor
      · rintro ⟨_, later, hLater, -⟩
        exact ⟨hFresh, hFits, later, hLater⟩
      · rintro ⟨-, -, later, hLater⟩
        exact ⟨_, later, hLater, rfl⟩
    · refine ⟨?_, fun hAfter => absurd hAfter hOffends.not_wellTaggedAfter⟩
      rintro ⟨specs, hSpecs⟩
      simp only [extractAfter, hOffends.extract] at hSpecs
      cases hSpecs

theorem extractAfter_error_iff (members : List MemberDeclaration) : ∀ {taken : List String}
    {e : ModelError}, extractAfter form taken members = .error e ↔
      ∃ before m after, members = before ++ m :: after ∧ WellTaggedAfter taken before ∧
        m.Offends form (taggedNames before ++ taken) e := by
  induction members with
  | nil => simp [extractAfter]
  | cons m rest ih =>
    intro taken e
    rw [exists_split_cons]
    rcases m.tags_cases form taken with hNone | ⟨tag, hTags, hFresh, hFits⟩ | ⟨e', hOffends⟩
    · rw [extractAfter_untagged hNone, ih]
      constructor
      · rintro ⟨before, x, after, rfl, hBefore, hError⟩
        refine .inr ⟨before, x, after, rfl, (wellTaggedAfter_untagged hNone).mpr hBefore, ?_⟩
        rwa [taggedNames_untagged hNone]
      · rintro (⟨-, hError⟩ | ⟨before, x, after, rfl, hBefore, hError⟩)
        · exact absurd hNone hError.tags_ne_nil
        · refine ⟨before, x, after, rfl, (wellTaggedAfter_untagged hNone).mp hBefore, ?_⟩
          rwa [taggedNames_untagged hNone] at hError
    · obtain ⟨spec, hSpec⟩ := m.extract_of_fits form hTags hFresh hFits
      have hTaken (before : List MemberDeclaration) (name : String) :
          name ∈ taggedNames before ++ m.name :: taken ↔
            name ∈ taggedNames (m :: before) ++ taken := by
        rw [taggedNames_tagged (by simp [hTags]), List.mem_append, List.mem_cons, List.mem_append,
          List.mem_cons, or_left_comm, or_assoc]
      simp only [extractAfter, hSpec, Outcome.map_eq_error, ih]
      constructor
      · rintro ⟨before, x, after, rfl, hBefore, hError⟩
        exact .inr ⟨before, x, after, rfl,
          (wellTaggedAfter_tagged hTags).mpr ⟨hFresh, hFits, hBefore⟩,
          hError.congr fun name => (hTaken before name).symm⟩
      · rintro (⟨-, hError⟩ | ⟨before, x, after, rfl, hBefore, hError⟩)
        · cases hError.extract.symm.trans hSpec
        · exact ⟨before, x, after, rfl, ((wellTaggedAfter_tagged hTags).mp hBefore).2.2,
            hError.congr (hTaken before)⟩
    · simp only [extractAfter, hOffends.extract, Except.error.injEq]
      constructor
      · rintro rfl
        exact .inl ⟨wellTaggedAfter_nil taken, hOffends⟩
      · rintro (⟨-, hError⟩ | ⟨before, -, -, -, hBefore, -⟩)
        · exact Except.error.inj (hOffends.extract.symm.trans hError.extract)
        · exact absurd hBefore hOffends.not_wellTaggedAfter

theorem ReturnShape.settles_settledType? (returns : ReturnShape) :
    returns.Settles returns.settledType? := by
  induction returns with
  | unit => exact .unit
  | value type => exact .value type
  | sequence element => exact .sequence element
  | deferred inner ih => exact .deferred ih

theorem MemberDeclaration.Specifies.stepOf {m : MemberDeclaration} {spec : MemberSpec}
    (h : m.Specifies spec) {returns : ReturnShape} (hShape : m.shape = .method [] returns) :
    spec.StepOf returns := by
  cases h with
  | step options returns' tags shape =>
    cases shape.symm.trans hShape
    refine ⟨returns.settles_settledType?, returns.isDeferred, options, rfl, ?_⟩
    cases returns <;> simp [ReturnShape.isDeferred]
  | _ => simp_all

theorem Declaration.models_of_extract {d : Declaration} {model : Model} (h : d.extract = .ok model) :
    d.Models model := by
  obtain ⟨hMembers, -⟩ := extract_members h
  exact ⟨(extract_ok h).1, extract_culture h, hMembers,
    hMembers.imp fun m spec hSpec returns => hSpec.stepOf⟩

theorem Declaration.extract_ok_iff {d : Declaration} :
    (∃ model, d.extract = .ok model) ↔ WellTagged d.members := by
  rw [← wellTaggedAfter_none, ← extractAfter_ok_iff d.name d.members []]
  simp only [extract, Outcome.map_eq_ok]
  exact ⟨fun ⟨_, specs, hSpecs, _⟩ => ⟨specs, hSpecs⟩, fun ⟨specs, hSpecs⟩ => ⟨_, specs, hSpecs, rfl⟩⟩

theorem Declaration.extract_error_iff {d : Declaration} {e : ModelError} :
    d.extract = .error e ↔ ∃ before m after, d.members = before ++ m :: after ∧ WellTagged before ∧
      m.Offends d.name (taggedNames before) e := by
  rw [extract, Outcome.map_eq_error, extractAfter_error_iff]
  simp only [wellTaggedAfter_none, List.append_nil]

theorem MemberDeclaration.Offends.not_wellTagged_append {form : String} {m : MemberDeclaration}
    {e : ModelError} {before : List MemberDeclaration} (hBefore : WellTagged before)
    (h : m.Offends form (taggedNames before) e) : ¬ WellTagged (before ++ [m]) := by
  intro hAll
  let d : Declaration := { name := form, members := before ++ [m] }
  obtain ⟨model, hModel⟩ := d.extract_ok_iff.mpr hAll
  have hError : d.extract = .error e :=
    Declaration.extract_error_iff.mpr ⟨before, m, [], rfl, hBefore, h⟩
  cases hModel.symm.trans hError

/-- A declaration has a model exactly if its members are well tagged, and the model is then that of its
tagged members. Otherwise the first member that is not well tagged behind those before it is told, with
the first rule that it breaks. -/
theorem Declaration.extract_exact (d : Declaration) :
    ((∃ model, d.extractTraced.result = .ok model) ↔ WellTagged d.members) ∧
      (∀ model, d.extractTraced.result = .ok model → d.Models model) ∧
        ∀ e, d.extractTraced.result = .error e ↔
          ∃ before m after, d.members = before ++ m :: after ∧ WellTagged before ∧
            ¬ WellTagged (before ++ [m]) ∧ m.Offends d.name (taggedNames before) e := by
  simp only [extractTraced, Traced.result_of]
  refine ⟨extract_ok_iff, fun model => models_of_extract, fun e => ?_⟩
  rw [extract_error_iff]
  constructor
  · rintro ⟨before, m, after, hSplit, hBefore, hOffends⟩
    exact ⟨before, m, after, hSplit, hBefore, hOffends.not_wellTagged_append hBefore, hOffends⟩
  · rintro ⟨before, m, after, hSplit, hBefore, -, hOffends⟩
    exact ⟨before, m, after, hSplit, hBefore, hOffends⟩

end Extraction
end FormFlow
