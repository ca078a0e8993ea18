import FormFlow.Catalog.Loading
import FormFlow.Proofs.Outcome
import Mathlib.Data.List.Nodup
/-!
# Valid declaration lists and the catalogs of them

A list of declarations is valid exactly if its type names are identifiers and
distinct and no member is without a name; otherwise the first declaration that
breaks a rule behind those before it is told, with the first rule that it breaks.
The rule on distinct names is what keeps a catalog from dropping a declaration
for a later one, so that a catalog that is loaded has those of its list and no
others. Tables that are attached later change no declaration.
-/
namespace FormFlow

section Specification

/-- The name has only characters that a type name may have. -/
def Identifier (name : String) : Prop :=
  ∀ c ∈ name.toList, Text.isAlphanumeric c = true ∨ c = '_'

/-- The declarations can stand together in a catalog. -/
structure WellNamed (declarations : List Declaration) : Prop where
  nonempty : ∀ d ∈ declarations, d.name ≠ ""
  identifiers : ∀ d ∈ declarations, Identifier d.name
  distinct : (declarations.map Declaration.name).Nodup
  members : ∀ d ∈ declarations, ∀ m ∈ d.members, m.name ≠ ""

/-- What is wrong with a declaration behind declarations of the given names. -/
inductive Declaration.Violates (taken : List String) (d : Declaration) : ValidationError → Prop
  | emptyName (empty : d.name = "") : d.Violates taken .emptyTypeName
  | badName (nonempty : d.name ≠ "") (bad : ¬ Identifier d.name) :
      d.Violates taken (.badTypeName d.name)
  | duplicate (nonempty : d.name ≠ "") (identifier : Identifier d.name) (again : d.name ∈ taken) :
      d.Violates taken (.duplicateType d.name)
  | emptyMember (nonempty : d.name ≠ "") (identifier : Identifier d.name) (fresh : d.name ∉ taken)
      {before after : List MemberDeclaration} {m : MemberDeclaration}
      (members : d.members = before ++ m :: after) (named : ∀ other ∈ before, other.name ≠ "")
      (unnamed : m.name = "") : d.Violates taken (.emptyMemberName d.name m.shape)

/-- The catalog has the declarations of the list, each under its own name, and no others. -/
structure Catalog.Holds (c : Catalog) (declarations : List Declaration) : Prop where
  size : c.all.length = declarations.length
  found : ∀ d ∈ declarations, c.declaration? d.name = some d
  only : ∀ t d, c.declaration? t = some d → d ∈ declarations
  names : c.typeNames.Perm (declarations.map Declaration.name)
  ascending : c.typeNames.Pairwise (· < ·)

end Specification

section Rules
variable {d : Declaration} {rest : List Declaration} {taken : List String} {e : ValidationError}

theorem isIdentifier_iff {name : String} : isIdentifier name = true ↔ Identifier name := by
  simp [isIdentifier, Identifier]

instance (name : String) : Decidable (Identifier name) := decidable_of_iff _ isIdentifier_iff

structure Declaration.Admissible (taken : List String) (d : Declaration) : Prop where
  nonempty : d.name ≠ ""
  identifier : Identifier d.name
  fresh : d.name ∉ taken
  members : ∀ m ∈ d.members, m.name ≠ ""

theorem Declaration.Admissible.violation?_eq (h : d.Admissible taken) :
    d.violation? taken = none := by
  have hMembers : d.members.find? (fun m => m.name = "") = none := by
    simpa [List.find?_eq_none] using h.members
  simp [violation?, h.nonempty, isIdentifier_iff.mpr h.identifier, h.fresh, hMembers]

theorem Declaration.Violates.violation?_eq (h : d.Violates taken e) :
    d.violation? taken = some e := by
  cases h with
  | emptyName empty => simp [violation?, empty]
  | badName nonempty bad => simp [violation?, nonempty, isIdentifier_iff, bad]
  | duplicate nonempty identifier again =>
    simp [violation?, nonempty, isIdentifier_iff.mpr identifier, again]
  | @emptyMember nonempty identifier fresh before after m members named unnamed =>
    have hFind : d.members.find? (fun m => m.name = "") = some m := by
      rw [members, List.find?_append, List.find?_eq_none.mpr (by simpa using named)]
      simp [unnamed]
    simp [violation?, nonempty, isIdentifier_iff.mpr identifier, fresh, hFind]

theorem Declaration.admissible_or_violates (taken : List String) (d : Declaration) :
    d.Admissible taken ∨ ∃ e, d.Violates taken e := by
  by_cases hEmpty : d.name = ""
  · exact .inr ⟨_, .emptyName hEmpty⟩
  by_cases hIdentifier : Identifier d.name
  · by_cases hTaken : d.name ∈ taken
    · exact .inr ⟨_, .duplicate hEmpty hIdentifier hTaken⟩
    · cases hFind : d.members.find? (fun m => m.name = "") with
      | none => exact .inl ⟨hEmpty, hIdentifier, hTaken, by simpa using hFind⟩
      | some m =>
        obtain ⟨hUnnamed, before, after, hMembers, hNamed⟩ := List.find?_eq_some_iff_append.mp hFind
        exact .inr ⟨_, .emptyMember hEmpty hIdentifier hTaken hMembers (by simpa using hNamed)
          (by simpa using hUnnamed)⟩
  · exact .inr ⟨_, .badName hEmpty hIdentifier⟩

theorem Declaration.Violates.congr (h : d.Violates taken e) {taken' : List String}
    (hSame : ∀ name, name ∈ taken' ↔ name ∈ taken) : d.Violates taken' e := by
  cases h with
  | emptyName empty => exact .emptyName empty
  | badName nonempty bad => exact .badName nonempty bad
  | duplicate nonempty identifier again =>
    exact .duplicate nonempty identifier ((hSame _).mpr again)
  | emptyMember nonempty identifier fresh members named unnamed =>
    exact .emptyMember nonempty identifier (fun hIn => fresh ((hSame _).mp hIn)) members named unnamed

structure WellNamedAfter (taken : List String) (declarations : List Declaration) : Prop
    extends WellNamed declarations where
  fresh : ∀ d ∈ declarations, d.name ∉ taken

theorem wellNamedAfter_nil (taken : List String) : WellNamedAfter taken [] :=
  ⟨⟨by simp, by simp, by simp, by simp⟩, by simp⟩

theorem wellNamedAfter_none {declarations : List Declaration} :
    WellNamedAfter [] declarations ↔ WellNamed declarations :=
  ⟨WellNamedAfter.toWellNamed, fun h => ⟨h, by simp⟩⟩

theorem wellNamedAfter_cons :
    WellNamedAfter taken (d :: rest) ↔ d.Admissible taken ∧ WellNamedAfter (d.name :: taken) rest := by
  constructor
  · rintro ⟨⟨nonempty, identifiers, distinct, members⟩, fresh⟩
    rw [List.forall_mem_cons] at nonempty identifiers members fresh
    obtain ⟨hNew, distinct⟩ := List.nodup_cons.mp distinct
    refine ⟨⟨nonempty.1, identifiers.1, fresh.1, members.1⟩,
      ⟨nonempty.2, identifiers.2, distinct, members.2⟩, fun other hOther hTaken => ?_⟩
    rcases List.mem_cons.mp hTaken with hSame | hTaken
    · exact hNew (hSame ▸ List.mem_map_of_mem hOther)
    · exact fresh.2 other hOther hTaken
  · rintro ⟨hFirst, ⟨nonempty, identifiers, distinct, members⟩, fresh⟩
    refine ⟨⟨List.forall_mem_cons.mpr ⟨hFirst.nonempty, nonempty⟩,
      List.forall_mem_cons.mpr ⟨hFirst.identifier, identifiers⟩, ?_,
      List.forall_mem_cons.mpr ⟨hFirst.members, members⟩⟩,
      List.forall_mem_cons.mpr ⟨hFirst.fresh, fun other hOther hTaken =>
        fresh other hOther (List.mem_cons_of_mem _ hTaken)⟩⟩
    refine List.nodup_cons.mpr ⟨fun hIn => ?_, distinct⟩
    obtain ⟨other, hOther, hSame⟩ := List.mem_map.mp hIn
    exact fresh other hOther (hSame ▸ List.mem_cons_self)

theorem Declaration.Violates.not_wellNamedAfter (h : d.Violates taken e) :
    ¬ WellNamedAfter taken (d :: rest) := by
  intro hAfter
  cases (wellNamedAfter_cons.mp hAfter).1.violation?_eq.symm.trans h.violation?_eq

end Rules

section Validation

theorem validateAfter_admissible {d : Declaration} {rest : List Declaration} {taken : List String}
    (h : d.Admissible taken) :
    validateAfter taken (d :: rest) = validateAfter (d.name :: taken) rest := by
  simp [validateAfter, h.violation?_eq]

theorem validateAfter_violates {d : Declaration} {rest : List Declaration} {taken : List String}
    {e : ValidationError} (h : d.Violates taken e) : validateAfter taken (d :: rest) = .error e := by
  simp [validateAfter, h.violation?_eq]

theorem validateAfter_ok_iff (declarations : List Declaration) : ∀ {taken : List String},
    validateAfter taken declarations = .ok () ↔ WellNamedAfter taken declarations := by
  induction declarations with
  | nil => exact fun {taken} => ⟨fun _ => wellNamedAfter_nil taken, fun _ => rfl⟩
  | cons d rest ih =>
    intro taken
    rcases d.admissible_or_violates taken with hFirst | ⟨e, hViolates⟩
    · rw [validateAfter_admissible hFirst, wellNamedAfter_cons, ih]
      exact (and_iff_right hFirst).symm
    · rw [validateAfter_violates hViolates]
      exact ⟨nofun, fun hAfter => absurd hAfter hViolates.not_wellNamedAfter⟩

theorem validateAfter_error_iff (declarations : List Declaration) : ∀ {taken : List String}
    {e : ValidationError}, validateAfter taken declarations = .error e ↔
      ∃ before d after, declarations = before ++ d :: after ∧ WellNamedAfter taken before ∧
        d.Violates (before.map Declaration.name ++ taken) e := by
  induction declarations with
  | nil => simp [validateAfter]
  | cons d rest ih =>
    intro taken e
    rw [exists_split_cons]
    rcases d.admissible_or_violates taken with hFirst | ⟨e', hViolates⟩
    · -- The names taken come in another order than those of the declarations before.
      have hTaken (before : List Declaration) (name : String) :
          name ∈ before.map Declaration.name ++ d.name :: taken ↔
            name ∈ (d :: before).map Declaration.name ++ taken := by
        simp [or_left_comm]
      rw [validateAfter_admissible hFirst, ih]
      constructor
      · rintro ⟨before, x, after, rfl, hBefore, hError⟩
        exact .inr ⟨before, x, after, rfl, wellNamedAfter_cons.mpr ⟨hFirst, hBefore⟩,
          hError.congr fun name => (hTaken before name).symm⟩
      · rintro (⟨-, hError⟩ | ⟨before, x, after, rfl, hBefore, hError⟩)
        · cases hFirst.violation?_eq.symm.trans hError.violation?_eq
        · exact ⟨before, x, after, rfl, (wellNamedAfter_cons.mp hBefore).2,
            hError.congr (hTaken before)⟩
    · rw [validateAfter_violates hViolates, Except.error.injEq]
      constructor
      · rintro rfl
        exact .inl ⟨wellNamedAfter_nil taken, hViolates⟩
      · rintro (⟨-, hError⟩ | ⟨before, -, -, -, hBefore, -⟩)
        · exact Option.some.inj (hViolates.violation?_eq.symm.trans hError.violation?_eq)
        · exact absurd hBefore hViolates.not_wellNamedAfter

theorem validate_ok_iff {declarations : List Declaration} :
    validate declarations = .ok () ↔ WellNamed declarations :=
  (validateAfter_ok_iff declarations).trans wellNamedAfter_none

theorem validate_error_iff {declarations : List Declaration} {e : ValidationError} :
    validate declarations = .error e ↔ ∃ before d after, declarations = before ++ d :: after ∧
      WellNamed before ∧ d.Violates (before.map Declaration.name) e := by
  simp only [validate, validateAfter_error_iff, wellNamedAfter_none, List.append_nil]

theorem Declaration.Violates.not_wellNamed_append {d : Declaration} {e : ValidationError}
    {before : List Declaration} (hBefore : WellNamed before)
    (h : d.Violates (before.map Declaration.name) e) : ¬ WellNamed (before ++ [d]) := by
  intro hAll
  have hError : validate (before ++ [d]) = .error e :=
    validate_error_iff.mpr ⟨before, d, [], rfl, hBefore, h⟩
  cases (validate_ok_iff.mpr hAll).symm.trans hError

end Validation

namespace Catalog

section Loading
variable {declarations : List Declaration} {t : String} {d : Declaration}

theorem mem_of_foldl_declare :
    ∀ {c : Catalog} {entry : String × Declaration},
      entry ∈ (declarations.foldl declare c).declarations →
        entry ∈ c.declarations ∨ entry.2 ∈ declarations := by
  induction declarations with
  | nil => exact fun h => .inl h
  | cons d rest ih =>
    intro c entry h
    rcases ih h with hBefore | hRest
    · have hInsert : ∀ e ∈ Assoc.insert c.declarations d.name d, e ∈ c.declarations ∨ e.2 = d :=
        Assoc.forall_insert (fun e he => .inl he) (.inr rfl)
      refine (hInsert entry hBefore).imp_right ?_
      rintro rfl
      exact List.mem_cons_self
    · exact .inr (List.mem_cons_of_mem d hRest)

theorem mem_of_ofDeclarations (h : (ofDeclarations declarations).declaration? t = some d) :
    d ∈ declarations :=
  (mem_of_foldl_declare (Assoc.mem_of_get? h)).resolve_left List.not_mem_nil

theorem declaration?_declare_self (c : Catalog) (d : Declaration) :
    (c.declare d).declaration? d.name = some d := Assoc.get?_insert_self _ _ _

theorem declaration?_declare_of_ne (c : Catalog) {d : Declaration} (h : t ≠ d.name) :
    (c.declare d).declaration? t = c.declaration? t := Assoc.get?_insert_of_ne _ _ h

theorem declaration?_foldl_declare_of_fresh (hFresh : t ∉ declarations.map Declaration.name) :
    ∀ {c : Catalog}, (declarations.foldl declare c).declaration? t = c.declaration? t := by
  induction declarations with
  | nil => exact rfl
  | cons d rest ih =>
    intro c
    obtain ⟨hFirst, hRest⟩ := List.ne_and_not_mem_of_not_mem_cons hFresh
    rw [List.foldl_cons, ih hRest, declaration?_declare_of_ne c hFirst]

theorem declaration?_foldl_declare (hDistinct : (declarations.map Declaration.name).Nodup) :
    ∀ {c : Catalog}, ∀ d ∈ declarations,
      (declarations.foldl declare c).declaration? d.name = some d := by
  induction declarations with
  | nil => exact fun d hd => absurd hd List.not_mem_nil
  | cons first rest ih =>
    intro c d hd
    obtain ⟨hFresh, hDistinct⟩ := List.nodup_cons.mp hDistinct
    rw [List.foldl_cons]
    rcases List.mem_cons.mp hd with rfl | hRest
    · rw [declaration?_foldl_declare_of_fresh hFresh, declaration?_declare_self]
    · exact ih hDistinct d hRest

theorem all_perm_ofDeclarations (hDistinct : (declarations.map Declaration.name).Nodup) :
    (ofDeclarations declarations).all.Perm declarations := by
  have hNames : (ofDeclarations declarations).all.map Declaration.name =
      (ofDeclarations declarations).typeNames := by
    rw [all, List.map_map]
    exact List.map_congr_left fun entry hEntry => ((ofDeclarations declarations).keyed entry hEntry).symm
  have hNodup : (ofDeclarations declarations).all.Nodup := by
    apply List.Nodup.of_map Declaration.name
    rw [hNames]
    exact nodup_typeNames _
  rw [List.perm_ext_iff_of_nodup hNodup (hDistinct.of_map Declaration.name)]
  intro d
  rw [mem_all_iff]
  exact ⟨mem_of_ofDeclarations, declaration?_foldl_declare hDistinct d⟩

theorem holds_ofDeclarations (h : WellNamed declarations) :
    (ofDeclarations declarations).Holds declarations where
  size := (all_perm_ofDeclarations h.distinct).length_eq
  found := declaration?_foldl_declare h.distinct
  only _ _ := mem_of_ofDeclarations
  names := by
    rw [List.perm_ext_iff_of_nodup (nodup_typeNames _) h.distinct]
    intro t
    rw [mem_typeNames_iff, List.mem_map]
    constructor
    · rintro ⟨d, hDeclared⟩
      exact ⟨d, mem_of_ofDeclarations hDeclared, name_of_declaration? hDeclared⟩
    · rintro ⟨d, hd, rfl⟩
      exact ⟨d, declaration?_foldl_declare h.distinct d hd⟩
  ascending := (ofDeclarations declarations).sorted

theorem ofText_ok_iff {text : String} (hRead : declarations? text = some declarations)
    {c : Catalog} : ofText text = .ok c ↔ WellNamed declarations ∧ c = ofDeclarations declarations := by
  rw [← validate_ok_iff]
  simp only [ofText, hRead]
  cases validate declarations with
  | error e => simp
  | ok => simp [eq_comm]

theorem member_ne_of_validate (h : validate declarations = .ok ()) {t : String} {d : Declaration}
    (hDeclared : (ofDeclarations declarations).declaration? t = some d) :
    ∀ m ∈ d.members, m.name ≠ "" :=
  (validate_ok_iff.mp h).members d (mem_of_ofDeclarations hDeclared)

end Loading

def bindAll (c : Catalog) (tables : List (String × BindingTable)) : Catalog :=
  tables.foldl (fun c entry => c.bind entry.1 entry.2) c

theorem declaration?_bindAll (c : Catalog) (tables : List (String × BindingTable)) (t : String) :
    (c.bindAll tables).declaration? t = c.declaration? t := by
  induction tables generalizing c with
  | nil => rfl
  | cons entry rest ih => exact ih (c.bind entry.1 entry.2)

end Catalog

/-- A list of declarations is valid exactly if it is well named, and then its catalog loses none of
them. Otherwise the first declaration that is not well named behind those before it is told, with the
first rule that it breaks. A catalog is loaded from a text exactly if the list in it is valid. -/
theorem validate_exact (declarations : List Declaration) :
    (validate declarations = .ok () ↔ WellNamed declarations) ∧
      (∀ e, validate declarations = .error e ↔
        ∃ before d after, declarations = before ++ d :: after ∧ WellNamed before ∧
          ¬ WellNamed (before ++ [d]) ∧ d.Violates (before.map Declaration.name) e) ∧
        (validate declarations = .ok () → (Catalog.ofDeclarations declarations).Holds declarations) ∧
          ∀ text, declarations? text = some declarations → ∀ c, Catalog.ofText text = .ok c ↔
            validate declarations = .ok () ∧ c = .ofDeclarations declarations := by
  refine ⟨validate_ok_iff, fun e => ?_, fun h => Catalog.holds_ofDeclarations (validate_ok_iff.mp h),
    fun text hRead c => ?_⟩
  · rw [validate_error_iff]
    constructor
    · rintro ⟨before, d, after, hSplit, hBefore, hViolates⟩
      exact ⟨before, d, after, hSplit, hBefore, hViolates.not_wellNamed_append hBefore, hViolates⟩
    · rintro ⟨before, d, after, hSplit, hBefore, -, hViolates⟩
      exact ⟨before, d, after, hSplit, hBefore, hViolates⟩
  · rw [Catalog.ofText_ok_iff hRead, validate_ok_iff]

namespace Sample

def tours : List Declaration := [
  { name := "Tour", culture := some "fr" },
  { name := "Été_2" },
  { name := "Guide" }]

def tourText : String := "- name: Tour\n  culture: fr\n- name: Été_2\n- name: Guide\n"

theorem tours_loaded :
    let forms := Catalog.ofDeclarations tours
    let again : Declaration :=
      { name := "Tour", members := [{ name := "", shape := .property .text }] }
    Catalog.ofText tourText = .ok forms ∧ forms.Holds tours ∧
      forms.typeNames = ["Guide", "Tour", "Été_2"] ∧
      validate (tours ++ [again, { name := "bad name" }]) = .error (.duplicateType "Tour") := by
  intro forms again
  have hNamed : WellNamed tours := ⟨by decide, by decide +kernel, by decide, by decide⟩
  have hRead : declarations? tourText = some tours := by decide +kernel
  have hAgain : again.Violates (tours.map Declaration.name) (.duplicateType "Tour") :=
    .duplicate (by decide) (by decide +kernel) (by decide)
  obtain ⟨hValid, -, hHolds, hLoads⟩ := validate_exact tours
  refine ⟨(hLoads tourText hRead forms).mpr ⟨hValid.mpr hNamed, rfl⟩, hHolds (hValid.mpr hNamed),
    by decide, ?_⟩
  apply ((validate_exact _).2.1 _).mpr
  exact ⟨tours, again, [_], rfl, hNamed, hAgain.not_wellNamed_append hNamed, hAgain⟩

end Sample
end FormFlow
