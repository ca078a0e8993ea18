import FormFlow.CommandLine.Assignment
import FormFlow.Proofs.Outcome
import FormFlow.Proofs.Text.Stripped
/-!
# What assignments supply

A list of texts supplies values exactly if each of them is an assignment: it has an
equals sign and more than blanks before the first one. A name then holds what the
last of the texts that assign to it assigns, where names are compared without the
blanks around them and values are taken as they stand. Hence further texts override
what the texts before them supply, name by name, and one text that is no assignment
spoils the list.
-/
namespace FormFlow

section Specification

structure PartedAt (text before after : String) : Prop where
  parts : text = before ++ "=" ++ after
  first : '=' ∉ before.toList

/-- The text has an equals sign and more than blanks before the first one. -/
def IsAssignment (text : String) : Prop :=
  ∃ before after, PartedAt text before after ∧ ∃ c ∈ before.toList, ¬ Text.isBlank c

/-- The text assigns the value to the name: what is behind the equals sign is a text of its own where
it cannot be read as a value. -/
inductive Assigns (read : String → Option Json) (text name : String) : Json → Prop
  | of {before after : String} (parted : PartedAt text before after)
      (stripped : Text.Stripped before.toList name.toList) (nonempty : name ≠ "") :
      Assigns read text name ((read after).getD (.str after))

inductive Malformed (text : String) : AssignmentError → Prop
  | missingValue (unparted : '=' ∉ text.toList) : Malformed text (.missingValue text)
  | emptyName {before after : String} (parted : PartedAt text before after)
      (blank : ∀ c ∈ before.toList, Text.isBlank c) : Malformed text (.emptyName text)

def Unassigned (read : String → Option Json) (texts : List String) (name : String) : Prop :=
  ∀ text ∈ texts, ∀ value, ¬ Assigns read text name value

/-- The value is what the last of the texts that assign to the name assigns. -/
def LastAssigns (read : String → Option Json) (texts : List String) (name : String) (value : Json) :
    Prop :=
  ∃ before text after, texts = before ++ text :: after ∧ Assigns read text name value ∧
    Unassigned read after name

/-- The table has the names that the texts assign to, each with the value that was last assigned. -/
structure Gathers (read : String → Option Json) (texts : List String) (fields : Fields) : Prop where
  sorted : Assoc.Sorted fields
  names : ∀ name, name ∈ Assoc.keys fields ↔ ∃ text ∈ texts, ∃ value, Assigns read text name value
  last : ∀ name value, Assoc.get? fields name = some value ↔ LastAssigns read texts name value

end Specification

section Texts
variable {read : String → Option Json} {text before after name : String} {value : Json}
  {e : AssignmentError}

theorem PartedAt.splitAssignment?_eq (h : PartedAt text before after) :
    splitAssignment? text = some (before, after) := by
  obtain ⟨rfl, hFirst⟩ := h
  have hText : (before ++ "=" ++ after).toList = before.toList ++ '=' :: after.toList := by simp
  have hBefore : ∀ c ∈ before.toList, (decide (c ≠ '=')) = true := fun c hc =>
    decide_eq_true fun hSame => hFirst (hSame ▸ hc)
  rw [splitAssignment?, hText, List.dropWhile_append_of_pos hBefore,
    List.takeWhile_append_of_pos hBefore]
  simp

theorem splitAssignment?_of_unparted (h : '=' ∉ text.toList) : splitAssignment? text = none := by
  have hDrop : text.toList.dropWhile (· ≠ '=') = [] :=
    List.dropWhile_eq_nil_iff.mpr fun c hc => decide_eq_true fun hSame => h (hSame ▸ hc)
  rw [splitAssignment?, hDrop]

theorem parted_of_mem (h : '=' ∈ text.toList) : ∃ before after, PartedAt text before after := by
  obtain ⟨before, after, hText, hFirst⟩ := List.eq_append_cons_of_mem h
  refine ⟨.ofList before, .ofList after, String.toList_injective ?_, by simpa using hFirst⟩
  simpa using hText

theorem Assigns.readAssignment_eq (h : Assigns read text name value) :
    readAssignment read text = .ok (name, value) := by
  cases h with
  | @of before after parted stripped nonempty =>
    have hTrim : Text.trim before = name := by
      rw [Text.trim, stripped.trimList_eq, String.ofList_toList]
    simp only [readAssignment, parted.splitAssignment?_eq, hTrim, if_neg nonempty]

theorem Malformed.readAssignment_eq (h : Malformed text e) (read : String → Option Json) :
    readAssignment read text = .error e := by
  cases h with
  | missingValue unparted => simp only [readAssignment, splitAssignment?_of_unparted unparted]
  | @emptyName before after parted blank =>
    have hTrim : Text.trim before = "" := by
      rw [Text.trim, (Text.stripped_trimList before.toList).eq_nil_iff.mpr blank]
    simp only [readAssignment, parted.splitAssignment?_eq, hTrim, if_true]

theorem Malformed.unique {other : AssignmentError} (h : Malformed text e)
    (hOther : Malformed text other) : e = other := by
  cases (h.readAssignment_eq fun _ => none).symm.trans (hOther.readAssignment_eq fun _ => none)
  rfl

theorem isAssignment_or_malformed (text : String) : IsAssignment text ∨ ∃ e, Malformed text e := by
  by_cases hMem : '=' ∈ text.toList
  · obtain ⟨before, after, hParted⟩ := parted_of_mem hMem
    by_cases hBlank : ∀ c ∈ before.toList, Text.isBlank c
    · exact .inr ⟨_, .emptyName hParted hBlank⟩
    · simp only [not_forall] at hBlank
      obtain ⟨c, hc, hNot⟩ := hBlank
      exact .inl ⟨before, after, hParted, c, hc, hNot⟩
  · exact .inr ⟨_, .missingValue hMem⟩

theorem IsAssignment.assigns (h : IsAssignment text) (read : String → Option Json) :
    ∃ name value, Assigns read text name value := by
  obtain ⟨before, after, hParted, c, hc, hNot⟩ := h
  have hStripped := Text.stripped_trimList before.toList
  have hCore : Text.trimList before.toList ≠ [] := fun hEmpty =>
    hNot (hStripped.eq_nil_iff.mp hEmpty c hc)
  refine ⟨.ofList (Text.trimList before.toList), _, .of hParted ?_ ?_⟩
  · rwa [String.toList_ofList]
  · simpa using hCore

theorem IsAssignment.not_malformed (h : IsAssignment text) (e : AssignmentError) :
    ¬ Malformed text e := by
  intro hMalformed
  obtain ⟨name, value, hAssigns⟩ := h.assigns fun _ => none
  cases hAssigns.readAssignment_eq.symm.trans (hMalformed.readAssignment_eq _)

theorem Assigns.unique {other : String} {held : Json} (h : Assigns read text name value)
    (hOther : Assigns read text other held) : name = other ∧ value = held := by
  cases h.readAssignment_eq.symm.trans hOther.readAssignment_eq
  exact ⟨rfl, rfl⟩

end Texts

section Lists
variable {read : String → Option Json} {text name : String} {value : Json} {rest : List String}
  {e : AssignmentError} {supplied fields : Fields}

theorem lastAssigns_cons : LastAssigns read (text :: rest) name value ↔
    LastAssigns read rest name value ∨ Unassigned read rest name ∧ Assigns read text name value := by
  constructor
  · rintro ⟨_ | ⟨first, before⟩, last, after, hSplit, hAssigns, hAfter⟩
    · obtain ⟨rfl, rfl⟩ := List.cons.inj hSplit
      exact .inr ⟨hAfter, hAssigns⟩
    · obtain ⟨rfl, rfl⟩ := List.cons.inj hSplit
      exact .inl ⟨before, last, after, rfl, hAssigns, hAfter⟩
  · rintro (⟨before, last, after, rfl, hAssigns, hAfter⟩ | ⟨hRest, hAssigns⟩)
    · exact ⟨text :: before, last, after, rfl, hAssigns, hAfter⟩
    · exact ⟨[], text, rest, rfl, hAssigns, hRest⟩

theorem unassigned_cons : Unassigned read (text :: rest) name ↔
    (∀ value, ¬ Assigns read text name value) ∧ Unassigned read rest name := List.forall_mem_cons

theorem unassigned_iff (texts : List String) :
    Unassigned read texts name ↔ ∀ value, ¬ LastAssigns read texts name value := by
  induction texts with
  | nil => simp [Unassigned, LastAssigns]
  | cons text rest ih =>
    simp only [unassigned_cons, lastAssigns_cons, not_or, not_and, forall_and]
    rw [← ih]
    constructor
    · rintro ⟨hFirst, hRest⟩
      exact ⟨hRest, fun value _ => hFirst value⟩
    · rintro ⟨hRest, hFirst⟩
      exact ⟨fun value => hFirst value hRest, hRest⟩

theorem exists_lastAssigns_iff (texts : List String) :
    (∃ value, LastAssigns read texts name value) ↔
      ∃ text ∈ texts, ∃ value, Assigns read text name value := by
  have hNone : Unassigned read texts name ↔ _ := unassigned_iff texts
  simpa [Unassigned] using (not_congr hNone).symm

theorem assignInto_assigns (h : Assigns read text name value) :
    assignInto read supplied (text :: rest) =
      assignInto read (Assoc.insert supplied name value) rest := by
  simp only [assignInto, h.readAssignment_eq]

theorem assignInto_malformed (h : Malformed text e) :
    assignInto read supplied (text :: rest) = .error e := by
  simp only [assignInto, h.readAssignment_eq]

theorem exists_assigns_of_assignInto (h : assignInto read supplied (text :: rest) = .ok fields) :
    ∃ name value, Assigns read text name value ∧
      assignInto read (Assoc.insert supplied name value) rest = .ok fields := by
  rcases isAssignment_or_malformed text with hFirst | ⟨e, hMalformed⟩
  · obtain ⟨name, value, hAssigns⟩ := hFirst.assigns read
    exact ⟨name, value, hAssigns, (assignInto_assigns hAssigns).symm.trans h⟩
  · cases (assignInto_malformed hMalformed).symm.trans h

theorem assignInto_ok_iff (texts : List String) : ∀ {supplied : Fields},
    (∃ fields, assignInto read supplied texts = .ok fields) ↔ ∀ text ∈ texts, IsAssignment text := by
  induction texts with
  | nil => exact fun {supplied} => ⟨by simp, fun _ => ⟨supplied, rfl⟩⟩
  | cons text rest ih =>
    intro supplied
    rw [List.forall_mem_cons]
    rcases isAssignment_or_malformed text with hFirst | ⟨e, hMalformed⟩
    · obtain ⟨name, value, hAssigns⟩ := hFirst.assigns read
      rw [assignInto_assigns hAssigns, ih]
      exact (and_iff_right hFirst).symm
    · rw [assignInto_malformed hMalformed]
      exact ⟨nofun, fun h => absurd hMalformed (h.1.not_malformed e)⟩

theorem assignInto_error_iff (texts : List String) : ∀ {supplied : Fields},
    assignInto read supplied texts = .error e ↔ ∃ before text after,
      texts = before ++ text :: after ∧ (∀ other ∈ before, IsAssignment other) ∧ Malformed text e := by
  induction texts with
  | nil => simp [assignInto]
  | cons text rest ih =>
    intro supplied
    rw [exists_split_cons]
    simp only [List.not_mem_nil, IsEmpty.forall_iff, implies_true, true_and, List.forall_mem_cons]
    rcases isAssignment_or_malformed text with hFirst | ⟨e', hMalformed⟩
    · obtain ⟨name, value, hAssigns⟩ := hFirst.assigns read
      simp only [assignInto_assigns hAssigns, ih, hFirst, true_and, hFirst.not_malformed, false_or]
    · rw [assignInto_malformed hMalformed, Except.error.injEq]
      constructor
      · rintro rfl
        exact .inl hMalformed
      · rintro (hOther | ⟨-, -, -, -, ⟨hFirst, -⟩, -⟩)
        · exact hMalformed.unique hOther
        · exact absurd hMalformed (hFirst.not_malformed e')

theorem sorted_assignInto (texts : List String) : ∀ {supplied : Fields}, Assoc.Sorted supplied →
    assignInto read supplied texts = .ok fields → Assoc.Sorted fields := by
  induction texts with
  | nil =>
    intro supplied hSorted h
    cases h
    exact hSorted
  | cons text rest ih =>
    intro supplied hSorted h
    obtain ⟨name, value, -, hRest⟩ := exists_assigns_of_assignInto h
    exact ih (Assoc.sorted_insert name value hSorted) hRest

theorem Assigns.get?_insert {key : String} {held : Json} (h : Assigns read text key held) :
    Assoc.get? (Assoc.insert supplied key held) name = some value ↔
      Assigns read text name value ∨
        (∀ other, ¬ Assigns read text name other) ∧ Assoc.get? supplied name = some value := by
  by_cases hKey : key = name
  · subst hKey
    rw [Assoc.get?_insert_self, Option.some.injEq]
    constructor
    · rintro rfl
      exact .inl h
    · rintro (hAssigns | ⟨hNone, -⟩)
      · exact (h.unique hAssigns).2
      · exact absurd h (hNone held)
  · have hNone (other : Json) : ¬ Assigns read text name other := fun hAssigns =>
      hKey (h.unique hAssigns).1
    simp only [Assoc.get?_insert_of_ne supplied held (Ne.symm hKey), hNone, false_or,
      not_false_eq_true, implies_true, true_and]

theorem get?_assignInto (texts : List String) : ∀ {supplied : Fields},
    assignInto read supplied texts = .ok fields →
      (Assoc.get? fields name = some value ↔ LastAssigns read texts name value ∨
        Unassigned read texts name ∧ Assoc.get? supplied name = some value) := by
  induction texts with
  | nil =>
    intro supplied h
    cases h
    simp [LastAssigns, Unassigned]
  | cons text rest ih =>
    intro supplied h
    obtain ⟨key, held, hAssigns, hRest⟩ := exists_assigns_of_assignInto h
    rw [ih hRest, hAssigns.get?_insert, lastAssigns_cons, unassigned_cons]
    tauto

theorem gathers_of_assignInto {texts : List String} (h : assignInto read [] texts = .ok fields) :
    Gathers read texts fields := by
  have hLast (name : String) (value : Json) :
      Assoc.get? fields name = some value ↔ LastAssigns read texts name value := by
    simp [get?_assignInto texts h]
  have hEmpty : Assoc.Sorted ([] : Fields) := .nil
  refine ⟨sorted_assignInto texts hEmpty h, fun name => ?_, hLast⟩
  rw [← Assoc.contains_iff, Assoc.contains, Option.isSome_iff_exists, ← exists_lastAssigns_iff]
  exact exists_congr (hLast name)

theorem assignInto_append {texts more : List String} : ∀ {supplied : Fields},
    assignInto read supplied texts = .ok fields →
      assignInto read supplied (texts ++ more) = assignInto read fields more := by
  induction texts with
  | nil =>
    intro supplied h
    cases h
    rfl
  | cons text rest ih =>
    intro supplied h
    obtain ⟨name, value, hAssigns, hRest⟩ := exists_assigns_of_assignInto h
    rw [List.cons_append, assignInto_assigns hAssigns, ih hRest]

theorem assignInto_overrides {texts : List String} {assigned : Fields}
    (h : assignInto read [] texts = .ok assigned) (supplied : Fields) :
    ∃ all, assignInto read supplied texts = .ok all ∧ ∀ name,
      Assoc.get? all name = (Assoc.get? assigned name).or (Assoc.get? supplied name) := by
  obtain ⟨all, hAll⟩ := (assignInto_ok_iff texts).mpr ((assignInto_ok_iff texts).mp ⟨assigned, h⟩)
  refine ⟨all, hAll, fun name => Option.ext fun value => ?_⟩
  have hNone : Assoc.get? assigned name = none ↔ Unassigned read texts name := by
    rw [unassigned_iff, Option.eq_none_iff_forall_ne_some]
    exact forall_congr' fun value => not_congr ((gathers_of_assignInto h).last name value)
  rw [Option.or_eq_some_iff, get?_assignInto texts hAll, (gathers_of_assignInto h).last, hNone]

end Lists

/-- Texts supply values exactly if each is an assignment, and then each name holds what was last
assigned to it. Otherwise the first text that is no assignment is told. Of two lists one behind the
other, the second one overrides the first, name by name. -/
theorem assign_exact (read : String → Option Json) (texts : List String) :
    ((∃ fields, assignInto read [] texts = .ok fields) ↔ ∀ text ∈ texts, IsAssignment text) ∧
      (∀ fields, assignInto read [] texts = .ok fields → Gathers read texts fields) ∧
        (∀ e, assignInto read [] texts = .error e ↔ ∃ before text after,
          texts = before ++ text :: after ∧ (∀ other ∈ before, IsAssignment other) ∧
            Malformed text e) ∧
          ∀ more first second, assignInto read [] texts = .ok first →
            assignInto read [] more = .ok second →
              ∃ all, assignInto read [] (texts ++ more) = .ok all ∧ ∀ name,
                Assoc.get? all name = (Assoc.get? second name).or (Assoc.get? first name) := by
  refine ⟨assignInto_ok_iff texts, fun fields => gathers_of_assignInto,
    fun e => assignInto_error_iff texts, fun more first second hFirst hSecond => ?_⟩
  obtain ⟨all, hAll, hOverrides⟩ := assignInto_overrides hSecond first
  exact ⟨all, (assignInto_append hFirst).trans hAll, hOverrides⟩

namespace Sample

def counts : List String := ["note=a=b", " count = 1", "count=[1 "]

theorem counts_assigned :
    LastAssigns Json.read? counts "count" (.str "[1 ") ∧
      LastAssigns Json.read? counts "note" (.str "a=b") ∧
      (∃ all, assign (counts ++ ["note =3"]) = .ok all ∧
        Assoc.get? all "note" = some (.int 3) ∧ Assoc.get? all "count" = some (.str "[1 ")) ∧
      assign (counts ++ [" =1", "x"]) = .error (.emptyName " =1") := by
  obtain ⟨hAssignments, hGathers, -, hOverrides⟩ := assign_exact Json.read? counts
  have hCounts : assignInto Json.read? [] counts =
      .ok [("count", .str "[1 "), ("note", .str "a=b")] := rfl
  have hLast := (hGathers _ hCounts).last
  obtain ⟨all, hAll, hHeld⟩ := hOverrides ["note =3"] _ [("note", .int 3)] hCounts rfl
  refine ⟨(hLast _ _).mp rfl, (hLast _ _).mp rfl, ⟨all, hAll, hHeld "note", hHeld "count"⟩, ?_⟩
  have hParted : PartedAt " =1" " " "1" := ⟨by decide, by decide⟩
  apply ((assign_exact Json.read? (counts ++ [" =1", "x"])).2.2.1 _).mpr
  exact ⟨counts, " =1", ["x"], rfl, hAssignments.mp ⟨_, hCounts⟩,
    .emptyName hParted (List.all_eq_true.mp rfl)⟩

end Sample
end FormFlow
