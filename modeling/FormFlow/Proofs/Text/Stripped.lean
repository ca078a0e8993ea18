import FormFlow.Text.Basic
import Mathlib.Data.List.DropRight
/-!
# Stripped texts

What is left of a text without the blanks at both ends: it stands between blanks,
neither begins nor ends with one, and is empty exactly if the whole text is blank.
-/
namespace FormFlow.Text
variable {text core before after : List Char}

/-- The core of a text stands between blanks, and neither begins nor ends with one. -/
structure Stripped (text core : List Char) : Prop where
  between : ∃ before after, text = before ++ core ++ after ∧
    (∀ c ∈ before, isBlank c) ∧ ∀ c ∈ after, isBlank c
  head : ∀ c ∈ core.head?, ¬ isBlank c
  last : ∀ c ∈ core.getLast?, ¬ isBlank c

theorem dropWhile_blanks (hBlank : ∀ c ∈ before, isBlank c) (hHead : ∀ c ∈ core.head?, ¬ isBlank c) :
    (before ++ core).dropWhile isBlank = core := by
  rw [List.dropWhile_append_of_pos hBlank]
  cases core with
  | nil => rfl
  | cons c rest => exact List.dropWhile_cons_of_neg (hHead c rfl)

theorem Stripped.trimList_eq (h : Stripped text core) : trimList text = core := by
  obtain ⟨⟨before, after, rfl, hBefore, hAfter⟩, hHead, hLast⟩ := h
  have hRight : (core ++ after).reverse.dropWhile isBlank = core.reverse := by
    rw [List.reverse_append]
    apply dropWhile_blanks
    · exact fun c hc => hAfter c (List.mem_reverse.mp hc)
    · rwa [List.head?_reverse]
  unfold trimList
  cases core with
  | nil =>
    have hAll : ∀ c ∈ before ++ [] ++ after, isBlank c := by
      simpa using fun c hc => hc.elim (hBefore c) (hAfter c)
    rw [List.dropWhile_eq_nil_iff.mpr hAll]
    rfl
  | cons c rest =>
    have hLeft : (before ++ (c :: rest ++ after)).dropWhile isBlank = c :: rest ++ after :=
      dropWhile_blanks hBefore hHead
    rw [List.append_assoc, hLeft, hRight, List.reverse_reverse]

theorem stripped_trimList (text : List Char) : Stripped text (trimList text) := by
  have hTrim : trimList text = (text.dropWhile isBlank).rdropWhile isBlank := rfl
  refine ⟨⟨text.takeWhile isBlank, (text.dropWhile isBlank).rtakeWhile isBlank, ?_, ?_, ?_⟩, ?_, ?_⟩
  · rw [hTrim, List.append_assoc, List.rdropWhile_append_rtakeWhile,
      List.takeWhile_append_dropWhile]
  · exact fun c => List.mem_takeWhile_imp
  · exact fun c => List.mem_rtakeWhile_imp
  · intro c hc
    obtain ⟨rest, hRest⟩ := List.rdropWhile_prefix isBlank (text.dropWhile isBlank)
    obtain ⟨core, hCore⟩ := List.head?_eq_some_iff.mp hc
    rw [← hTrim, hCore] at hRest
    have hHead : (text.dropWhile isBlank).head? = some c := by rw [← hRest]; rfl
    have hNot := List.head?_dropWhile_not isBlank text
    rw [hHead] at hNot
    simpa using hNot
  · intro c hc
    obtain ⟨hNonempty, rfl⟩ := List.mem_getLast?_eq_getLast hc
    exact List.rdropWhile_last_not isBlank _ hNonempty

theorem stripped_iff : Stripped text core ↔ trimList text = core := by
  constructor
  · exact Stripped.trimList_eq
  · rintro rfl
    exact stripped_trimList text

theorem Stripped.eq_nil_iff (h : Stripped text core) : core = [] ↔ ∀ c ∈ text, isBlank c := by
  obtain ⟨⟨before, after, rfl, hBefore, hAfter⟩, hHead, -⟩ := h
  cases core with
  | nil => simpa using fun c hc => hc.elim (hBefore c) (hAfter c)
  | cons c rest =>
    have hFirst : ¬ isBlank c := hHead c rfl
    simp only [List.cons_ne_nil, false_iff]
    exact fun hAll => hFirst (hAll c (by simp))

end FormFlow.Text
