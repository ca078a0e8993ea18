import FormFlow.Coercion
import FormFlow.Json.Printer
import FormFlow.Proofs.Text.Stripped
/-!
# Integers read from answers

Which texts are read as an integer, and what is told of the others. A numeral is
at most one sign and then digits, and its value is that of all its digits, while
the reader looks at one digit after the other and stops as soon as what it has
read leaves the range of 64 bits. It comes to the same, since further digits only
lead further away from zero.
-/
namespace FormFlow

namespace Integer
variable {text body digits rest before after : List Char} {c : Char} {negative : Bool} {n : Int}
  {cause : IntegerError}

/-- The body stands behind the only sign at the front of the text, or there is none. -/
inductive Signed : List Char → Bool → List Char → Prop
  | minus (body : List Char) : Signed ('-' :: body) true body
  | plus (body : List Char) : Signed ('+' :: body) false body
  | bare {body : List Char} (noMinus : body.head? ≠ some '-') (noPlus : body.head? ≠ some '+') :
      Signed body false body

def valueOf (negative : Bool) (digits : List Char) : Int :=
  if negative then -(Nat.ofDigitChars 10 digits 0 : Int) else Nat.ofDigitChars 10 digits 0

/-- The numbers of 64 bits with a sign. -/
def InRange (n : Int) : Prop := -(Nat.pow 2 63 : Int) ≤ n ∧ n ≤ (Nat.pow 2 63 : Int) - 1

inductive Numeral : List Char → Int → Prop
  | of {text digits : List Char} {negative : Bool} (signed : Signed text negative digits)
      (nonempty : digits ≠ []) (decimal : ∀ c ∈ digits, c.isDigit) :
      Numeral text (valueOf negative digits)

/-- The first character that is no digit or takes the value out of range tells the cause; where there
is none, there is no digit at all. -/
inductive Rejects : List Char → IntegerError → Prop
  | empty : Rejects [] .empty
  | loneSign {text : List Char} {negative : Bool} (signed : Signed text negative [])
      (nonempty : text ≠ []) : Rejects text .invalidDigit
  | noDigit {text digits rest : List Char} {c : Char} {negative : Bool}
      (signed : Signed text negative (digits ++ c :: rest)) (decimal : ∀ d ∈ digits, d.isDigit)
      (fits : InRange (valueOf negative digits)) (bad : ¬ c.isDigit) : Rejects text .invalidDigit
  | outOfRange {text digits rest : List Char} {c : Char} {negative : Bool}
      (signed : Signed text negative (digits ++ c :: rest)) (decimal : ∀ d ∈ digits ++ [c], d.isDigit)
      (fits : InRange (valueOf negative digits)) (out : ¬ InRange (valueOf negative (digits ++ [c]))) :
      Rejects text (if negative then .tooSmall else .tooLarge)

theorem inRange_iff :
    InRange (valueOf negative digits) ↔ Nat.ofDigitChars 10 digits 0 ≤ bound negative := by
  have hPow : Nat.pow 2 63 = 9223372036854775808 := rfl
  cases negative with
  | true =>
    simp only [InRange, valueOf, bound, hPow, if_true]
    omega
  | false =>
    simp only [InRange, valueOf, bound, hPow, Bool.false_eq_true, if_false]
    omega

theorem le_ofDigitChars (digits : List Char) (value : Nat) :
    value ≤ Nat.ofDigitChars 10 digits value := by
  rw [Nat.ofDigitChars_eq_ofDigitChars_zero]
  exact Nat.le_add_right_of_le (Nat.le_mul_of_pos_left value (Nat.pow_pos (by decide)))

theorem splitSign_cons (hMinus : c ≠ '-') (hPlus : c ≠ '+') :
    Decimal.splitSign (c :: rest) = (false, c :: rest) := by
  unfold Decimal.splitSign
  split <;> simp_all

theorem Signed.splitSign_eq (h : Signed text negative body) :
    Decimal.splitSign text = (negative, body) := by
  cases h with
  | minus => rfl
  | plus => rfl
  | bare noMinus noPlus =>
    cases text with
    | nil => rfl
    | cons c rest => exact splitSign_cons (by simpa using noMinus) (by simpa using noPlus)

theorem exists_signed (text : List Char) : ∃ negative body, Signed text negative body := by
  by_cases hMinus : text.head? = some '-'
  · obtain ⟨rest, rfl⟩ := List.head?_eq_some_iff.mp hMinus
    exact ⟨true, rest, .minus rest⟩
  · by_cases hPlus : text.head? = some '+'
    · obtain ⟨rest, rfl⟩ := List.head?_eq_some_iff.mp hPlus
      exact ⟨false, rest, .plus rest⟩
    · exact ⟨false, text, .bare hMinus hPlus⟩

section Reading

theorem readDigits_append (hDecimal : ∀ d ∈ digits, d.isDigit) :
    ∀ {value : Nat}, Nat.ofDigitChars 10 digits value ≤ bound negative →
      readDigits negative value (digits ++ rest) =
        readDigits negative (Nat.ofDigitChars 10 digits value) rest := by
  induction digits with
  | nil => exact fun _ => rfl
  | cons d digits ih =>
    intro value hFits
    rw [List.forall_mem_cons] at hDecimal
    rw [Nat.ofDigitChars_cons] at hFits ⊢
    have hNext : 10 * value + (d.toNat - '0'.toNat) ≤ bound negative :=
      (le_ofDigitChars digits _).trans hFits
    rw [List.cons_append, readDigits, if_pos hDecimal.1]
    simp only [if_pos hNext]
    exact ih hDecimal.2 hFits

theorem Signed.read_eq (h : Signed text negative body) (hBody : body ≠ []) :
    read text = (readDigits negative 0 body).map fun n => if negative then -(n : Int) else n := by
  have hText : text ≠ [] := by
    rintro rfl
    cases h
    exact hBody rfl
  rw [read, if_neg hText, h.splitSign_eq]
  cases body with
  | nil => exact absurd rfl hBody
  | cons => rfl

theorem Numeral.read_eq (h : Numeral text n) (hRange : InRange n) : read text = .ok n := by
  obtain ⟨hSigned, hNonempty, hDecimal⟩ := h
  have hRead : readDigits _ 0 (_ ++ []) = _ := readDigits_append hDecimal (inRange_iff.mp hRange)
  rw [List.append_nil] at hRead
  rw [hSigned.read_eq hNonempty, hRead]
  rfl

theorem Rejects.read_eq (h : Rejects text cause) : read text = .error cause := by
  cases h with
  | empty => rfl
  | loneSign signed nonempty => rw [read, if_neg nonempty, signed.splitSign_eq]
  | noDigit signed decimal fits bad =>
    rw [signed.read_eq (by simp), readDigits_append decimal (inRange_iff.mp fits), readDigits,
      if_neg bad]
    rfl
  | @outOfRange text digits rest c negative signed decimal fits out =>
    simp only [List.forall_mem_append, List.forall_mem_singleton] at decimal
    rw [inRange_iff, Nat.ofDigitChars_append, Nat.ofDigitChars_cons, Nat.ofDigitChars_nil] at out
    rw [signed.read_eq (by simp), readDigits_append decimal.1 (inRange_iff.mp fits), readDigits,
      if_pos decimal.2]
    simp only [if_neg out]
    rfl

theorem Signed.fits_or_rejects (h : Signed text negative (body ++ rest)) :
    ((∀ d ∈ body, d.isDigit) ∧ InRange (valueOf negative body)) ∨ ∃ cause, Rejects text cause := by
  induction body using List.reverseRecOn generalizing rest with
  | nil =>
    refine .inl ⟨by simp, ?_⟩
    rw [inRange_iff]
    exact Nat.zero_le _
  | append_singleton body c ih =>
    rw [List.append_assoc] at h
    rcases ih h with ⟨hDecimal, hFits⟩ | hRejects
    · by_cases hDigit : c.isDigit
      · have hAll : ∀ d ∈ body ++ [c], d.isDigit := by
          rw [List.forall_mem_append, List.forall_mem_singleton]
          exact ⟨hDecimal, hDigit⟩
        by_cases hNext : InRange (valueOf negative (body ++ [c]))
        · exact .inl ⟨hAll, hNext⟩
        · exact .inr ⟨_, .outOfRange h hAll hFits hNext⟩
      · exact .inr ⟨_, .noDigit h hDecimal hFits hDigit⟩
    · exact .inr hRejects

theorem numeral_or_rejects (text : List Char) :
    (∃ n, Numeral text n ∧ InRange n) ∨ ∃ cause, Rejects text cause := by
  obtain ⟨negative, body, hSigned⟩ := exists_signed text
  by_cases hBody : body = []
  · subst hBody
    by_cases hText : text = []
    · subst hText
      exact .inr ⟨_, .empty⟩
    · exact .inr ⟨_, .loneSign hSigned hText⟩
  · have hWhole : Signed text negative (body ++ []) := by rwa [List.append_nil]
    rcases hWhole.fits_or_rejects with ⟨hDecimal, hFits⟩ | hRejects
    · exact .inl ⟨_, .of hSigned hBody hDecimal, hFits⟩
    · exact .inr hRejects

end Reading

section Writing

theorem not_isBlank_of_isDigit (h : c.isDigit) : ¬ Text.isBlank c := by
  obtain ⟨hLow, hHigh⟩ := Char.isDigit_iff_toNat.mp h
  have hZero : '0'.toNat = 48 := rfl
  have hNine : '9'.toNat = 57 := rfl
  simp only [Text.isBlank, Bool.or_eq_true, Bool.and_eq_true, decide_eq_true_eq, beq_iff_eq]
  omega

theorem Signed.mem (h : Signed text negative body) (hc : c ∈ text) : c = '-' ∨ c = '+' ∨ c ∈ body := by
  cases h with
  | minus => exact (List.mem_cons.mp hc).imp id .inr
  | plus => exact .inr (List.mem_cons.mp hc)
  | bare => exact .inr (.inr hc)

theorem Numeral.not_isBlank (h : Numeral text n) (hc : c ∈ text) : ¬ Text.isBlank c := by
  obtain ⟨hSigned, -, hDecimal⟩ := h
  rcases hSigned.mem hc with rfl | rfl | hDigit
  · decide
  · decide
  · exact not_isBlank_of_isDigit (hDecimal c hDigit)

theorem Numeral.stripped (h : Numeral text n) (hBefore : ∀ c ∈ before, Text.isBlank c)
    (hAfter : ∀ c ∈ after, Text.isBlank c) : Text.Stripped (before ++ text ++ after) text :=
  ⟨⟨before, after, rfl, hBefore, hAfter⟩, fun _ hc => h.not_isBlank (List.mem_of_mem_head? hc),
    fun _ hc => h.not_isBlank (List.mem_of_mem_getLast? hc)⟩

theorem numeral_of_digits (hNonempty : digits ≠ []) (hDecimal : ∀ c ∈ digits, c.isDigit) :
    Numeral digits (Nat.ofDigitChars 10 digits 0) := by
  have hHead : ∀ c, digits.head? = some c → c.isDigit := fun c hc =>
    hDecimal c (List.mem_of_mem_head? hc)
  have hBare : Signed digits false digits := by
    apply Signed.bare
    · exact fun hMinus => absurd (hHead _ hMinus) (by decide)
    · exact fun hPlus => absurd (hHead _ hPlus) (by decide)
  exact .of hBare hNonempty hDecimal

theorem numeral_display (n : Int) : Numeral (Json.int n).display.toList n := by
  have hDecimal (m : Nat) : ∀ c ∈ Nat.toDigits 10 m, c.isDigit := fun c =>
    Nat.isDigit_of_mem_toDigits (by decide) (by decide)
  have hRepr (m : Nat) : m.repr.toList = Nat.toDigits 10 m := by
    rw [Nat.repr_eq_ofList_toDigits, String.toList_ofList]
  have hText : (Json.int n).display = Int.repr n := rfl
  rw [hText, Int.repr_eq_if]
  split
  · rename_i hNonneg
    have h := numeral_of_digits Nat.toDigits_ne_nil (hDecimal n.toNat)
    rwa [Nat.ofDigitChars_ten_toDigits, Int.toNat_of_nonneg hNonneg, ← hRepr] at h
  · have h := Numeral.of (.minus _) Nat.toDigits_ne_nil (hDecimal (-n).toNat)
    have hValue : valueOf true (Nat.toDigits 10 (-n).toNat) = n := by
      rw [valueOf, Nat.ofDigitChars_ten_toDigits]
      simp only [if_true]
      omega
    rw [hValue, ← hRepr] at h
    rw [String.toList_append]
    exact h

end Writing
end Integer

section Coercion
variable {s : String} {core : List Char} {n : Int} {cause : IntegerError}

theorem coerce_of_numeral (hStripped : Text.Stripped s.toList core) (hNumeral : Integer.Numeral core n)
    (hRange : Integer.InRange n) : coerce .integer s = .ok (.int n) := by
  have hTrim : (Text.trim s).toList = core := by
    rw [Text.trim, String.toList_ofList, hStripped.trimList_eq]
  simp only [coerce, hTrim, hNumeral.read_eq hRange]

theorem coerce_of_rejects (hStripped : Text.Stripped s.toList core)
    (hRejects : Integer.Rejects core cause) :
    coerce .integer s = .error (.notInteger (String.ofList core) cause) := by
  have hTrim : Text.trim s = String.ofList core := by rw [Text.trim, hStripped.trimList_eq]
  simp only [coerce, hTrim, String.toList_ofList, hRejects.read_eq]

end Coercion

/-- An answer is read as an integer exactly if it is a numeral in range between blanks, and then as what
it denotes; every other answer is told the first thing that is wrong with it. -/
theorem coerce_integer_exact (s : String) :
    (∀ v, coerce .integer s = .ok v ↔ ∃ core n, Text.Stripped s.toList core ∧
      Integer.Numeral core n ∧ Integer.InRange n ∧ v = .int n) ∧
    (∀ e, coerce .integer s = .error e ↔ ∃ core cause, Text.Stripped s.toList core ∧
      Integer.Rejects core cause ∧ e = .notInteger (String.ofList core) cause) ∧
    ∀ n before after, Integer.InRange n → (∀ c ∈ before, Text.isBlank c) →
      (∀ c ∈ after, Text.isBlank c) → s.toList = before ++ (Json.int n).display.toList ++ after →
        coerce .integer s = .ok (.int n) := by
  have hStripped := Text.stripped_trimList s.toList
  have hCases := Integer.numeral_or_rejects (Text.trimList s.toList)
  refine ⟨fun v => ⟨fun h => ?_, ?_⟩, fun e => ⟨fun h => ?_, ?_⟩, ?_⟩
  · rcases hCases with ⟨n, hNumeral, hRange⟩ | ⟨cause, hRejects⟩
    · rw [coerce_of_numeral hStripped hNumeral hRange] at h
      exact ⟨_, n, hStripped, hNumeral, hRange, (Except.ok.inj h).symm⟩
    · cases (coerce_of_rejects hStripped hRejects).symm.trans h
  · rintro ⟨core, n, hCore, hNumeral, hRange, rfl⟩
    exact coerce_of_numeral hCore hNumeral hRange
  · rcases hCases with ⟨n, hNumeral, hRange⟩ | ⟨cause, hRejects⟩
    · cases (coerce_of_numeral hStripped hNumeral hRange).symm.trans h
    · rw [coerce_of_rejects hStripped hRejects] at h
      exact ⟨_, cause, hStripped, hRejects, (Except.error.inj h).symm⟩
  · rintro ⟨core, cause, hCore, hRejects, rfl⟩
    exact coerce_of_rejects hCore hRejects
  · intro n before after hRange hBefore hAfter hText
    have hNumeral := Integer.numeral_display n
    exact coerce_of_numeral (hText ▸ hNumeral.stripped hBefore hAfter) hNumeral hRange

namespace Sample

theorem integers_read_or_rejected :
    coerce .integer "\t-9223372036854775808 " = .ok (.int (-9223372036854775808)) ∧
      coerce .integer "+0042" = .ok (.int 42) ∧
      Integer.Rejects "9223372036854775808x".toList .tooLarge ∧
      Integer.Rejects "-92x23372036854775809".toList .invalidDigit := by
  have hTold {s : String} {cause : IntegerError}
      (h : coerce .integer s = .error (.notInteger s cause)) : Integer.Rejects s.toList cause := by
    obtain ⟨core, other, -, hRejects, hSame⟩ := ((coerce_integer_exact s).2.1 _).mp h
    injection hSame with hText hCause
    rw [hText, hCause, String.toList_ofList]
    exact hRejects
  have hPadded : Integer.Numeral "+0042".toList 42 :=
    .of (.plus _) (by decide) (List.all_eq_true.mp rfl)
  refine ⟨?_, ?_, hTold (by rfl), hTold (by rfl)⟩
  · apply (coerce_integer_exact "\t-9223372036854775808 ").2.2 _ ['\t'] [' ']
    · exact ⟨by decide, by decide⟩
    · exact List.forall_mem_singleton.mpr rfl
    · exact List.forall_mem_singleton.mpr rfl
    · rfl
  · apply ((coerce_integer_exact "+0042").1 _).mpr
    exact ⟨_, 42, Text.stripped_iff.mpr rfl, hPadded, ⟨by decide, by decide⟩, rfl⟩

end Sample
end FormFlow
