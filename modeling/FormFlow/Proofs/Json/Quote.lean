import FormFlow.Json.Printer
import Mathlib.Tactic.IntervalCases
/-!
# Quoted texts can be told apart

The escape of a character is not the beginning of the escape of another one, so
a quoted text has one reading.
-/
namespace FormFlow.Json

def escapeCode (c : Char) : List Char := (escape c).toList

def unescape : List Char → Option (Char × List Char)
  | '\\' :: '"' :: rest => some ('"', rest)
  | '\\' :: '\\' :: rest => some ('\\', rest)
  | '\\' :: 'b' :: rest => some ('\x08', rest)
  | '\\' :: 't' :: rest => some ('\t', rest)
  | '\\' :: 'n' :: rest => some ('\n', rest)
  | '\\' :: 'f' :: rest => some ('\x0c', rest)
  | '\\' :: 'r' :: rest => some ('\r', rest)
  | '\\' :: 'u' :: '0' :: '0' :: high :: low :: rest =>
    some (Char.ofNat (16 * digit high + digit low), rest)
  | c :: rest => some (c, rest)
  | [] => none
where
  digit (c : Char) : Nat := if c.isDigit then c.toNat - '0'.toNat else c.toNat - 'a'.toNat + 10

theorem unescape_of_ne {c : Char} (h : c ≠ '\\') (rest : List Char) :
    unescape (c :: rest) = some (c, rest) := by
  unfold unescape
  split <;> simp_all

theorem unescape_control {n : Nat} (h : n < 0x20) (rest : List Char) :
    unescape (escapeCode (Char.ofNat n) ++ rest) = some (Char.ofNat n, rest) := by
  interval_cases n <;> rfl

theorem unescape_escapeCode (c : Char) (rest : List Char) :
    unescape (escapeCode c ++ rest) = some (c, rest) := by
  -- The control characters are few enough to read each escape; what is left is written as it is.
  by_cases hControl : c.toNat < 0x20
  · rw [← Char.ofNat_toNat c]
    exact unescape_control hControl rest
  · by_cases hQuote : c = '"'
    · subst hQuote
      rfl
    · by_cases hBackslash : c = '\\'
      · subst hBackslash
        rfl
      · have hPlain : escapeCode c = [c] := by
          have hOther : ∀ d : Char, d.toNat < 0x20 → c ≠ d := by
            rintro d hd rfl
            exact hControl hd
          simp [escapeCode, escape, hQuote, hBackslash, hControl, hOther, Char.toString]
        rw [hPlain, List.singleton_append]
        exact unescape_of_ne hBackslash rest

theorem flatMap_escapeCode_injective {xs ys : List Char}
    (h : xs.flatMap escapeCode = ys.flatMap escapeCode) : xs = ys := by
  have hNonempty (c : Char) (rest : List Char) : [] ≠ escapeCode c ++ rest := by
    intro hEmpty
    have hRead := unescape_escapeCode c rest
    rw [← hEmpty] at hRead
    cases hRead
  induction xs generalizing ys with
  | nil =>
    cases ys with
    | nil => rfl
    | cons d ys => exact absurd h (hNonempty d _)
  | cons c xs ih =>
    cases ys with
    | nil => exact absurd h.symm (hNonempty c _)
    | cons d ys =>
      rw [List.flatMap_cons, List.flatMap_cons] at h
      have hRead := unescape_escapeCode c (xs.flatMap escapeCode)
      rw [h, unescape_escapeCode, Option.some_inj, Prod.mk.injEq] at hRead
      rw [hRead.1, ih hRead.2.symm]

theorem toList_join_escape (xs : List Char) :
    (String.join (xs.map escape)).toList = xs.flatMap escapeCode := by
  rw [String.toList_join, List.flatMap_map]
  rfl

theorem quote_injective {s t : String} (h : quote s = quote t) : s = t := by
  have hLists := congrArg String.toList h
  simp only [quote, String.toList_append, toList_join_escape] at hLists
  have hInner := List.append_cancel_left (List.append_cancel_right hLists)
  exact String.toList_injective (flatMap_escapeCode_injective hInner)

end FormFlow.Json
