import FormFlow.Proofs.Compilation.Nesting
import Mathlib.Data.List.Chain
/-!
# Chains of nested types

The types above a type that is compiled lead to it from the root: each nests the
next one, and none stands there twice. So whatever a failure tells about nesting
is true. A cycle is one, and the root reaches it. A type that is too deep stands
below exactly one type more than the limit allows. An unknown type is the root or
nested by a type that the root reaches.
-/
namespace FormFlow
namespace Catalog
variable {c : Catalog} {limit : Nat}

/-- The chain leads from the root to the type: its types are distinct, each nests the next one and
the last one nests the type. -/
structure Leads (c : Catalog) (root : String) (chain : List String) (t : String) : Prop where
  distinct : chain.Nodup
  linked : List.IsChain c.Nests (chain ++ [t])
  begins : (chain ++ [t]).head? = some root

namespace Leads
variable {root t : String} {chain : List String}

theorem start (c : Catalog) (t : String) : c.Leads t [] t := ⟨.nil, .singleton t, rfl⟩

theorem distinct_concat (h : c.Leads root chain t) (hFresh : t ∉ chain) : (chain ++ [t]).Nodup := by
  refine List.nodup_append.mpr ⟨h.distinct, List.nodup_singleton t, fun u hu v hv hEq => ?_⟩
  rw [hEq, List.mem_singleton.mp hv] at hu
  exact hFresh hu

theorem nested (h : c.Leads root chain t) (hFresh : t ∉ chain) {b : String}
    (hNests : c.Nests t b) : c.Leads root (chain ++ [t]) b where
  distinct := h.distinct_concat hFresh
  linked := by
    refine List.isChain_append.mpr ⟨h.linked, .singleton b, fun u hu v hv => ?_⟩
    obtain rfl : t = u := by simpa using hu
    obtain rfl : b = v := by simpa using hv
    exact hNests
  begins := by
    rw [List.head?_append, h.begins]
    rfl

theorem split {before after : List String} {u : String}
    (h : c.Leads root (before ++ u :: after) t) :
    c.Leads root before u ∧ c.Leads u (u :: after) t := by
  obtain ⟨hBefore, hAfter, hApart⟩ := List.nodup_append.mp h.distinct
  have hLinked := h.linked
  have hBegins := h.begins
  have hParts : before ++ u :: after ++ [t] = (before ++ [u]) ++ (after ++ [t]) := by simp
  refine ⟨⟨hBefore, ?_, ?_⟩, ⟨hAfter, ?_, rfl⟩⟩
  · rw [hParts] at hLinked
    exact hLinked.left_of_append
  · cases before with
    | nil => exact hBegins
    | cons first rest => exact hBegins
  · rw [List.append_assoc] at hLinked
    exact hLinked.right_of_append

theorem reaches (h : c.Leads root chain t) : Relation.ReflTransGen c.Nests root t := by
  cases chain with
  | nil =>
    obtain rfl : t = root := Option.some.inj h.begins
    exact .refl
  | cons first rest =>
    obtain rfl : first = root := Option.some.inj h.begins
    exact List.relationReflTransGen_of_exists_isChain_cons _ h.linked (by simp)

theorem declared (h : c.Leads root chain t) {u : String} (hu : u ∈ chain) : u ∈ c.typeNames := by
  obtain ⟨before, after, rfl⟩ := List.append_of_mem hu
  have hLinked := h.split.2.linked
  cases after with
  | nil => exact (List.isChain_cons_cons.mp hLinked).1.declared
  | cons next rest => exact (List.isChain_cons_cons.mp hLinked).1.declared

theorem eq_or_nests (h : c.Leads root chain t) :
    t = root ∨ ∃ parent, Relation.ReflTransGen c.Nests root parent ∧ c.Nests parent t := by
  rcases List.eq_nil_or_concat' chain with rfl | ⟨before, parent, rfl⟩
  · exact .inl (Option.some.inj h.begins)
  · obtain ⟨hBefore, hLast⟩ := h.split
    exact .inr ⟨parent, hBefore.reaches, (List.isChain_cons_cons.mp hLast.linked).1⟩

theorem cycle (h : c.Leads root chain t) (hAbove : t ∈ chain) :
    ∃ rest, chain.dropWhile (fun u => u ≠ t) = t :: rest ∧ c.Leads t (t :: rest) t ∧
      Relation.ReflTransGen c.Nests root t := by
  obtain ⟨before, rest, rfl, hNot⟩ := List.eq_append_cons_of_mem hAbove
  obtain ⟨hBefore, hCycle⟩ := h.split
  refine ⟨rest, ?_, hCycle, hBefore.reaches⟩
  have hSkipped : ∀ u ∈ before, decide (u ≠ t) = true := by
    intro u hu
    rw [decide_eq_true_eq]
    rintro rfl
    exact hNot hu
  rw [List.dropWhile_append_of_pos hSkipped, List.dropWhile_cons_of_neg (by simp)]

end Leads

/-- What a failure tells about the types that a root reaches: a cycle among them, one with more types
above it than the limit allows, one that is not declared, or a defect of the declaration of one. -/
inductive Diagnosed (c : Catalog) (limit : Nat) (root : String) : ModelError → Prop where
  | cycle (first : String) (rest : List String) (reached : Relation.ReflTransGen c.Nests root first)
      (closed : c.Leads first (first :: rest) first) :
      Diagnosed c limit root (.cyclicNesting (first :: rest ++ [first]))
  | deep (form : String) (above : List String) (leads : c.Leads root above form)
      (fresh : form ∉ above) (length : above.length = limit + 1) :
      Diagnosed c limit root (.nestingTooDeep form (limit + 1) limit)
  | unknown (name : String) (above : List String) (leads : c.Leads root above name)
      (undeclared : c.declaration? name = none) : Diagnosed c limit root (.unknownType name)
  | own (form : String) (e : ModelError) (reached : Relation.ReflTransGen c.Nests root form)
      (declared : form ∈ c.typeNames) (about : e.declaration? = some form) : Diagnosed c limit root e

theorem compileBelow_diagnosed {root : String} {e : ModelError} (room : Nat) :
    ∀ {chain : List String} {t : String}, c.Leads root chain t → chain.length + room = limit + 1 →
      (c.compileBelow limit room chain t).result = .error e → c.Diagnosed limit root e := by
  induction room using Nat.strongRecOn with
  | _ room ih =>
    intro chain t hLeads hLength hFailed
    cases compileBelow_error hFailed with
    | cyclic hAbove hError =>
      obtain ⟨rest, hCut, hCycle, hReached⟩ := hLeads.cycle hAbove
      rw [hError, hCut]
      exact .cycle t rest hReached hCycle
    | tooDeep hFresh hRoom hError =>
      have hAbove : chain.length = limit + 1 := by omega
      rw [hError, hAbove]
      exact .deep t chain hLeads hFresh hAbove
    | unknown hFresh hUndeclared hError =>
      rw [hError]
      exact .unknown t chain hLeads hUndeclared
    | own hFresh d hDeclared hAbout =>
      exact .own t e hLeads.reaches (mem_typeNames_iff.mpr ⟨d, hDeclared⟩) hAbout
    | nested hFresh lower hRoom b hNests hBelow =>
      refine ih lower (by omega) (hLeads.nested hFresh hNests) ?_ hBelow
      rw [List.length_append, List.length_singleton]
      omega

theorem compile_diagnosed {t : String} {e : ModelError}
    (h : (c.compile limit t).result = .error e) : c.Diagnosed limit t e :=
  compileBelow_diagnosed (limit + 1) (.start c t) (Nat.zero_add _) h

/-- What a failure of a type tells about nesting is so. A cycle closes, and repeats no other type, and
is reached from the type. A type that is too deep ends a chain of distinct types with one link more
than the limit. An unknown type is not declared, and is the type itself or nested by one that it
reaches. -/
theorem compile_error_truthful {t : String} {e : ModelError}
    (h : (c.compile limit t).result = .error e) :
    (e.kind = "CyclicNesting" → ∃ first rest, e = .cyclicNesting (first :: rest ++ [first]) ∧
        e.message = "cyclic nested form reference: " ++ " -> ".intercalate (first :: rest ++ [first]) ∧
        (first :: rest).Nodup ∧ Relation.ReflTransGen c.Nests t first ∧
        List.IsChain c.Nests (first :: rest ++ [first])) ∧
      (∀ form depth max, e = .nestingTooDeep form depth max →
        max = limit ∧ depth = limit + 1 ∧ ∃ below : List String, below.length = limit + 1 ∧
          (t :: below).Nodup ∧ List.IsChain c.Nests (t :: below) ∧
            (t :: below).getLast? = some form) ∧
      ∀ name, e = .unknownType name → c.declaration? name = none ∧
        (name = t ∨ ∃ parent d, Relation.ReflTransGen c.Nests t parent ∧
          c.declaration? parent = some d ∧ name ∈ d.nestedForms) := by
  refine ⟨fun hKind => ?_, ?_, ?_⟩
  · cases compile_diagnosed h with
    | cycle first rest reached closed =>
      exact ⟨first, rest, rfl, rfl, closed.distinct, reached, closed.linked⟩
    | own form e reached declared about =>
      exact absurd hKind (ModelError.kind_of_declaration? about).1
    | deep => simp [ModelError.kind] at hKind
    | unknown => simp [ModelError.kind] at hKind
  · rintro form depth max rfl
    cases compile_diagnosed h with
    | own form e reached declared about => cases about
    | deep form above leads fresh length =>
      refine ⟨rfl, rfl, ?_⟩
      cases above with
      | nil => cases length
      | cons first rest =>
        obtain rfl : first = t := Option.some.inj leads.begins
        refine ⟨rest ++ [form], by simpa using length, leads.distinct_concat fresh, leads.linked, ?_⟩
        rw [← List.cons_append, List.getLast?_concat]
  · rintro name rfl
    cases compile_diagnosed h with
    | own form e reached declared about => cases about
    | unknown name above leads undeclared =>
      refine ⟨undeclared, leads.eq_or_nests.imp_right ?_⟩
      rintro ⟨parent, hReached, d, hDeclared, hForm⟩
      exact ⟨parent, d, hReached, hDeclared, hForm⟩

end Catalog

theorem Sample.shop_tells_cycle :
    (shopForms.compile 16 "Shop").result = .error (.cyclicNesting ["Order", "Return", "Order"]) ∧
      Relation.ReflTransGen shopForms.Nests "Shop" "Order" ∧
      List.IsChain shopForms.Nests ["Order", "Return", "Order"] := by
  have hFailed : (shopForms.compile 16 "Shop").result =
      .error (.cyclicNesting ["Order", "Return", "Order"]) := by cbv
  obtain ⟨hCycle, -⟩ := Catalog.compile_error_truthful hFailed
  obtain ⟨first, rest, hError, -, -, hReached, hLinked⟩ := hCycle rfl
  rw [ModelError.cyclicNesting.injEq] at hError
  obtain ⟨rfl, -⟩ := List.cons.inj hError
  exact ⟨hFailed, hReached, hError ▸ hLinked⟩

end FormFlow
