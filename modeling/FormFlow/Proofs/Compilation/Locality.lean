import FormFlow.Proofs.Compilation.Success
/-!
# What a compilation depends on

Compilation looks a type up when it comes to it, and it comes only to types that
the root reaches by nesting. So two catalogs that declare and bind these types
alike compile the root alike, whatever else they hold, and a type that is not
reached can be declared, replaced and bound without a change to the plan.
-/
namespace FormFlow

section Lowering
variable {form : String} {nested nested' : String → Traced Plan}

theorem MemberSpec.lower_eq_of_nested {m : MemberSpec} {binding : Option MemberBinding}
    (h : ∀ b, m.nestedForm? = some b → nested' b = nested b) :
    m.lower form nested' binding = m.lower form nested binding := by
  cases hForm : m.nestedForm? with
  | none => exact lower_of_plain hForm nested' binding
  | some b => rw [lower_of_nested hForm, lower_of_nested hForm, h b hForm]

theorem lowerMembers_eq_of_nested (members : List MemberSpec) : ∀ bindings : ResolvedBindings,
    (∀ m ∈ members, ∀ b, m.nestedForm? = some b → nested' b = nested b) →
      lowerMembers form nested' bindings members = lowerMembers form nested bindings members := by
  induction members with
  | nil => exact fun _ _ => rfl
  | cons m rest ih =>
    intro bindings h
    obtain ⟨hMember, hRest⟩ := List.forall_mem_cons.mp h
    simp only [lowerMembers, MemberSpec.lower_eq_of_nested hMember, ih _ hRest]

theorem ResolvedForm.lower_eq_of_nested {f : ResolvedForm}
    (h : ∀ b ∈ f.model.nestedForms, nested' b = nested b) : f.lower nested' = f.lower nested := by
  have hMembers : ∀ m ∈ f.model.members, ∀ b, m.nestedForm? = some b → nested' b = nested b :=
    fun m hm b hForm => h b (List.mem_filterMap.mpr ⟨m, hm, hForm⟩)
  simp only [lower, lowerMembers_eq_of_nested _ _ hMembers]

end Lowering

namespace Catalog

structure AgreesOn (c c' : Catalog) (t : String) : Prop where
  declared : c'.declaration? t = c.declaration? t
  bound : c'.bindings? t = c.bindings? t

def AgreesFrom (c c' : Catalog) (t : String) : Prop :=
  ∀ u, Relation.ReflTransGen c.Nests t u → c.AgreesOn c' u

variable {c c' : Catalog} {limit : Nat} {t u : String}

namespace AgreesFrom

theorem nested {b : String} (h : c.AgreesFrom c' t) (hNests : c.Nests t b) : c.AgreesFrom c' b :=
  fun u hReach => h u (.head hNests hReach)

theorem nests_iff (h : c.AgreesFrom c' t) {a b : String} (hReach : Relation.ReflTransGen c.Nests t a) :
    c'.Nests a b ↔ c.Nests a b := by
  simp only [Nests, (h a hReach).declared]

theorem reaches_iff (h : c.AgreesFrom c' t) :
    Relation.ReflTransGen c'.Nests t u ↔ Relation.ReflTransGen c.Nests t u := by
  constructor
  · intro hReach
    induction hReach with
    | refl => exact .refl
    | tail _ hNests ih => exact ih.tail ((h.nests_iff ih).mp hNests)
  · intro hReach
    induction hReach with
    | refl => exact .refl
    | tail hBefore hNests ih => exact ih.tail ((h.nests_iff hBefore).mpr hNests)

end AgreesFrom

theorem compileBelow_eq_of_agrees (room : Nat) : ∀ (chain : List String) {t : String},
    c.AgreesFrom c' t → c'.compileBelow limit room chain t = c.compileBelow limit room chain t := by
  -- Both compilations stand below the same chain with the same room, so they part nowhere: neither at
  -- the chain, nor at the room, nor at a look-up.
  induction room with
  | zero =>
    intro chain t _
    unfold compileBelow
    rfl
  | succ lower ih =>
    intro chain t h
    have hDeclared := (h t .refl).declared
    have hBound : c'.bindingsOf t = c.bindingsOf t := congrArg (·.getD []) (h t .refl).bound
    unfold compileBelow
    rw [hDeclared, hBound]
    split
    · rfl
    · cases hFound : c.declaration? t with
      | none => rfl
      | some d =>
        refine Traced.bind_congr rfl fun form hForm => ?_
        refine ResolvedForm.lower_eq_of_nested fun b hNested => ih (chain ++ [t]) (h.nested ?_)
        rw [(Declaration.resolved_ok hForm).2] at hNested
        exact ⟨d, hFound, hNested⟩

theorem agreesOn_declare {d : Declaration} (h : u ≠ d.name) : c.AgreesOn (c.declare d) u :=
  ⟨Assoc.get?_insert_of_ne c.declarations d h, rfl⟩

theorem agreesOn_bind {table : BindingTable} (h : u ≠ t) : c.AgreesOn (c.bind t table) u :=
  ⟨rfl, Assoc.get?_insert_of_ne c.bindings table h⟩

theorem agreesOn_register {d : Declaration} {table : BindingTable} (h : u ≠ d.name) :
    c.AgreesOn (c.register d table) u :=
  ⟨Assoc.get?_insert_of_ne c.declarations d h, Assoc.get?_insert_of_ne c.bindings table h⟩

theorem agreesFrom_of_unreached {other : String} (hOther : ¬ Relation.ReflTransGen c.Nests t other)
    (h : ∀ u, u ≠ other → c.AgreesOn c' u) : c.AgreesFrom c' t := by
  intro u hReach
  refine h u ?_
  rintro rfl
  exact hOther hReach

/-- Two catalogs that agree on a type and on all that it reaches compile it alike, to the same plan or
to the same error and with the same log. In particular a type that it does not reach can be declared,
replaced and bound. -/
theorem compile_local (c : Catalog) (limit : Nat) (t : String) :
    (∀ c', c.AgreesFrom c' t →
        (∀ u, Relation.ReflTransGen c'.Nests t u ↔ Relation.ReflTransGen c.Nests t u) ∧
          c'.compile limit t = c.compile limit t) ∧
      ∀ other, ¬ Relation.ReflTransGen c.Nests t other →
        (∀ d : Declaration, d.name = other → (c.declare d).compile limit t = c.compile limit t) ∧
        (∀ table, (c.bind other table).compile limit t = c.compile limit t) ∧
        ∀ (d : Declaration) table, d.name = other →
          (c.register d table).compile limit t = c.compile limit t := by
  have hLocal : ∀ c', c.AgreesFrom c' t → c'.compile limit t = c.compile limit t :=
    fun c' h => compileBelow_eq_of_agrees (limit + 1) [] h
  refine ⟨fun c' h => ⟨fun u => h.reaches_iff, hLocal c' h⟩,
    fun other hOther => ⟨?_, fun table => ?_, ?_⟩⟩
  · rintro d rfl
    exact hLocal _ (agreesFrom_of_unreached hOther fun u => agreesOn_declare)
  · exact hLocal _ (agreesFrom_of_unreached hOther fun u => agreesOn_bind)
  · rintro d table rfl
    exact hLocal _ (agreesFrom_of_unreached hOther fun u => agreesOn_register)

end Catalog

namespace Sample

def relocation : Declaration :=
  { name := "Relocation"
    members := [{ name := "move", shape := .property (.form "Move"), tags := [.nestedForm] }] }

def relocations : Catalog :=
  (Catalog.ofDeclarations [account "owner", place, relocation, move]).bind "Account" accountTable

theorem move_reaches {u : String} (h : Relation.ReflTransGen moves.Nests "Move" u) :
    u = "Move" ∨ u = "Place" := by
  induction h with
  | refl => exact .inl rfl
  | tail _ hNests ih =>
    obtain ⟨d, hDeclared, hForm⟩ := hNests
    rcases ih with rfl | rfl
    · obtain rfl : move = d := Option.some.inj hDeclared
      have hForms : move.nestedForms = ["Place", "Place"] := rfl
      rw [hForms] at hForm
      simpa using Or.inr hForm
    · obtain rfl : place = d := Option.some.inj hDeclared
      cases hForm

theorem move_compiled_alone :
    relocations.compile 1 "Move" = moves.compile 1 "Move" ∧
      relocations.compile 0 "Move" = moves.compile 0 "Move" ∧
      (moves.compile 0 "Move").result = .error (.nestingTooDeep "Place" 1 0) ∧
      ¬ Relation.ReflTransGen moves.Nests "Move" "Relocation" ∧
      (moves.declare relocation).compile 1 "Move" = moves.compile 1 "Move" ∧
      (moves.bind "Relocation" accountTable).compile 1 "Move" = moves.compile 1 "Move" := by
  have hAgrees : moves.AgreesFrom relocations "Move" := by
    intro u hReach
    rcases move_reaches hReach with rfl | rfl
    · exact ⟨rfl, rfl⟩
    · exact ⟨rfl, rfl⟩
  have hUnreached : ¬ Relation.ReflTransGen moves.Nests "Move" "Relocation" := fun hReach =>
    absurd (move_reaches hReach) (by decide)
  obtain ⟨hSame, hOther⟩ := moves.compile_local 1 "Move"
  obtain ⟨hDeclare, hBind, -⟩ := hOther "Relocation" hUnreached
  exact ⟨(hSame _ hAgrees).2, ((moves.compile_local 0 "Move").1 _ hAgrees).2, by cbv, hUnreached,
    hDeclare relocation rfl, hBind accountTable⟩

end Sample
end FormFlow
