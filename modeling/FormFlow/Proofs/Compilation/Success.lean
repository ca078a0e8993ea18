import FormFlow.Proofs.Compilation.Nesting
import FormFlow.Proofs.Compilation.Totality
/-!
# Types that have plans

If the declarations that a type reaches are sound by themselves, whether it has
a plan is a matter of the nesting graph alone: every type that is reached must be
declared and must not reach itself, and no chain of nested types may be longer
than the limit. A type that is nested twice is no cycle.
-/
namespace FormFlow

/-- The phases succeed on the declaration, and no dependency takes the name of a select or step
member. -/
def Declaration.Sound (d : Declaration) (table : BindingTable) : Prop :=
  ∃ model bindings strategy full, d.extract = .ok model ∧ d.resolve model table = .ok bindings ∧
    d.construct model = .ok (strategy, full) ∧ ∀ name, ¬ full.Overshadows name

theorem Declaration.Sound.resolved {d : Declaration} {table : BindingTable} (h : d.Sound table) :
    ∃ form, (d.resolved table).result = .ok form ∧ ∀ name, ¬ form.model.Overshadows name := by
  obtain ⟨model, bindings, strategy, full, hModel, hBindings, hBuilt, hFree⟩ := h
  refine ⟨⟨full, strategy, bindings⟩, ?_, hFree⟩
  rw [resolved_result, hModel]
  simp only [bind, Except.bind, hBindings, hBuilt]

theorem Declaration.lower_of_resolved {d : Declaration} {table : BindingTable} {form : ResolvedForm}
    {nested : String → Traced Plan} (hResolved : (d.resolved table).result = .ok form)
    (hFree : ∀ name, ¬ form.model.Overshadows name)
    (hNested : ∀ b ∈ d.nestedForms, ∃ inner, (nested b).result = .ok inner) :
    ∃ plan, (form.lower nested).result = .ok plan := by
  obtain ⟨specs, hResolves⟩ := resolves_of_resolved hResolved
  rw [← (resolved_ok hResolved).2] at hNested
  exact (hResolves.lower_ok_iff hNested).mpr hFree

namespace Catalog
variable {c : Catalog} {limit : Nat}

/-- What the nesting graph below a type must be like for chains of at most that many links. -/
structure Grounded (c : Catalog) (links : Nat) (t : String) : Prop where
  declared : ∀ u, Relation.ReflTransGen c.Nests t u → u ∈ c.typeNames
  acyclic : ∀ u, Relation.ReflTransGen c.Nests t u → ¬ Relation.TransGen c.Nests u u
  short : ∀ chain, List.IsChain c.Nests (t :: chain) → chain.length ≤ links

theorem Grounded.nested {links : Nat} {t b : String} (h : c.Grounded links t)
    (hNests : c.Nests t b) : ∃ fewer, links = fewer + 1 ∧ c.Grounded fewer b := by
  have hLonger : ∀ chain, List.IsChain c.Nests (b :: chain) → chain.length + 1 ≤ links :=
    fun chain hChain => h.short (b :: chain) (.cons_cons hNests hChain)
  have hLinks : 1 ≤ links := hLonger [] (.singleton b)
  refine ⟨links - 1, by omega, fun u hReach => ?_, fun u hReach => ?_, fun chain hChain => ?_⟩
  · exact h.declared u (.head hNests hReach)
  · exact h.acyclic u (.head hNests hReach)
  · have := hLonger chain hChain
    omega

section Success

theorem compileBelow_ok_of_sound {room : Nat} {chain : List String} {t : String} {d : Declaration}
    (hFresh : t ∉ chain) (hDeclared : c.declaration? t = some d) (hSound : d.Sound (c.bindingsOf t))
    (hNested : ∀ b, c.Nests t b →
      ∃ inner, (c.compileBelow limit room (chain ++ [t]) b).result = .ok inner) :
    ∃ plan, (c.compileBelow limit (room + 1) chain t).result = .ok plan := by
  obtain ⟨form, hResolved, hFree⟩ := hSound.resolved
  have hForms : ∀ b ∈ d.nestedForms,
      ∃ inner, (c.compileBelow limit room (chain ++ [t]) b).result = .ok inner :=
    fun b hForm => hNested b ⟨d, hDeclared, hForm⟩
  obtain ⟨plan, hPlan⟩ := Declaration.lower_of_resolved hResolved hFree hForms
  refine ⟨plan, ?_⟩
  simp only [compileBelow, if_neg hFresh, hDeclared, Traced.result_bind]
  exact Outcome.bind_eq_ok.mpr ⟨form, hResolved, hPlan⟩

theorem compileBelow_ok_of_grounded (room : Nat) : ∀ {chain : List String} {t : String},
    (∀ a ∈ chain, Relation.TransGen c.Nests a t) →
    (∀ u d, Relation.ReflTransGen c.Nests t u → c.declaration? u = some d →
      d.Sound (c.bindingsOf u)) →
    c.Grounded room t → ∃ plan, (c.compileBelow limit (room + 1) chain t).result = .ok plan := by
  -- The types above reach the one that is compiled, so in an acyclic graph it is none of them,
  -- however often it is nested elsewhere.
  induction room using Nat.strongRecOn with
  | _ room ih =>
    intro chain t hAbove hSound hGround
    have hFresh : t ∉ chain := fun hIn => hGround.acyclic t .refl (hAbove t hIn)
    obtain ⟨d, hDeclared⟩ := mem_typeNames_iff.mp (hGround.declared t .refl)
    refine compileBelow_ok_of_sound hFresh hDeclared (hSound t d .refl hDeclared) ?_
    intro b hNests
    obtain ⟨fewer, rfl, hBelow⟩ := hGround.nested hNests
    refine ih fewer (Nat.lt_succ_self fewer) (fun a ha => ?_) (fun u e hReach => ?_) hBelow
    · rcases List.mem_append.mp ha with hIn | hIn
      · exact (hAbove a hIn).tail hNests
      · rw [List.mem_singleton.mp hIn]
        exact .single hNests
    · exact hSound u e (.head hNests hReach)

end Success

section Necessity

theorem compileBelow_reflReach {room : Nat} {chain : List String} {t u : String} {plan : Plan}
    (h : (c.compileBelow limit room chain t).result = .ok plan)
    (hReach : Relation.ReflTransGen c.Nests t u) :
    ∃ lower above inner, (c.compileBelow limit lower above u).result = .ok inner := by
  rcases Relation.reflTransGen_iff_eq_or_transGen.mp hReach with rfl | hBelow
  · exact ⟨room, chain, plan, h⟩
  · obtain ⟨lower, above, inner, -, hInner⟩ := compileBelow_reach hBelow h
    exact ⟨lower, above, inner, hInner⟩

theorem length_lt_of_compileBelow (path : List String) :
    ∀ {room : Nat} {chain : List String} {t : String} {plan : Plan},
      (c.compileBelow limit room chain t).result = .ok plan →
      List.IsChain c.Nests (t :: path) → path.length < room := by
  induction path with
  | nil =>
    intro room chain t plan h _
    obtain ⟨-, -, lower, rfl, -⟩ := compileBelow_ok h
    exact Nat.succ_pos lower
  | cons b path ih =>
    intro room chain t plan h hPath
    obtain ⟨hNests, hRest⟩ := List.isChain_cons_cons.mp hPath
    obtain ⟨-, -, lower, rfl, hNested⟩ := compileBelow_ok h
    obtain ⟨inner, hInner⟩ := hNested b hNests
    exact Nat.succ_lt_succ (ih hInner hRest)

theorem grounded_of_compile {t : String} {plan : Plan} (h : (c.compile limit t).result = .ok plan) :
    c.Grounded limit t where
  declared u hReach := by
    obtain ⟨lower, above, inner, hInner⟩ := compileBelow_reflReach h hReach
    exact (compileBelow_ok hInner).2.1
  acyclic u hReach := by
    obtain ⟨lower, above, inner, hInner⟩ := compileBelow_reflReach h hReach
    exact not_reach_self_of_compileBelow hInner
  short chain hChain := Nat.le_of_lt_succ (length_lt_of_compileBelow chain h hChain)

end Necessity

/-- Where every declaration that is reached is sound by itself, a type has a plan exactly if every type
reached is declared, none reaches itself and no chain of nested types exceeds the limit. -/
theorem compile_ok_iff_grounded {t : String}
    (hSound : ∀ u d, Relation.ReflTransGen c.Nests t u → c.declaration? u = some d →
      d.Sound (c.bindingsOf u)) :
    (∃ plan, (c.compile limit t).result = .ok plan) ↔ c.Grounded limit t := by
  constructor
  · rintro ⟨plan, hPlan⟩
    exact grounded_of_compile hPlan
  · exact compileBelow_ok_of_grounded limit (fun a ha => absurd ha List.not_mem_nil) hSound

end Catalog

namespace Sample

def move : Declaration :=
  { name := "Move"
    members := [
      { name := "origin", shape := .property (.form "Place"), tags := [.nestedForm] },
      { name := "destination", shape := .property (.form "Place"), tags := [.nestedForm] }] }

def place : Declaration :=
  { name := "Place"
    members := [{ name := "city", shape := .property .text, tags := [.textPrompt {}] }] }

def moves : Catalog := .ofDeclarations [move, place]

theorem moves_sound {u : String} {d : Declaration} (h : moves.declaration? u = some d) :
    d.Sound (moves.bindingsOf u) := by
  have hAll : moves.all = [move, place] := rfl
  obtain rfl := Catalog.name_of_declaration? h
  have hMem := Catalog.mem_all_iff.mpr h
  rw [hAll, List.mem_cons, List.mem_singleton] at hMem
  have hFree (members : List MemberSpec) (hNone : ∀ m ∈ members, m.isBound = false)
      (name : String) : ¬ Model.Overshadows ⟨d.name, d.culture, members⟩ name := by
    rintro ⟨-, m, hm, hBound, -⟩
    rw [hNone m hm] at hBound
    cases hBound
  rcases hMem with rfl | rfl
  · exact ⟨_, _, _, _, rfl, rfl, rfl, hFree _ (by decide)⟩
  · exact ⟨_, _, _, _, rfl, rfl, rfl, hFree _ (by decide)⟩

theorem move_grounded : moves.Grounded 1 "Move" ∧ ¬ moves.Grounded 0 "Move" := by
  have hSound : ∀ u d, Relation.ReflTransGen moves.Nests "Move" u → moves.declaration? u = some d →
      d.Sound (moves.bindingsOf u) := fun u d _ => moves_sound
  have hOne : ∃ plan, (moves.compile 1 "Move").result = .ok plan := ⟨_, rfl⟩
  have hNone : (moves.compile 0 "Move").result = .error (.nestingTooDeep "Place" 1 0) := by cbv
  refine ⟨(Catalog.compile_ok_iff_grounded hSound).mp hOne, fun hGround => ?_⟩
  obtain ⟨plan, hPlan⟩ := (Catalog.compile_ok_iff_grounded hSound).mpr hGround
  rw [hNone] at hPlan
  cases hPlan

end Sample
end FormFlow
