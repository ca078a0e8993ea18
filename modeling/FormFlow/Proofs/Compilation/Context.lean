import FormFlow.Proofs.Compilation.Plans
/-!
# Compilation in context

A nested type is compiled below a chain of types and with what is left of the
limit. What comes of it does not depend on either, unless it is too deep or the
chain leads back to it: more room changes nothing else, and a plan that is
compiled below other types is the plan of its type by itself.
-/
namespace FormFlow

section Lowering
variable {P : ModelError → Prop} {form : String} {nested nested' : String → Traced Plan}

theorem MemberSpec.lower_congr {m : MemberSpec} {binding : Option MemberBinding}
    (hNested : ∀ b, Outcome.FailsOnly P (nested b).result → nested' b = nested b)
    (h : Outcome.FailsOnly P (m.lower form nested binding).result) :
    m.lower form nested' binding = m.lower form nested binding := by
  obtain ⟨name, type, kind⟩ := m
  cases kind with
  | nestedForm b =>
    simp only [lower, Traced.result_bind] at h ⊢
    exact Traced.bind_congr (hNested b h.of_bind.1) fun plan _ => rfl
  | selectPrompt options => rcases binding with _ | _ | _ <;> rfl
  | taskStep isAsync options => rcases binding with _ | _ | _ <;> rfl
  | textPrompt options => rfl
  | dependency source => rfl

theorem lowerMembers_congr
    (hNested : ∀ b, Outcome.FailsOnly P (nested b).result → nested' b = nested b)
    (members : List MemberSpec) : ∀ {bindings : ResolvedBindings},
      Outcome.FailsOnly P (lowerMembers form nested bindings members).result →
      lowerMembers form nested' bindings members = lowerMembers form nested bindings members := by
  induction members with
  | nil => exact fun _ => rfl
  | cons m rest ih =>
    intro bindings h
    simp only [lowerMembers, Traced.result_bind] at h ⊢
    obtain ⟨hMember, hNext⟩ := h.of_bind
    refine Traced.bind_congr (MemberSpec.lower_congr hNested hMember) fun operation hOperation => ?_
    have hRest := (hNext operation hOperation).of_bind.1
    exact Traced.bind_congr (ih hRest) fun lowered _ => rfl

theorem ResolvedForm.lower_congr {f : ResolvedForm}
    (hNested : ∀ b, Outcome.FailsOnly P (nested b).result → nested' b = nested b)
    (h : Outcome.FailsOnly P (f.lower nested).result) : f.lower nested' = f.lower nested := by
  simp only [lower, Traced.result_bind] at h ⊢
  exact Traced.bind_congr (lowerMembers_congr hNested _ h.of_bind.1) fun lowered _ => rfl

end Lowering

namespace Catalog
variable {c : Catalog} {limit limit' : Nat}

/-- A result that is none of the defects which tell the context is the same with more room and below
fewer types. -/
theorem compileBelow_congr {P : ModelError → Prop}
    (hDeep : ∀ form depth max, ¬ P (.nestingTooDeep form depth max)) (room : Nat) :
    ∀ {room' : Nat} {chain chain' : List String} {t : String}, room ≤ room' →
      (∀ u ∈ chain', u ∈ chain) → (∀ path, P (.cyclicNesting path) → chain' = chain) →
      Outcome.FailsOnly P (c.compileBelow limit room chain t).result →
      c.compileBelow limit' room' chain' t = c.compileBelow limit room chain t := by
  -- The failure that stops compilation is met at the same place of both, since members are lowered
  -- in one order and everything before it has a plan.
  induction room with
  | zero =>
    intro room' chain chain' t _ hSubset hCyclic h
    unfold compileBelow at h ⊢
    by_cases hAbove : t ∈ chain
    · rw [if_pos hAbove] at h ⊢
      obtain rfl := hCyclic _ (h _ rfl)
      rw [if_pos hAbove]
    · rw [if_neg hAbove] at h
      exact absurd (h _ rfl) (hDeep _ _ _)
  | succ lower ih =>
    intro room' chain chain' t hRoom hSubset hCyclic h
    obtain ⟨lower', rfl⟩ : ∃ lower', room' = lower' + 1 := ⟨room' - 1, by omega⟩
    have hLower : lower ≤ lower' := Nat.le_of_succ_le_succ hRoom
    unfold compileBelow at h ⊢
    by_cases hAbove : t ∈ chain
    · rw [if_pos hAbove] at h ⊢
      obtain rfl := hCyclic _ (h _ rfl)
      rw [if_pos hAbove]
    · have hFresh : t ∉ chain' := fun hIn => hAbove (hSubset t hIn)
      rw [if_neg hAbove] at h ⊢
      rw [if_neg hFresh]
      cases hDeclared : c.declaration? t with
      | none => rfl
      | some d =>
        simp only [hDeclared, Traced.result_bind] at h ⊢
        refine Traced.bind_congr rfl fun form hForm => ?_
        refine ResolvedForm.lower_congr (P := P) (fun b hNested => ?_) (h.of_bind.2 form hForm)
        refine ih hLower (fun u hu => ?_) (fun path hPath => ?_) hNested
        · exact (List.mem_append.mp hu).elim (fun hIn => List.mem_append_left _ (hSubset u hIn))
            fun hIn => List.mem_append_right _ hIn
        · rw [hCyclic path hPath]

theorem compile_of_compileBelow {room : Nat} {chain : List String} {t : String} {plan : Plan}
    (hRoom : room ≤ limit' + 1) (h : (c.compileBelow limit room chain t).result = .ok plan) :
    (c.compile limit' t).result = .ok plan := by
  have hNever : Outcome.FailsOnly (fun _ => False) (c.compileBelow limit room chain t).result := by
    intro e hError
    rw [h] at hError
    cases hError
  have hSame : c.compile limit' t = c.compileBelow limit room chain t :=
    compileBelow_congr (fun _ _ _ => id) room hRoom (fun u hu => absurd hu List.not_mem_nil)
      (fun _ => False.elim) hNever
  rw [hSame]
  exact h

theorem compile_mono {t : String} (hLimit : limit ≤ limit') (hNotDeep : ∀ form depth max,
    (c.compile limit t).result ≠ .error (.nestingTooDeep form depth max)) :
    c.compile limit' t = c.compile limit t := by
  have hOther : Outcome.FailsOnly (fun e => ∀ form depth max, e ≠ .nestingTooDeep form depth max)
      (c.compile limit t).result := by
    rintro e hError form depth max rfl
    exact hNotDeep form depth max hError
  exact compileBelow_congr (fun form depth max h => h form depth max rfl) _
    (Nat.succ_le_succ hLimit) (fun u hu => hu) (fun _ _ => rfl) hOther

theorem compile_ok_unique {t : String} {plan plan' : Plan}
    (h : (c.compile limit t).result = .ok plan) (h' : (c.compile limit' t).result = .ok plan') :
    plan' = plan := by
  rcases Nat.le_total limit limit' with hLimit | hLimit
  · have hHigher := compile_of_compileBelow (Nat.succ_le_succ hLimit) h
    exact Except.ok.inj (h'.symm.trans hHigher)
  · have hHigher := compile_of_compileBelow (Nat.succ_le_succ hLimit) h'
    exact Except.ok.inj (hHigher.symm.trans h)

theorem isPlan_compile {t : String} {plan : Plan} (h : (c.compile limit t).result = .ok plan) :
    ∃ d nested, c.declaration? t = some d ∧ d.IsPlan (c.bindingsOf t) nested plan ∧
      ∀ b inner, (nested b).result = .ok inner → (c.compile limit b).result = .ok inner := by
  obtain ⟨lower, d, hRoom, -, hDeclared, hPlan⟩ := compileBelow_isPlan h
  refine ⟨d, _, hDeclared, hPlan, fun b inner hInner => compile_of_compileBelow ?_ hInner⟩
  omega

theorem compile_tooDeep_of_ok {t : String} {plan : Plan} {e : ModelError}
    (h : (c.compile limit' t).result = .ok plan) (hError : (c.compile limit t).result = .error e) :
    ∃ form depth max, e = .nestingTooDeep form depth max := by
  by_contra hOther
  have hNotDeep : ∀ form depth max,
      (c.compile limit t).result ≠ .error (.nestingTooDeep form depth max) := by
    rintro form depth max hDeep
    exact hOther ⟨form, depth, max, Except.error.inj (hError.symm.trans hDeep)⟩
  rcases Nat.le_total limit limit' with hLimit | hLimit
  · rw [compile_mono hLimit hNotDeep, hError] at h
    cases h
  · cases hError.symm.trans (compile_of_compileBelow (Nat.succ_le_succ hLimit) h)

theorem compile_typeName {t : String} {plan : Plan} (h : (c.compile limit t).result = .ok plan) :
    plan.typeName = t := by
  obtain ⟨d, nested, hDeclared, hPlan, -⟩ := isPlan_compile h
  exact hPlan.typeName.trans (name_of_declaration? hDeclared)

theorem compile_recurse {t member : String} {plan inner : Plan}
    (h : (c.compile limit t).result = .ok plan) (hOp : .recurse member inner ∈ plan.operations) :
    ∃ d m, c.declaration? t = some d ∧ m ∈ d.members ∧ m.name = member ∧
      m.nestedForm? = some inner.typeName ∧
        (c.compile limit inner.typeName).result = .ok inner := by
  obtain ⟨d, nested, hDeclared, hPlan, hCompiled⟩ := isPlan_compile h
  obtain ⟨m, hm, hLowers⟩ := forall₂_exists_left hPlan.operations hOp
  cases hLowers with
  | recurse b tags shape inner hInner =>
    have hAlone := hCompiled b inner hInner
    have hName := compile_typeName hAlone
    refine ⟨d, m, hDeclared, (List.mem_filter.mp hm).1, rfl, ?_, hName ▸ hAlone⟩
    simp [MemberDeclaration.nestedForm?, MemberDeclaration.propertyType?, tags, shape,
      FieldType.formName?, hName]

theorem compile_held {plan q : Plan} (hHolds : plan.Holds q) :
    ∀ {t : String}, (c.compile limit t).result = .ok plan →
      (c.compile limit q.typeName).result = .ok q := by
  induction hHolds with
  | self plan =>
    intro t h
    rw [compile_typeName h]
    exact h
  | nested hOp _ ih =>
    intro t h
    obtain ⟨d, m, -, -, -, -, hInner⟩ := compile_recurse h hOp
    exact ih hInner

/-- A higher limit changes nothing but what was too deep, and every plan in the plan of a type is the
one that compiling the type of the member gives by itself. -/
theorem compile_mono_and_embeds {t : String} (hLimit : limit ≤ limit') :
    ((∀ form depth max, (c.compile limit t).result ≠ .error (.nestingTooDeep form depth max)) →
        c.compile limit' t = c.compile limit t) ∧
      ∀ plan, (c.compile limit t).result = .ok plan → ∀ q, plan.Holds q →
        ∀ member inner, .recurse member inner ∈ q.operations →
          ∃ d m, c.declaration? q.typeName = some d ∧ m ∈ d.members ∧ m.name = member ∧
            m.nestedForm? = some inner.typeName ∧
              (c.compile limit inner.typeName).result = .ok inner := by
  constructor
  · exact compile_mono hLimit
  · intro plan h q hHolds member inner hOp
    exact compile_recurse (compile_held hHolds h) hOp

end Catalog

theorem Sample.team_embeds_invite :
    invites.compile 16 "Team" = invites.compile 1 "Team" ∧
      (invites.compile 1 "Team").result = .ok teamPlan ∧
        (invites.compile 1 "Invite").result = .ok invitePlan := by
  have hCompiled : (invites.compile 1 "Team").result = .ok teamPlan := by cbv
  have hLimit : 1 ≤ 16 := by decide
  obtain ⟨hMono, hEmbeds⟩ :=
    Catalog.compile_mono_and_embeds (c := invites) (t := "Team") hLimit
  have hNotDeep : ∀ form depth max,
      (invites.compile 1 "Team").result ≠ .error (.nestingTooDeep form depth max) := by
    rw [hCompiled]
    rintro form depth max ⟨⟩
  obtain ⟨d, m, -, -, -, -, hInvite⟩ :=
    hEmbeds teamPlan hCompiled teamPlan (.self _) "invite" invitePlan (List.mem_singleton_self _)
  exact ⟨hMono hNotDeep, hCompiled, hInvite⟩

end FormFlow
