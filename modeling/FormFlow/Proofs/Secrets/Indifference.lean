import FormFlow.Proofs.Secrets.Prompts
/-!
# Runs with different secrets

Two runs of a plan of text prompts and nested forms, with answers that differ
only in their secrets, stay in step until a secret prompt is refused in one of
them. If the other one is refused there too, both end alike but for the cause;
otherwise it goes on, and is refused only after it has started more operations.
-/
namespace FormFlow

section Nesting
variable {a b : Trail} {member : String} {instA instB : Instance}

theorem Trail.refused_nest : (a.nest member instA).Refused ↔ a.Refused := by
  unfold Trail.nest Refused
  split
  · rename_i hHalt
    simp [done, hHalt]
  · rename_i error hHalt
    simp [fail, hHalt]
  · rename_i pending hHalt
    simp [interrupt, hHalt]

theorem Trail.PassedBy.nest (h : a.PassedBy b) :
    (a.nest member instA).PassedBy (b.nest member instB) where
  refused := refused_nest.mpr h.refused
  behind := by
    rw [Operation.startedPaths_nest, Operation.startedPaths_nest]
    exact h.behind
  later hRefused := by
    rw [Operation.startedPaths_nest, Operation.startedPaths_nest]
    exact h.later (refused_nest.mp hRefused)

theorem Trail.Alike.nest {places rest : List PromptPlace} {plan : Plan} {done : List Operation}
    (h : Trail.Alike places rest plan.operations a b) (hNew : member ∉ done.map Operation.member)
    (hShown : ShownAlike done instA instB) :
    Trail.Alike places rest (done ++ [.recurse member plan]) (a.nest member instA)
      (b.nest member instB) := by
  have hMember : (Operation.recurse member plan).member ∉ done.map Operation.member := hNew
  have hStored (hInner : ShownAlike plan.operations a.inst b.inst) :
      ShownAlike (done ++ [.recurse member plan]) (instA.set member a.inst.toValue)
        (instB.set member b.inst.toValue) := hShown.set hMember (Operation.shown_nested hInner)
  cases h with
  | finished haltA haltB started shown surfaces =>
    rw [← Operation.startedPaths_nest a member instA, ← Operation.startedPaths_nest b member instB]
      at started
    simp only [Trail.nest, haltA, haltB] at started ⊢
    exact .finished rfl rfl started (hStored shown) surfaces
  | failed error haltA haltB shown =>
    simp only [Trail.nest, haltA, haltB]
    exact .failed error rfl rfl (hStored shown)
  | refused path causeA causeB secret haltA haltB shown =>
    simp only [Trail.nest, haltA, haltB]
    exact .refused path causeA causeB secret rfl rfl (hStored shown)
  | interrupted pendingA pendingB haltA haltB _ shown _ =>
    simp only [Trail.nest, haltA, haltB]
    exact .interrupted _ _ rfl rfl rfl (hShown.append _) (hStored shown)
  | left passed => exact .left passed.nest
  | right passed => exact .right passed.nest

end Nesting

namespace Operation

section Lists
variable {op : Operation} {ops : List Operation} {scope : Scope} {instA instB : Instance}
  {surfaceA surfaceB : Surface}

theorem started_halted {halt : Halt} (h : surfaceA.cancelled = false)
    (hHalt : (op.run scope instA surfaceA).halt = some halt) :
    (runAll (op :: ops) scope instA surfaceA).startedPaths.length =
      (op.run scope instA surfaceA).startedPaths.length + 1 := by
  rw [startedPaths_halted h hHalt, List.length_cons]

theorem started_continued (h : surfaceA.cancelled = false)
    (hHalt : (op.run scope instA surfaceA).halt = none) :
    (runAll (op :: ops) scope instA surfaceA).startedPaths.length =
      (op.run scope instA surfaceA).startedPaths.length +
        (runAll ops scope (op.run scope instA surfaceA).inst
          (op.run scope instA surfaceA).surface).startedPaths.length + 1 := by
  rw [startedPaths_continued h hHalt, List.length_cons, List.length_append]

theorem started_of_refused (h : (runAll ops scope instA surfaceA).Refused) :
    0 < (runAll ops scope instA surfaceA).startedPaths.length := by
  obtain ⟨path, cause, hRefused⟩ := h
  cases ops with
  | nil =>
    rw [runAll_nil] at hRefused
    cases hRefused
  | cons op rest =>
    cases hCancelled : surfaceA.cancelled with
    | true =>
      rw [runAll_cancelled hCancelled] at hRefused
      cases hRefused
    | false =>
      cases hHalt : (op.run scope instA surfaceA).halt with
      | some halt =>
        rw [started_halted hCancelled hHalt]
        exact Nat.succ_pos _
      | none =>
        rw [started_continued hCancelled hHalt]
        exact Nat.succ_pos _

theorem refused_halted {halt : Halt} (h : surfaceA.cancelled = false)
    (hHalt : (op.run scope instA surfaceA).halt = some halt) :
    (runAll (op :: ops) scope instA surfaceA).Refused ↔ (op.run scope instA surfaceA).Refused := by
  rw [runAll_halted h hHalt]
  exact Iff.rfl

theorem refused_continued (h : surfaceA.cancelled = false)
    (hHalt : (op.run scope instA surfaceA).halt = none) :
    (runAll (op :: ops) scope instA surfaceA).Refused ↔
      (runAll ops scope (op.run scope instA surfaceA).inst
        (op.run scope instA surfaceA).surface).Refused := by
  rw [runAll_continued h hHalt]
  exact Iff.rfl

theorem passedBy_halted (hA : surfaceA.cancelled = false) (hB : surfaceB.cancelled = false)
    (h : (op.run scope instA surfaceA).PassedBy (op.run scope instB surfaceB)) :
    (runAll (op :: ops) scope instA surfaceA).PassedBy
      (runAll (op :: ops) scope instB surfaceB) := by
  obtain ⟨hRefused, hBehind, hLater⟩ := h
  obtain ⟨path, cause, hHaltA⟩ := hRefused
  cases hHaltB : (op.run scope instB surfaceB).halt with
  | some halt =>
    refine ⟨(refused_halted hA hHaltA).mpr ⟨path, cause, hHaltA⟩, ?_, fun hOther => ?_⟩
    · rw [started_halted hA hHaltA, started_halted hB hHaltB]
      exact Nat.succ_le_succ hBehind
    · rw [started_halted hA hHaltA, started_halted hB hHaltB]
      exact Nat.succ_lt_succ (hLater ((refused_halted hB hHaltB).mp hOther))
  | none =>
    refine ⟨(refused_halted hA hHaltA).mpr ⟨path, cause, hHaltA⟩, ?_, fun hOther => ?_⟩
    · rw [started_halted hA hHaltA, started_continued hB hHaltB]
      omega
    · have hMore := started_of_refused ((refused_continued hB hHaltB).mp hOther)
      rw [started_halted hA hHaltA, started_continued hB hHaltB]
      omega

theorem passedBy_continued (hA : surfaceA.cancelled = false) (hB : surfaceB.cancelled = false)
    (haltA : (op.run scope instA surfaceA).halt = none)
    (haltB : (op.run scope instB surfaceB).halt = none)
    (hStarted : (op.run scope instA surfaceA).startedPaths.length =
      (op.run scope instB surfaceB).startedPaths.length)
    (h : (runAll ops scope (op.run scope instA surfaceA).inst
      (op.run scope instA surfaceA).surface).PassedBy (runAll ops scope
        (op.run scope instB surfaceB).inst (op.run scope instB surfaceB).surface)) :
    (runAll (op :: ops) scope instA surfaceA).PassedBy
      (runAll (op :: ops) scope instB surfaceB) := by
  obtain ⟨hRefused, hBehind, hLater⟩ := h
  refine ⟨(refused_continued hA haltA).mpr hRefused, ?_, fun hOther => ?_⟩
  · rw [started_continued hA haltA, started_continued hB haltB]
    omega
  · have hMore := hLater ((refused_continued hB haltB).mp hOther)
    rw [started_continued hA haltA, started_continued hB haltB]
    omega

end Lists

/-- The operation is a text prompt or nests a form of such operations, of distinct members. -/
def Tidy (op : Operation) : Prop :=
  op.isBound = false ∧ ∀ member inner, op = .recurse member inner → inner.Tidy

end Operation

theorem PlanOf.Tidy.operations {plan : Plan} (h : plan.Tidy) :
    (plan.operations.map Operation.member).Nodup ∧ ∀ op ∈ plan.operations, op.Tidy := by
  obtain ⟨hNodup, hOperations⟩ := h plan (.self plan)
  exact ⟨hNodup, fun op hOp => ⟨hOperations op hOp, PlanOf.forall_holds_nested h hOp⟩⟩

namespace Trail.Alike
variable {placesOp places rest : List PromptPlace} {done ops : List Operation} {op : Operation}
  {scope : Scope} {instA instB : Instance} {surfaceA surfaceB : Surface}

theorem of_finished {a b : Trail} (h : Trail.Alike places rest ops a b) (hA : a.halt = none)
    (hB : b.halt = none) :
    a.startedPaths.length = b.startedPaths.length ∧ ShownAlike ops a.inst b.inst ∧
      a.surface.Alike rest b.surface := by
  cases h with
  | finished _ _ started shown surfaces => exact ⟨started, shown, surfaces⟩
  | failed error haltA => cases hA.symm.trans haltA
  | refused path causeA causeB secret haltA => cases hA.symm.trans haltA
  | interrupted pendingA pendingB haltA => cases hA.symm.trans haltA
  | left passed =>
    obtain ⟨path, cause, haltA⟩ := passed.refused
    cases hA.symm.trans haltA
  | right passed =>
    obtain ⟨path, cause, haltB⟩ := passed.refused
    cases hB.symm.trans haltB

theorem halted (hA : surfaceA.cancelled = false) (hB : surfaceB.cancelled = false)
    (h : Trail.Alike placesOp (places ++ rest) (done ++ [op]) (op.run scope instA surfaceA)
      (op.run scope instB surfaceB))
    (hHalts : ¬ ((op.run scope instA surfaceA).halt = none ∧
      (op.run scope instB surfaceB).halt = none)) :
    Trail.Alike (placesOp ++ places) rest (done ++ op :: ops)
      (Operation.runAll (op :: ops) scope instA surfaceA)
      (Operation.runAll (op :: ops) scope instB surfaceB) := by
  have hMore {i j : Instance} (hShown : ShownAlike (done ++ [op]) i j) :
      ShownAlike (done ++ op :: ops) i j := by
    have hAppend := hShown.append ops
    rwa [List.append_assoc, List.singleton_append] at hAppend
  cases h with
  | finished haltA haltB _ _ _ => exact absurd ⟨haltA, haltB⟩ hHalts
  | failed error haltA haltB shown =>
    rw [Operation.runAll_halted hA haltA, Operation.runAll_halted hB haltB]
    exact .failed error haltA haltB (hMore shown)
  | refused path causeA causeB secret haltA haltB shown =>
    rw [Operation.runAll_halted hA haltA, Operation.runAll_halted hB haltB]
    exact .refused path causeA causeB (List.mem_append_left _ secret) haltA haltB (hMore shown)
  | interrupted pendingA pendingB haltA haltB member shown kept =>
    rw [Operation.runAll_halted hA haltA, Operation.runAll_halted hB haltB]
    exact .interrupted pendingA pendingB haltA haltB member (hMore shown) (hMore kept)
  | left passed => exact .left (Operation.passedBy_halted hA hB passed)
  | right passed => exact .right (Operation.passedBy_halted hB hA passed)

theorem continued (hA : surfaceA.cancelled = false) (hB : surfaceB.cancelled = false)
    (haltA : (op.run scope instA surfaceA).halt = none)
    (haltB : (op.run scope instB surfaceB).halt = none)
    (hStarted : (op.run scope instA surfaceA).startedPaths.length =
      (op.run scope instB surfaceB).startedPaths.length)
    (h : Trail.Alike places rest ((done ++ [op]) ++ ops)
      (Operation.runAll ops scope (op.run scope instA surfaceA).inst
        (op.run scope instA surfaceA).surface)
      (Operation.runAll ops scope (op.run scope instB surfaceB).inst
        (op.run scope instB surfaceB).surface)) :
    Trail.Alike (placesOp ++ places) rest (done ++ op :: ops)
      (Operation.runAll (op :: ops) scope instA surfaceA)
      (Operation.runAll (op :: ops) scope instB surfaceB) := by
  rw [List.append_assoc, List.singleton_append] at h
  cases h with
  | finished haltA' haltB' started shown surfaces =>
    have hAll : (Operation.runAll (op :: ops) scope instA surfaceA).startedPaths.length =
        (Operation.runAll (op :: ops) scope instB surfaceB).startedPaths.length := by
      rw [Operation.started_continued hA haltA, Operation.started_continued hB haltB]
      omega
    rw [Operation.runAll_continued hA haltA, Operation.runAll_continued hB haltB] at hAll ⊢
    exact .finished haltA' haltB' hAll shown surfaces
  | failed error haltA' haltB' shown =>
    rw [Operation.runAll_continued hA haltA, Operation.runAll_continued hB haltB]
    exact .failed error haltA' haltB' shown
  | refused path causeA causeB secret haltA' haltB' shown =>
    rw [Operation.runAll_continued hA haltA, Operation.runAll_continued hB haltB]
    exact .refused path causeA causeB (List.mem_append_right _ secret) haltA' haltB' shown
  | interrupted pendingA pendingB haltA' haltB' member shown kept =>
    rw [Operation.runAll_continued hA haltA, Operation.runAll_continued hB haltB]
    exact .interrupted pendingA pendingB haltA' haltB' member shown kept
  | left passed =>
    exact .left (Operation.passedBy_continued hA hB haltA haltB hStarted passed)
  | right passed =>
    exact .right (Operation.passedBy_continued hB hA haltB haltA hStarted.symm passed)

end Trail.Alike

namespace Operation

theorem prompts_recurse (base member : String) (plan : Plan) :
    (recurse member plan).prompts base = allPrompts (joinPath base member) plan.operations := by
  cases plan
  simp only [prompts]

theorem member_new {done ops : List Operation} {op : Operation}
    (h : ((done ++ op :: ops).map member).Nodup) : op.member ∉ done.map member := by
  rw [List.map_append, List.map_cons] at h
  exact fun hIn => (List.nodup_append.mp h).2.2 _ hIn _ List.mem_cons_self rfl

/-- Two runs that have stayed in step, with answers that differ only in their secrets, end alike or
one of them is passed by the other. -/
theorem run_alike :
    (∀ (op : Operation) (scope : Scope) (instA : Instance) (surfaceA : Surface), op.Tidy →
      ∀ (instB : Instance) (surfaceB : Surface) (done : List Operation) (rest : List PromptPlace),
        op.member ∉ done.map member → ShownAlike done instA instB →
        surfaceA.Alike (op.prompts scope.path ++ rest) surfaceB →
          Trail.Alike (op.prompts scope.path) rest (done ++ [op]) (op.run scope instA surfaceA)
            (op.run scope instB surfaceB)) ∧
    ∀ (ops : List Operation) (scope : Scope) (instA : Instance) (surfaceA : Surface),
      (∀ op ∈ ops, op.Tidy) →
      ∀ (instB : Instance) (surfaceB : Surface) (done : List Operation) (rest : List PromptPlace),
        ((done ++ ops).map member).Nodup → ShownAlike done instA instB →
        surfaceA.Alike (allPrompts scope.path ops ++ rest) surfaceB →
          Trail.Alike (allPrompts scope.path ops) rest (done ++ ops)
            (runAll ops scope instA surfaceA) (runAll ops scope instB surfaceB) := by
  -- The recursion is that of the first run. What is carried along it is that the instances are
  -- shown alike under the operations done so far; a nested form starts with none done.
  apply run_induction
  case work =>
    intro op scope instA surfaceA hWork hTidy instB surfaceB done rest hNew hShown hSurfaces
    cases op with
    | askText member title type secret search culture =>
      simp only [prompts, List.singleton_append] at hSurfaces
      simp only [prompts, run]
      exact Scope.askText_alike hNew hShown hSurfaces
    | askSelect member title source converter search culture => cases hTidy.1
    | runStep member isAsync status body => cases hTidy.1
    | recurse member plan => cases hWork
  case refused =>
    intro member plan scope instA surfaceA error hChild _ instB surfaceB done rest hNew hShown _
    have hSame : instA.get? member = instB.get? member := hShown.get?_eq hNew
    rw [run_recurse_error hChild, run_recurse_error (hSame ▸ hChild)]
    exact .failed error rfl rfl (hShown.append _)
  case nested =>
    intro member plan scope instA surfaceA child hChild ih hTidy instB surfaceB done rest hNew hShown
      hSurfaces
    have hSame : instA.get? member = instB.get? member := hShown.get?_eq hNew
    obtain ⟨hDistinct, hTidy⟩ := (hTidy.2 member plan rfl).operations
    rw [prompts_recurse] at hSurfaces ⊢
    rw [run_recurse_ok hChild, run_recurse_ok (hSame ▸ hChild)]
    exact (ih hTidy child surfaceB [] rest hDistinct (.refl _ _) hSurfaces).nest hNew hShown
  case finished =>
    intro scope instA surfaceA _ instB surfaceB done rest _ hShown hSurfaces
    rw [runAll_nil, runAll_nil]
    exact .finished rfl rfl rfl (hShown.append _) hSurfaces
  case cancelled =>
    intro op ops scope instA surfaceA hCancelled _ instB surfaceB done rest _ hShown hSurfaces
    rw [runAll_cancelled hCancelled, runAll_cancelled (hSurfaces.cancelled ▸ hCancelled)]
    exact .failed _ rfl rfl (hShown.append _)
  case halted =>
    intro op ops scope instA surfaceA halt hCancelled hHalt ih hTidy instB surfaceB done rest hNodup
      hShown hSurfaces
    simp only [allPrompts, List.append_assoc] at hSurfaces ⊢
    have hFirst := ih (hTidy op List.mem_cons_self) instB surfaceB done _ (member_new hNodup) hShown
      hSurfaces
    refine hFirst.halted hCancelled (hSurfaces.cancelled ▸ hCancelled) fun hBoth => ?_
    cases hHalt.symm.trans hBoth.1
  case continued =>
    intro op ops scope instA surfaceA hCancelled hHalt ih ihRest hTidy instB surfaceB done rest hNodup
      hShown hSurfaces
    have hCancelled' : surfaceB.cancelled = false := hSurfaces.cancelled ▸ hCancelled
    simp only [allPrompts, List.append_assoc] at hSurfaces ⊢
    have hFirst := ih (hTidy op List.mem_cons_self) instB surfaceB done _ (member_new hNodup) hShown
      hSurfaces
    cases hHaltB : (op.run scope instB surfaceB).halt with
    | some halt =>
      refine hFirst.halted hCancelled hCancelled' fun hBoth => ?_
      cases hHaltB.symm.trans hBoth.2
    | none =>
      obtain ⟨hStarted, hShown, hSurfaces⟩ := hFirst.of_finished hHalt hHaltB
      have hNodup' : (((done ++ [op]) ++ ops).map member).Nodup := by
        rwa [List.append_assoc, List.singleton_append]
      exact .continued hCancelled hCancelled' hHalt hHaltB hStarted
        (ihRest (fun other hOther => hTidy other (List.mem_cons_of_mem _ hOther)) _ _ (done ++ [op])
          rest hNodup' hShown hSurfaces)

end Operation
end FormFlow
