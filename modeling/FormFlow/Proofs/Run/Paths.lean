import FormFlow.Proofs.Compilation.Plans
import FormFlow.Proofs.Run.Listing
import Mathlib.Data.List.Nodup
import Mathlib.Data.List.Pairwise
/-!
# The paths of a plan

A dotted path tells one operation apart from all others unless a member has a name
with a dot in it. The paths of a plan are distinct exactly if in no form the name
of a member begins with that of a nested form and a dot, and goes on so that both
lead to one path.
-/
namespace FormFlow

section Specification

/-- The paths of the operation and of those nested in it, told from its own form. -/
def Operation.paths (op : Operation) : List String :=
  (op.summaryRows "" 0).map SummaryRow.path

def PlanOf.paths (plan : Plan) : List String := plan.summary.map SummaryRow.path

/-- The path is that of an operation that the operation nests. -/
def Operation.Nests (op : Operation) (path : String) : Prop :=
  ∃ inner p, op = .recurse op.member inner ∧ p ∈ inner.paths ∧ path = op.member ++ "." ++ p

/-- The name of a member begins with that of a nested form and a dot, and a path of its operation is
one that the form nests as well. -/
def PlanOf.Overlaps (plan : Plan) : Prop :=
  ∃ form ∈ plan.operations, ∃ op ∈ plan.operations,
    (∃ tail, op.member = form.member ++ "." ++ tail) ∧ ∃ path ∈ op.paths, form.Nests path

def PlanOf.Labelled (plan : Plan) : Prop := ∀ q, plan.Holds q →
  (q.operations.map Operation.member).Nodup ∧ ∀ op ∈ q.operations, op.member ≠ ""

end Specification

section Names

theorem exists_dotted_tail {first other : String} {more p q : List Char} (hNe : first ≠ other)
    (hOther : other.toList = first.toList ++ more) (hTail : '.' :: p = more ++ '.' :: q) :
    ∃ tail, other = first ++ "." ++ tail := by
  cases more with
  | nil =>
    rw [List.append_nil] at hOther
    exact absurd (String.toList_injective hOther.symm) hNe
  | cons c more =>
    obtain ⟨rfl, -⟩ := List.cons.inj hTail
    refine ⟨String.ofList more, String.toList_injective ?_⟩
    simpa [String.toList_append] using hOther

theorem dotted_toList {base base' name name' : String}
    (h : base ++ "." ++ name = base' ++ "." ++ name') :
    base.toList ++ '.' :: name.toList = base'.toList ++ '.' :: name'.toList := by
  simpa [String.toList_append] using congrArg String.toList h

theorem dotted_of_append_eq {first other p q : String} (hNe : first ≠ other)
    (h : first ++ "." ++ p = other ++ "." ++ q) :
    (∃ tail, other = first ++ "." ++ tail) ∨ ∃ tail, first = other ++ "." ++ tail := by
  rcases List.append_eq_append_iff.mp (dotted_toList h) with ⟨more, hOther, hTail⟩ | ⟨more, hFirst, hTail⟩
  · exact .inl (exists_dotted_tail hNe hOther hTail)
  · exact .inr (exists_dotted_tail hNe.symm hFirst hTail)

theorem ne_of_dotted {first other tail : String} (h : other = first ++ "." ++ tail) :
    first ≠ other := by
  rintro rfl
  have hLength := congrArg String.length h
  have hDot : ".".length = 1 := rfl
  rw [String.length_append, String.length_append, hDot] at hLength
  omega

theorem joinPath_injective (base : String) : Function.Injective (joinPath base) := by
  intro p q h
  by_cases hBase : base = ""
  · simpa [hBase] using h
  · rw [joinPath_of_ne hBase, joinPath_of_ne hBase] at h
    exact (String.append_right_inj _).mp h

end Names

namespace Operation

theorem allNamed_iff {ops : List Operation} : AllNamed ops ↔ ∀ op ∈ ops, op.Named := by
  induction ops with
  | nil => simp [AllNamed]
  | cons op rest ih => simp [AllNamed, ih]

theorem named_of_work {op : Operation} (hWork : op.isWork = true) (h : op.member ≠ "") :
    op.Named := by
  cases op with
  | recurse => cases hWork
  | _ => exact h

theorem named_recurse {member : String} {inner : Plan} (h : member ≠ "")
    (hInner : AllNamed inner.operations) : (recurse member inner).Named := by
  cases inner
  exact ⟨h, hInner⟩

theorem paths_of_work {op : Operation} (h : op.isWork = true) : op.paths = [op.member] := by
  rw [paths, summaryRows_of_work h, joinPath_empty]

theorem summaryRows_paths :
    (∀ op : Operation, op.Named → ∀ base depth,
      (op.summaryRows base depth).map SummaryRow.path = op.paths.map (joinPath base)) ∧
    ∀ ops : List Operation, AllNamed ops → ∀ base depth,
      (allSummaryRows base depth ops).map SummaryRow.path =
        (ops.flatMap paths).map (joinPath base) := by
  apply nesting_induction
  case work =>
    intro op hWork _ base depth
    rw [summaryRows_of_work hWork, paths_of_work hWork]
    rfl
  case nested =>
    intro member plan ih hNamed base depth
    have hMember : member ≠ "" := hNamed.member_ne
    rw [paths, summaryRows_recurse, summaryRows_recurse, ih hNamed.operations,
      ih hNamed.operations, joinPath_empty, List.map_cons, List.map_map]
    congr 1
    refine List.map_congr_left fun p _ => ?_
    by_cases hBase : base = ""
    · simp [hBase]
    · exact joinPath_assoc hBase hMember p
  case nil =>
    intro _ base depth
    simp only [allSummaryRows, List.map_nil, List.flatMap_nil]
  case cons =>
    intro op rest ih ihRest hNamed base depth
    rw [allSummaryRows_cons, ih hNamed.1, ihRest hNamed.2, List.flatMap_cons, List.map_append]

end Operation

namespace PlanOf.Labelled
variable {plan : Plan}

theorem nested (h : plan.Labelled) {member : String} {inner : Plan}
    (hOp : .recurse member inner ∈ plan.operations) : inner.Labelled :=
  fun q hHolds => h q (.nested hOp hHolds)

theorem allNamed : ∀ {plan : Plan}, plan.Labelled → Operation.AllNamed plan.operations := by
  intro plan
  induction plan using Operation.plan_induction with
  | step plan ih =>
    intro h
    refine Operation.allNamed_iff.mpr fun op hOp => ?_
    have hMember : op.member ≠ "" := (h plan (.self plan)).2 op hOp
    cases op with
    | recurse member inner => exact Operation.named_recurse hMember (ih member inner hOp (h.nested hOp))
    | _ => exact Operation.named_of_work rfl hMember

theorem paths_eq (h : plan.Labelled) : plan.paths = plan.operations.flatMap Operation.paths := by
  rw [PlanOf.paths, PlanOf.summary, Operation.summaryRows_paths.2 _ h.allNamed,
    List.map_congr_left (g := id) fun p _ => joinPath_empty p, List.map_id]

theorem paths_recurse {member : String} {inner : Plan} (h : inner.Labelled) :
    (Operation.recurse member inner).paths = member :: inner.paths.map (joinPath member) := by
  rw [Operation.paths, Operation.summaryRows_recurse, Operation.summaryRows_paths.2 _ h.allNamed,
    joinPath_empty, h.paths_eq]

end PlanOf.Labelled

namespace PlanOf
variable {plan : Plan}

theorem Labelled.mem_paths (h : plan.Labelled) {op : Operation} (hOp : op ∈ plan.operations)
    {path : String} : path ∈ op.paths ↔ path = op.member ∨ op.Nests path := by
  cases op with
  | recurse member inner =>
    have hMember : member ≠ "" := (h plan (.self plan)).2 _ hOp
    simp [(h.nested hOp).paths_recurse, joinPath_of_ne hMember, Operation.Nests, Operation.member,
      eq_comm]
  | _ =>
    rw [Operation.paths_of_work rfl, List.mem_singleton]
    simp [Operation.Nests]

theorem Labelled.nodup_paths_op (h : plan.Labelled) {op : Operation} (hOp : op ∈ plan.operations) :
    op.paths.Nodup ↔ ∀ member inner, op = .recurse member inner → inner.paths.Nodup := by
  cases op with
  | recurse member inner =>
    have hMember : member ≠ "" := (h plan (.self plan)).2 _ hOp
    have hSelf : member ∉ inner.paths.map (joinPath member) := by
      rintro hIn
      obtain ⟨p, -, hEq⟩ := List.mem_map.mp hIn
      rw [joinPath_of_ne hMember] at hEq
      exact ne_of_dotted hEq.symm rfl
    rw [(h.nested hOp).paths_recurse, List.nodup_cons, List.nodup_map_iff (joinPath_injective member)]
    constructor
    · rintro ⟨-, hInner⟩ _ _ ⟨⟩
      exact hInner
    · exact fun hInner => ⟨hSelf, hInner member inner rfl⟩
  | _ =>
    rw [Operation.paths_of_work rfl]
    simp

theorem Labelled.overlaps_of_common (h : plan.Labelled) {a b : Operation}
    (ha : a ∈ plan.operations) (hb : b ∈ plan.operations) (hNe : a.member ≠ b.member) {path : String}
    (hPathA : path ∈ a.paths) (hPathB : path ∈ b.paths) : plan.Overlaps := by
  rcases (h.mem_paths ha).mp hPathA with rfl | hNestsA
  · rcases (h.mem_paths hb).mp hPathB with hSame | hNestsB
    · exact absurd hSame hNe
    · obtain ⟨inner, p, -, -, hEq⟩ := id hNestsB
      exact ⟨b, hb, a, ha, ⟨p, hEq⟩, _, hPathA, hNestsB⟩
  · obtain ⟨innerA, p, -, -, hEqA⟩ := id hNestsA
    rcases (h.mem_paths hb).mp hPathB with rfl | hNestsB
    · exact ⟨a, ha, b, hb, ⟨p, hEqA⟩, _, hPathB, hNestsA⟩
    · obtain ⟨innerB, q, -, -, hEqB⟩ := id hNestsB
      rcases dotted_of_append_eq hNe (hEqA.symm.trans hEqB) with hTail | hTail
      · exact ⟨a, ha, b, hb, hTail, path, hPathB, hNestsA⟩
      · exact ⟨b, hb, a, ha, hTail, path, hPathA, hNestsB⟩

theorem Labelled.disjoint_iff (h : plan.Labelled) :
    plan.operations.Pairwise (Function.onFun List.Disjoint Operation.paths) ↔ ¬ plan.Overlaps := by
  constructor
  · rintro hDisjoint ⟨form, hForm, op, hOp, ⟨tail, hTail⟩, path, hPath, hNests⟩
    have hNe : form ≠ op := fun hEq => ne_of_dotted hTail (congrArg Operation.member hEq)
    have : Std.Symm (Function.onFun List.Disjoint Operation.paths) :=
      ⟨fun _ _ hBoth _ hFirst hLater => hBoth hLater hFirst⟩
    have hBoth : form.paths.Disjoint op.paths := hDisjoint.forall hForm hOp hNe
    exact hBoth ((h.mem_paths hForm).mpr (.inr hNests)) hPath
  · intro hNot
    have hNames := List.pairwise_map.mp (h plan (.self plan)).1
    refine hNames.imp_of_mem fun ha hb hNe path hPathA hPathB => ?_
    exact hNot (h.overlaps_of_common ha hb hNe hPathA hPathB)

theorem Labelled.nodup_paths_step (h : plan.Labelled) :
    plan.paths.Nodup ↔ ¬ plan.Overlaps ∧
      ∀ member inner, .recurse member inner ∈ plan.operations → inner.paths.Nodup := by
  rw [h.paths_eq, List.nodup_flatMap, h.disjoint_iff, and_comm]
  refine and_congr_right fun _ => ⟨fun hAll member inner hOp => ?_, fun hAll op hOp => ?_⟩
  · exact (h.nodup_paths_op hOp).mp (hAll _ hOp) member inner rfl
  · refine (h.nodup_paths_op hOp).mpr ?_
    rintro member inner rfl
    exact hAll member inner hOp

/-- Paths are distinct exactly if no form has members whose names make them overlap. -/
theorem Labelled.nodup_paths_iff : ∀ {plan : Plan}, plan.Labelled →
    (plan.paths.Nodup ↔ ∀ q, plan.Holds q → ¬ q.Overlaps) := by
  intro plan
  induction plan using Operation.plan_induction with
  | step plan ih =>
    intro h
    rw [h.nodup_paths_step, forall_holds_iff]
    refine and_congr_right fun _ => forall_congr' fun member => forall_congr' fun inner => ?_
    exact imp_congr_right fun hOp => ih member inner hOp (h.nested hOp)

theorem labelled_of_compile {c : Catalog} {limit : Nat} {t : String}
    (hCompiled : (c.compile limit t).result = .ok plan)
    (hNames : ∀ u d, c.declaration? u = some d → ∀ m ∈ d.members, m.name ≠ "") : plan.Labelled := by
  intro q hHolds
  obtain ⟨d, nested, hDeclared, hPlan⟩ := Catalog.isPlan_of_compile hCompiled q hHolds
  refine ⟨hPlan.distinctMembers, fun op hOp => ?_⟩
  obtain ⟨m, hm, hLowers⟩ := forall₂_exists_left hPlan.operations hOp
  rw [hLowers.member_eq]
  exact hNames _ d hDeclared m (List.mem_filter.mp hm).1

end PlanOf

theorem PlanOf.Overlaps.dotted {plan : Plan} (h : plan.Overlaps) :
    ∃ op ∈ plan.operations, '.' ∈ op.member.toList := by
  obtain ⟨form, -, op, hOp, ⟨tail, hTail⟩, -⟩ := h
  exact ⟨op, hOp, by simp [hTail, String.toList_append]⟩

end FormFlow
