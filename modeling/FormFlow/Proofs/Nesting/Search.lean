import FormFlow.Nesting
import Mathlib.Data.List.Perm.Lattice
import Mathlib.Data.List.Nodup
import Mathlib.Logic.Relation
/-!
# The search for a nesting order

The search succeeds exactly on graphs without cycles, and otherwise tells a type
that lies on one. Two invariants carry it, whatever the graph is. No type gets
lost and no type is finished twice. And a type that is met but not finished has
only types above it on the stack that nest it; so if a type is finished later
than one it nests, nothing else can have kept it but a cycle through both.
-/
namespace FormFlow
namespace Nesting

def Nests (edges : List NestingEdge) (parent child : String) : Prop := ⟨parent, child⟩ ∈ edges

/-- No type stands before one that it nests. -/
def ChildrenFirst (edges : List NestingEdge) (types : List String) : Prop :=
  types.Pairwise fun a b => ¬ Nests edges a b

/-- A type stands before one that it nests only if that one nests it as well. -/
def BackLinked (edges : List NestingEdge) (types : List String) : Prop :=
  types.Pairwise fun a b => Nests edges a b → Relation.TransGen (Nests edges) b a

variable {edges : List NestingEdge} {nodes : List String}

@[simp] theorem mem_parents {p t : String} : p ∈ parents edges t ↔ Nests edges p t := by
  simp only [parents, Nests, List.mem_reverse, List.mem_map, List.mem_filter, decide_eq_true_eq]
  constructor
  · rintro ⟨e, ⟨hEdge, rfl⟩, rfl⟩
    exact hEdge
  · exact fun h => ⟨⟨p, t⟩, ⟨h, rfl⟩, rfl⟩

@[simp] theorem mem_children {t c : String} : c ∈ children edges t ↔ Nests edges t c := by
  simp only [children, Nests, List.mem_reverse, List.mem_map, List.mem_filter, decide_eq_true_eq]
  constructor
  · rintro ⟨e, ⟨hEdge, rfl⟩, rfl⟩
    exact hEdge
  · exact fun h => ⟨⟨t, c⟩, ⟨h, rfl⟩, rfl⟩

namespace Search

/-- What holds during every search: each type is not met yet, on the stack or finished, no type is
finished twice, and no type that was met nests itself directly. -/
structure Sound (edges : List NestingEdge) (nodes : List String) (s : Search) : Prop where
  unmet_nodup : s.unmet.Nodup
  finished_nodup : s.finished.Nodup
  finished_met : ∀ t ∈ s.finished, t ∉ s.unmet
  covers : ∀ t, t ∈ nodes ↔ t ∈ s.unmet ∨ t ∈ s.stack ∨ t ∈ s.finished
  loopless : ∀ t ∈ nodes, t ∉ s.unmet → ¬ Nests edges t t

namespace Sound
variable {unmet stack finished : List String} {top : String}

theorem meet (h : Sound edges nodes ⟨unmet, top :: stack, finished⟩) (hTop : top ∈ unmet)
    (hLoop : ¬ Nests edges top top) :
    Sound edges nodes
      ⟨unmet.erase top,
        ((parents edges top).filter fun t => t ∈ unmet.erase top).reverse ++ top :: stack,
        finished⟩ where
  unmet_nodup := h.unmet_nodup.erase top
  finished_nodup := h.finished_nodup
  finished_met t hFinished hUnmet := h.finished_met t hFinished (List.mem_of_mem_erase hUnmet)
  covers t := by
    have hErase : t ∈ unmet.erase top ↔ t ≠ top ∧ t ∈ unmet := h.unmet_nodup.mem_erase_iff
    have hCovers := h.covers t
    simp only [List.mem_cons] at hCovers
    simp only [List.mem_append, List.mem_reverse, List.mem_filter, List.mem_cons,
      decide_eq_true_eq, hErase]
    by_cases hEq : t = top
    · subst hEq
      tauto
    · tauto
  loopless t hNode hMet := by
    by_cases hEq : t = top
    · exact hEq ▸ hLoop
    · exact h.loopless t hNode fun hUnmet => hMet ((List.mem_erase_of_ne hEq).mpr hUnmet)

theorem skip (h : Sound edges nodes ⟨unmet, top :: stack, finished⟩) (hTop : top ∈ finished) :
    Sound edges nodes ⟨unmet, stack, finished⟩ where
  unmet_nodup := h.unmet_nodup
  finished_nodup := h.finished_nodup
  finished_met := h.finished_met
  covers t := by
    have hCovers := h.covers t
    simp only [List.mem_cons] at hCovers
    by_cases hEq : t = top
    · subst hEq
      tauto
    · tauto
  loopless := h.loopless

theorem finish (h : Sound edges nodes ⟨unmet, top :: stack, finished⟩) (hMet : top ∉ unmet)
    (hTop : top ∉ finished) : Sound edges nodes ⟨unmet, stack, top :: finished⟩ where
  unmet_nodup := h.unmet_nodup
  finished_nodup := List.nodup_cons.mpr ⟨hTop, h.finished_nodup⟩
  finished_met := List.forall_mem_cons.mpr ⟨hMet, h.finished_met⟩
  covers t := by
    have hCovers := h.covers t
    simp only [List.mem_cons] at hCovers ⊢
    tauto
  loopless := h.loopless

theorem start {s : Search} (h : Sound edges nodes s) (hStack : s.stack = []) (hTop : top ∈ s.unmet) :
    Sound edges nodes ⟨s.unmet, [top], s.finished⟩ where
  unmet_nodup := h.unmet_nodup
  finished_nodup := h.finished_nodup
  finished_met := h.finished_met
  covers t := by
    have hCovers := h.covers t
    rw [hStack] at hCovers
    by_cases hEq : t = top
    · subst hEq
      simp only [List.mem_singleton]
      tauto
    · simp only [List.mem_singleton, List.not_mem_nil] at hCovers ⊢
      tauto
  loopless := h.loopless

end Sound

theorem run_sound (unmet stack finished : List String) {s : Search}
    (h : Sound edges nodes ⟨unmet, stack, finished⟩)
    (hRun : run edges unmet stack finished = .ok s) :
    Sound edges nodes s ∧ s.stack = [] ∧ ∀ t ∈ s.unmet, t ∈ unmet ∧ t ∉ stack := by
  fun_induction run edges unmet stack finished with
  | case1 unmet finished =>
    cases hRun
    exact ⟨h, rfl, fun t hUnmet => ⟨hUnmet, List.not_mem_nil⟩⟩
  | case2 unmet finished top stack hTop next hLoop => cases hRun
  | case3 unmet finished top stack hTop next hLoop unmet' ih =>
    obtain ⟨hSound, hStack, hMet⟩ := ih (h.meet hTop fun hSelf => hLoop (mem_parents.mpr hSelf)) hRun
    refine ⟨hSound, hStack, fun t hUnmet => ?_⟩
    obtain ⟨hBefore, hAbove⟩ := hMet t hUnmet
    exact ⟨List.mem_of_mem_erase hBefore, fun hOn => hAbove (List.mem_append_right _ hOn)⟩
  | case4 unmet finished top stack hTop ih =>
    have hNext : Sound edges nodes
        ⟨unmet, stack, if top ∈ finished then finished else top :: finished⟩ := by
      split
      · rename_i hFinished
        exact h.skip hFinished
      · rename_i hFinished
        exact h.finish hTop hFinished
    obtain ⟨hSound, hStack, hMet⟩ := ih hNext hRun
    refine ⟨hSound, hStack, fun t hUnmet => ?_⟩
    obtain ⟨hBefore, hBelow⟩ := hMet t hUnmet
    refine ⟨hBefore, fun hOn => ?_⟩
    rcases List.mem_cons.mp hOn with rfl | hOn
    · exact hTop hBefore
    · exact hBelow hOn

theorem runAll_sound (types : List String) {s s' : Search} (h : Sound edges nodes s)
    (hStack : s.stack = []) (hRun : runAll edges types s = .ok s') :
    Sound edges nodes s' ∧ s'.stack = [] ∧ ∀ t ∈ s'.unmet, t ∈ s.unmet ∧ t ∉ types := by
  induction types generalizing s with
  | nil =>
    cases hRun
    exact ⟨h, hStack, fun t hUnmet => ⟨hUnmet, List.not_mem_nil⟩⟩
  | cons type rest ih =>
    unfold runAll at hRun
    split at hRun
    · rename_i hUnmet
      obtain ⟨next, hFirst, hRest⟩ : ∃ next, run edges s.unmet [type] s.finished = .ok next ∧
          runAll edges rest next = .ok s' := by
        cases hFirst : run edges s.unmet [type] s.finished with
        | error t => rw [hFirst] at hRun; cases hRun
        | ok next => rw [hFirst] at hRun; exact ⟨next, rfl, hRun⟩
      obtain ⟨hSound, hEmpty, hMet⟩ := run_sound _ _ _ (h.start hStack hUnmet) hFirst
      obtain ⟨hSound', hEmpty', hMet'⟩ := ih hSound hEmpty hRest
      refine ⟨hSound', hEmpty', fun t ht => ?_⟩
      obtain ⟨hNext, hLater⟩ := hMet' t ht
      obtain ⟨hBefore, hFirst⟩ := hMet t hNext
      refine ⟨hBefore, fun hType => ?_⟩
      rcases List.mem_cons.mp hType with rfl | hType
      · exact hFirst (List.mem_singleton_self t)
      · exact hLater hType
    · rename_i hMetBefore
      obtain ⟨hSound, hEmpty, hMet⟩ := ih h hStack hRun
      refine ⟨hSound, hEmpty, fun t ht => ⟨(hMet t ht).1, fun hType => ?_⟩⟩
      rcases List.mem_cons.mp hType with rfl | hType
      · exact hMetBefore (hMet t ht).1
      · exact (hMet t ht).2 hType

/-- How the types that were met hang together. Whatever nests a finished type was met, and as long as
it is not finished itself the finished type nests it as well. A type that is met but not finished has
only types above it on the stack that nest it, among them all those that nest it directly and are
still to be met. -/
structure Linked (edges : List NestingEdge) (s : Search) : Prop where
  closed : ∀ t ∈ s.finished, ∀ p, Nests edges p t →
    p ∈ s.finished ∨ p ∉ s.unmet ∧ Relation.TransGen (Nests edges) t p
  linked : BackLinked edges s.finished
  inProgress : ∀ t ∈ s.stack, t ∉ s.unmet → t ∉ s.finished →
    ∃ above below, s.stack = above ++ t :: below ∧ t ∉ above ∧
      (∀ a ∈ above, Relation.TransGen (Nests edges) a t) ∧
      ∀ p, Nests edges p t → p ∉ s.unmet ∨ p ∈ above

namespace Linked
variable {unmet stack finished : List String} {top : String}

theorem above_eq_cons {above below : List String} {t : String}
    (h : top :: stack = above ++ t :: below) (hNe : t ≠ top) :
    ∃ above', above = top :: above' ∧ stack = above' ++ t :: below := by
  rcases List.cons_eq_append_iff.mp h with ⟨rfl, hBelow⟩ | ⟨above', rfl, hStack⟩
  · cases hBelow
    exact absurd rfl hNe
  · exact ⟨above', rfl, hStack⟩

theorem meet (h : Linked edges ⟨unmet, top :: stack, finished⟩) :
    Linked edges
      ⟨unmet.erase top,
        ((parents edges top).filter fun t => t ∈ unmet.erase top).reverse ++ top :: stack,
        finished⟩ where
  closed t hFinished p hNests := (h.closed t hFinished p hNests).imp_right fun hOpen =>
    ⟨fun hUnmet => hOpen.1 (List.mem_of_mem_erase hUnmet), hOpen.2⟩
  linked := h.linked
  inProgress t hOn hMet hOpen := by
    have hNew : ∀ a ∈ ((parents edges top).filter fun t => t ∈ unmet.erase top).reverse,
        Nests edges a top ∧ a ∈ unmet.erase top := by
      intro a ha
      obtain ⟨hParent, hUnmet⟩ := List.mem_filter.mp (List.mem_reverse.mp ha)
      exact ⟨mem_parents.mp hParent, of_decide_eq_true hUnmet⟩
    by_cases hEq : t = top
    · subst hEq
      refine ⟨_, stack, rfl, fun hAbove => hMet (hNew t hAbove).2,
        fun a ha => .single (hNew a ha).1, fun p hNests => ?_⟩
      by_cases hWaiting : p ∈ unmet.erase t
      · right
        simp [hNests, hWaiting]
      · exact .inl hWaiting
    · have hOnBefore : t ∈ top :: stack :=
        (List.mem_append.mp hOn).resolve_left fun hIn => hMet (hNew t hIn).2
      have hMetBefore : t ∉ unmet := fun hBefore => hMet ((List.mem_erase_of_ne hEq).mpr hBefore)
      obtain ⟨above, below, hStack, hOnce, hReach, hParents⟩ :=
        h.inProgress t hOnBefore hMetBefore hOpen
      obtain ⟨above', rfl, hRest⟩ := above_eq_cons hStack hEq
      refine ⟨((parents edges top).filter fun t => t ∈ unmet.erase top).reverse ++ top :: above',
        below, ?_, ?_, ?_, ?_⟩
      · show _ ++ top :: stack = _
        rw [hRest, List.append_assoc, List.cons_append]
      · exact fun hIn => (List.mem_append.mp hIn).elim (fun hIn => hMet (hNew t hIn).2) hOnce
      · intro a ha
        rcases List.mem_append.mp ha with hIn | hOld
        · exact .head (hNew a hIn).1 (hReach top List.mem_cons_self)
        · exact hReach a hOld
      · intro p hNests
        exact (hParents p hNests).imp (fun hMet hUnmet => hMet (List.mem_of_mem_erase hUnmet))
          fun hIn => List.mem_append_right _ hIn

theorem below_top {t : String} (hMet : top ∉ unmet) (hNe : t ≠ top)
    (h : ∃ above below, top :: stack = above ++ t :: below ∧ t ∉ above ∧
      (∀ a ∈ above, Relation.TransGen (Nests edges) a t) ∧
      ∀ p, Nests edges p t → p ∉ unmet ∨ p ∈ above) :
    ∃ above below, stack = above ++ t :: below ∧ t ∉ above ∧
      (∀ a ∈ above, Relation.TransGen (Nests edges) a t) ∧
      ∀ p, Nests edges p t → p ∉ unmet ∨ p ∈ above := by
  obtain ⟨above, below, hStack, hOnce, hReach, hParents⟩ := h
  obtain ⟨above', rfl, hRest⟩ := above_eq_cons hStack hNe
  refine ⟨above', below, hRest, fun hIn => hOnce (List.mem_cons_of_mem _ hIn),
    fun a ha => hReach a (List.mem_cons_of_mem _ ha), fun p hNests => ?_⟩
  rcases hParents p hNests with hIn | hIn
  · exact .inl hIn
  · rcases List.mem_cons.mp hIn with rfl | hIn
    · exact .inl hMet
    · exact .inr hIn

theorem skip (h : Linked edges ⟨unmet, top :: stack, finished⟩) (hMet : top ∉ unmet)
    (hTop : top ∈ finished) : Linked edges ⟨unmet, stack, finished⟩ where
  closed := h.closed
  linked := h.linked
  inProgress t hOn hMetT hOpen :=
    below_top hMet (fun hEq => hOpen (hEq ▸ hTop))
      (h.inProgress t (List.mem_cons_of_mem _ hOn) hMetT hOpen)

theorem nested_by_top (hSound : Sound edges nodes ⟨unmet, top :: stack, finished⟩)
    (hNodes : ∀ p t, Nests edges p t → p ∈ nodes)
    (h : Linked edges ⟨unmet, top :: stack, finished⟩) (hMet : top ∉ unmet) (hTop : top ∉ finished)
    {p : String} (hNests : Nests edges p top) :
    p ∈ top :: finished ∨ p ∉ unmet ∧ Relation.TransGen (Nests edges) top p := by
  have hMetP : p ∉ unmet := by
    obtain ⟨above, below, hStack, hOnce, -, hParents⟩ :=
      h.inProgress top List.mem_cons_self hMet hTop
    refine (hParents p hNests).resolve_right fun hIn => ?_
    rcases List.cons_eq_append_iff.mp hStack with ⟨rfl, -⟩ | ⟨above', rfl, -⟩
    · cases hIn
    · exact hOnce List.mem_cons_self
  by_cases hFinished : p ∈ top :: finished
  · exact .inl hFinished
  rw [List.mem_cons, not_or] at hFinished
  obtain ⟨hNe, hOpen⟩ := hFinished
  have hStands : p ∈ top :: stack := by
    rcases (hSound.covers p).mp (hNodes p top hNests) with hIn | hIn | hIn
    · exact absurd hIn hMetP
    · exact hIn
    · exact absurd hIn hOpen
  obtain ⟨above, below, hStack, -, hReach, -⟩ := h.inProgress p hStands hMetP hOpen
  obtain ⟨above', rfl, -⟩ := above_eq_cons hStack hNe
  exact .inr ⟨hMetP, hReach top List.mem_cons_self⟩

theorem finish (hSound : Sound edges nodes ⟨unmet, top :: stack, finished⟩)
    (hNodes : ∀ p t, Nests edges p t → p ∈ nodes)
    (h : Linked edges ⟨unmet, top :: stack, finished⟩) (hMet : top ∉ unmet) (hTop : top ∉ finished) :
    Linked edges ⟨unmet, stack, top :: finished⟩ where
  closed := by
    refine List.forall_mem_cons.mpr ⟨fun p hNests =>
      nested_by_top hSound hNodes h hMet hTop hNests, fun t hFinished p hNests => ?_⟩
    exact (h.closed t hFinished p hNests).imp_left (List.mem_cons_of_mem _)
  linked := by
    refine List.pairwise_cons.mpr ⟨fun t hFinished hNests => ?_, h.linked⟩
    exact ((h.closed t hFinished top hNests).resolve_left hTop).2
  inProgress t hOn hMetT hOpen :=
    below_top hMet (fun hEq => hOpen (hEq ▸ List.mem_cons_self))
      (h.inProgress t (List.mem_cons_of_mem _ hOn) hMetT
        fun hFinished => hOpen (List.mem_cons_of_mem _ hFinished))

theorem start {s : Search} (h : Linked edges s) (hTop : top ∈ s.unmet) :
    Linked edges ⟨s.unmet, [top], s.finished⟩ where
  closed := h.closed
  linked := h.linked
  inProgress t hOn hMet := by
    rw [List.mem_singleton.mp hOn] at hMet
    exact absurd hTop hMet

end Linked

theorem run_linked (hNodes : ∀ p t, Nests edges p t → p ∈ nodes) (unmet stack finished : List String)
    (hSound : Sound edges nodes ⟨unmet, stack, finished⟩)
    (h : Linked edges ⟨unmet, stack, finished⟩) :
    (∀ t, run edges unmet stack finished = .error t → Nests edges t t) ∧
      ∀ s, run edges unmet stack finished = .ok s → Linked edges s := by
  fun_induction run edges unmet stack finished with
  | case1 unmet finished =>
    refine ⟨?_, ?_⟩
    · rintro t ⟨⟩
    · rintro s ⟨⟩
      exact h
  | case2 unmet finished top stack hTop next hLoop =>
    refine ⟨?_, ?_⟩
    · rintro t ⟨⟩
      exact mem_parents.mp hLoop
    · rintro s ⟨⟩
  | case3 unmet finished top stack hTop next hLoop unmet' ih =>
    exact ih (hSound.meet hTop fun hSelf => hLoop (mem_parents.mpr hSelf)) h.meet
  | case4 unmet finished top stack hTop ih =>
    by_cases hFinished : top ∈ finished
    · rw [dif_pos hFinished] at ih
      rw [if_pos hFinished]
      exact ih (hSound.skip hFinished) (h.skip hTop hFinished)
    · rw [dif_neg hFinished] at ih
      rw [if_neg hFinished]
      exact ih (hSound.finish hTop hFinished) (h.finish hSound hNodes hTop hFinished)

theorem runAll_linked (hNodes : ∀ p t, Nests edges p t → p ∈ nodes) (types : List String) {s : Search}
    (hSound : Sound edges nodes s) (hStack : s.stack = []) (h : Linked edges s) :
    (∀ t, runAll edges types s = .error t → Nests edges t t) ∧
      ∀ s', runAll edges types s = .ok s' → Linked edges s' := by
  induction types generalizing s with
  | nil =>
    refine ⟨?_, ?_⟩
    · rintro t ⟨⟩
    · rintro s' ⟨⟩
      exact h
  | cons type rest ih =>
    unfold runAll
    split
    · rename_i hUnmet
      have hStart := hSound.start hStack hUnmet
      obtain ⟨hLoop, hLinked⟩ := run_linked hNodes _ _ _ hStart (h.start hUnmet)
      cases hFirst : run edges s.unmet [type] s.finished with
      | error t =>
        refine ⟨?_, ?_⟩
        · rintro u ⟨⟩
          exact hLoop t hFirst
        · rintro s' ⟨⟩
      | ok next =>
        obtain ⟨hNextSound, hEmpty, -⟩ := run_sound _ _ _ hStart hFirst
        exact ih hNextSound hEmpty (hLinked next hFirst)
    · exact ih hSound hStack h

theorem sound_begin (hNodup : nodes.Nodup) : Sound edges nodes ⟨nodes, [], []⟩ where
  unmet_nodup := hNodup
  finished_nodup := List.nodup_nil
  finished_met t hFinished := absurd hFinished List.not_mem_nil
  covers t := by simp
  loopless t hNode hMet := absurd hNode hMet

theorem linked_begin : Linked edges ⟨nodes, [], []⟩ where
  closed _ hFinished := absurd hFinished List.not_mem_nil
  linked := .nil
  inProgress _ hOn := absurd hOn List.not_mem_nil

theorem finished_perm {s : Search} (hNodup : nodes.Nodup)
    (hRun : runAll edges nodes ⟨nodes, [], []⟩ = .ok s) :
    s.finished.Perm nodes ∧ ∀ t ∈ nodes, ¬ Nests edges t t := by
  obtain ⟨hSound, hStack, hMet⟩ := runAll_sound nodes (sound_begin hNodup) rfl hRun
  have hAllMet : ∀ t, t ∉ s.unmet := fun t hUnmet =>
    (hMet t hUnmet).2 ((hSound.covers t).mpr (.inl hUnmet))
  refine ⟨(List.perm_ext_iff_of_nodup hSound.finished_nodup hNodup).mpr fun t => ?_,
    fun t hNode => hSound.loopless t hNode (hAllMet t)⟩
  have hCovers := hSound.covers t
  have hNone := hAllMet t
  rw [hStack] at hCovers
  simp only [List.not_mem_nil] at hCovers
  tauto

end Search

section Walks

theorem walkBack_head {unwalked stack : List String} {u : String}
    (h : (walkBack edges unwalked stack).head? = some u) : u ∈ stack ∧ u ∈ unwalked := by
  induction stack with
  | nil =>
    rw [walkBack] at h
    cases h
  | cons top rest ih =>
    rw [walkBack] at h
    split at h
    · rename_i hFresh
      cases h
      exact ⟨List.mem_cons_self, hFresh⟩
    · obtain ⟨hRest, hUnwalked⟩ := ih h
      exact ⟨List.mem_cons_of_mem _ hRest, hUnwalked⟩

theorem walkBack_eq_nil {unwalked stack : List String} :
    walkBack edges unwalked stack = [] ↔ ∀ t ∈ stack, t ∉ unwalked := by
  induction stack with
  | nil => simp [walkBack]
  | cons top rest ih =>
    rw [walkBack, List.forall_mem_cons]
    split
    · rename_i hFresh
      simp [hFresh]
    · rename_i hWalked
      rw [ih]
      simp [hWalked]

theorem walkBack_start {unwalked : List String} {t : String} (h : t ∈ unwalked) :
    ∃ walked, walkBack edges unwalked [t] = t :: walked ∧
      (walked = [] → ∀ u ∈ unwalked.erase t, ¬ Nests edges t u) ∧
      ∀ u, walked.head? = some u → Nests edges t u ∧ u ∈ unwalked.erase t := by
  rw [walkBack]
  simp only [h, dif_pos, List.append_nil]
  refine ⟨_, rfl, fun hNone u hIn hNests => ?_, fun u hHead => ?_⟩
  · apply walkBack_eq_nil.mp hNone u _ hIn
    simp [hNests, hIn]
  · obtain ⟨hIn, hUnwalked⟩ := walkBack_head hHead
    simp only [List.mem_reverse, List.mem_filter, mem_children] at hIn
    exact ⟨hIn.1, hUnwalked⟩

theorem cycleIn?_cons {t : String} {rest unwalked : List String} (hNodup : (t :: rest).Nodup)
    (hPerm : unwalked.Perm (t :: rest)) :
    (∃ u ∈ rest, Nests edges t u ∧ cycleIn? edges unwalked (t :: rest) = some u) ∨
      (∀ u ∈ rest, ¬ Nests edges t u) ∧ ∃ unwalked', unwalked'.Perm rest ∧
        cycleIn? edges unwalked (t :: rest) = cycleIn? edges unwalked' rest := by
  have hErase : (unwalked.erase t).Perm rest :=
    (List.cons_perm_iff_perm_erase.mp hPerm.symm).2.symm
  have hFirst : t ∈ unwalked := hPerm.mem_iff.mpr List.mem_cons_self
  obtain ⟨walked, hWalk, hNone, hSome⟩ : ∃ walked, walkBack edges unwalked [t] = t :: walked ∧ _ :=
    walkBack_start hFirst
  rw [cycleIn?, hWalk]
  cases walked with
  | nil =>
    refine .inr ⟨fun u hu => hNone rfl u (hErase.mem_iff.mpr hu), _, ?_, rfl⟩
    rw [(hPerm.nodup_iff.mpr hNodup).erase_eq_filter] at hErase
    have hSame : ∀ u ∈ unwalked, (u != t) = decide (u ∉ [t]) := by
      intro u _
      rw [Bool.eq_iff_iff]
      simp
    exact List.filter_congr hSame ▸ hErase
  | cons u more =>
    obtain ⟨hNests, hIn⟩ := hSome u rfl
    exact .inl ⟨u, hErase.mem_iff.mp hIn, hNests, rfl⟩

/-- The walks find no cycle exactly in an order in which no type stands before one that it nests. -/
theorem cycleIn?_eq_none {types unwalked : List String} (hNodup : types.Nodup)
    (hPerm : unwalked.Perm types) :
    cycleIn? edges unwalked types = none ↔ ChildrenFirst edges types := by
  induction types generalizing unwalked with
  | nil => simp [cycleIn?, ChildrenFirst]
  | cons t rest ih =>
    rw [ChildrenFirst, List.pairwise_cons]
    rcases cycleIn?_cons hNodup hPerm with ⟨u, hu, hNests, hFound⟩ | ⟨hNone, _, hNext, hRest⟩
    · rw [hFound]
      simp only [reduceCtorEq, false_iff]
      exact fun h => h.1 u hu hNests
    · rw [hRest, ih (List.nodup_cons.mp hNodup).2 hNext]
      exact ⟨fun h => ⟨hNone, h⟩, fun h => h.2⟩

theorem cycleIn?_eq_some {types unwalked : List String} (hNodup : types.Nodup)
    (hPerm : unwalked.Perm types) (hLinked : BackLinked edges types) {s : String}
    (h : cycleIn? edges unwalked types = some s) : Relation.TransGen (Nests edges) s s := by
  induction types generalizing unwalked with
  | nil => cases h
  | cons t rest ih =>
    obtain ⟨hBack, hBackRest⟩ := List.pairwise_cons.mp hLinked
    rcases cycleIn?_cons hNodup hPerm with ⟨u, hu, hNests, hFound⟩ | ⟨-, _, hNext, hRest⟩
    · obtain rfl : u = s := Option.some.inj (hFound.symm.trans h)
      exact (hBack u hu hNests).tail hNests
    · exact ih (List.nodup_cons.mp hNodup).2 hNext hBackRest (hRest ▸ h)

end Walks

section Orders

theorem ChildrenFirst.idxOf_lt {types : List String} (hOrder : ChildrenFirst edges types)
    {p c : String} (hLoopless : ¬ Nests edges c c) (hp : p ∈ types) (hc : c ∈ types)
    (hNests : Nests edges p c) : types.idxOf c < types.idxOf p := by
  have hParentAt := List.idxOf_lt_length_of_mem hp
  have hChildAt := List.idxOf_lt_length_of_mem hc
  rcases Nat.lt_trichotomy (types.idxOf c) (types.idxOf p) with hLess | hEqual | hMore
  · exact hLess
  · have hSame : p = c := by
      rw [← List.getElem_idxOf hParentAt, ← List.getElem_idxOf hChildAt]
      simp only [hEqual]
    exact absurd (hSame ▸ hNests) hLoopless
  · have hNot := List.pairwise_iff_getElem.mp hOrder _ _ hParentAt hChildAt hMore
    rw [List.getElem_idxOf hParentAt, List.getElem_idxOf hChildAt] at hNot
    exact absurd hNests hNot

theorem order_ok (hNodup : nodes.Nodup) (hNodes : ∀ p t, Nests edges p t → p ∈ nodes ∧ t ∈ nodes)
    {types : List String} (h : order nodes edges = .ok types) :
    types.Perm nodes ∧ ∀ p t, Nests edges p t → types.idxOf t < types.idxOf p := by
  unfold order at h
  cases hRun : Search.runAll edges nodes ⟨nodes, [], []⟩ with
  | error t =>
    rw [hRun] at h
    cases h
  | ok s =>
    rw [hRun] at h
    obtain ⟨hPerm, hLoopless⟩ := Search.finished_perm hNodup hRun
    cases hCycle : cycleIn? edges nodes s.finished with
    | some t =>
      simp only [hCycle, bind, Except.bind] at h
      cases h
    | none =>
      simp only [hCycle, bind, Except.bind] at h
      cases h
      have hOrder := (cycleIn?_eq_none (hPerm.nodup_iff.mpr hNodup) hPerm.symm).mp hCycle
      refine ⟨hPerm, fun p t hNests => ?_⟩
      obtain ⟨hp, ht⟩ := hNodes p t hNests
      exact hOrder.idxOf_lt (hLoopless t ht) (hPerm.mem_iff.mpr hp) (hPerm.mem_iff.mpr ht) hNests

theorem order_error (hNodup : nodes.Nodup) (hNodes : ∀ p t, Nests edges p t → p ∈ nodes)
    {t : String} (h : order nodes edges = .error t) : Relation.TransGen (Nests edges) t t := by
  obtain ⟨hLoop, hLinked⟩ := Search.runAll_linked hNodes nodes
    (Search.sound_begin hNodup) rfl Search.linked_begin
  unfold order at h
  cases hRun : Search.runAll edges nodes ⟨nodes, [], []⟩ with
  | error u =>
    rw [hRun] at h
    cases h
    exact .single (hLoop t hRun)
  | ok s =>
    rw [hRun] at h
    have hPerm := (Search.finished_perm hNodup hRun).1
    cases hCycle : cycleIn? edges nodes s.finished with
    | none =>
      simp only [hCycle, bind, Except.bind] at h
      cases h
    | some u =>
      simp only [hCycle, bind, Except.bind] at h
      cases h
      exact cycleIn?_eq_some (hPerm.nodup_iff.mpr hNodup) hPerm.symm (hLinked s hRun).linked hCycle

end Orders
end Nesting
end FormFlow
