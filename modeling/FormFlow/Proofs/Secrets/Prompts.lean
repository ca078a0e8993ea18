import FormFlow.Proofs.Compilation.Plans
import FormFlow.Proofs.Run.Trace
import FormFlow.Proofs.Secrets.Masking
import FormFlow.Proofs.Types.Values
/-!
# Prompts with different secrets

Two runs get the same answers, but for what the secret prompts come back with.
As long as both are answered they stay in step, with instances that are shown
alike. If both are refused at a secret place, they end alike but for the cause.
-/
namespace FormFlow

section Specification

def Progress.course {σ ρ : Type} : Progress σ ρ → Progress σ Unit
  | .finished cancels state _ => .finished cancels state ()
  | .suspended cancels state next => .suspended cancels state next.course
  | .stalled state => .stalled state

structure PromptPlace where
  path : String
  secret : Bool

mutual
/-- The places of the text prompts of an operation, in the order in which they are asked. -/
def Operation.prompts (base : String) : Operation → List PromptPlace
  | .askText member _ _ secret _ _ => [⟨joinPath base member, secret⟩]
  | .askSelect _ _ _ _ _ _ => []
  | .runStep _ _ _ _ => []
  | .recurse member ⟨_, _, _, _, operations⟩ =>
    Operation.allPrompts (joinPath base member) operations

def Operation.allPrompts (base : String) : List Operation → List PromptPlace
  | [] => []
  | op :: rest => Operation.prompts base op ++ Operation.allPrompts base rest
end

def PlanOf.prompts (plan : Plan) : List PromptPlace := Operation.allPrompts "" plan.operations

/-- The answers differ only in what those given at secret places come back with. -/
inductive AnswersAlike : List PromptPlace → List Answer → List Answer → Prop where
  | same (places : List PromptPlace) (answers : List Answer) : AnswersAlike places answers answers
  | shared {path : String} {rest : List PromptPlace} {as bs : List Answer} (answer : Answer)
      (later : AnswersAlike rest as bs) :
      AnswersAlike (⟨path, false⟩ :: rest) (answer :: as) (answer :: bs)
  | secret {path : String} {rest : List PromptPlace} {as bs : List Answer} {a b : Answer}
      (course : a.course = b.course) (later : AnswersAlike rest as bs) :
      AnswersAlike (⟨path, true⟩ :: rest) (a :: as) (b :: bs)

structure Surface.Alike (places : List PromptPlace) (a b : Surface) : Prop where
  answers : AnswersAlike places a.answers b.answers
  exhausted : a.exhausted = b.exhausted
  cancelled : a.cancelled = b.cancelled

/-- Every plan in it has only text prompts and nested forms, of distinct members. -/
def PlanOf.Tidy (plan : Plan) : Prop :=
  ∀ q, plan.Holds q →
    (q.operations.map Operation.member).Nodup ∧ ∀ op ∈ q.operations, op.isBound = false

/-- The run was refused an answer. -/
def Trail.Refused (t : Trail) : Prop := ∃ path cause, t.halt = some (.failed (.prompt path cause))

/-- The trail is refused an answer where the other one goes on. -/
structure Trail.PassedBy (a b : Trail) : Prop where
  refused : a.Refused
  behind : a.startedPaths.length ≤ b.startedPaths.length
  later : b.Refused → a.startedPaths.length < b.startedPaths.length

/-- The trails end in the same way with instances that are shown alike, but for the cause at a secret
place, or one of them is passed by the other. -/
inductive Trail.Alike (places rest : List PromptPlace) (ops : List Operation) (a b : Trail) : Prop where
  | finished (haltA : a.halt = none) (haltB : b.halt = none)
      (started : a.startedPaths.length = b.startedPaths.length)
      (shown : ShownAlike ops a.inst b.inst) (surfaces : a.surface.Alike rest b.surface)
  | failed (error : ExecutionError) (haltA : a.halt = some (.failed error))
      (haltB : b.halt = some (.failed error)) (shown : ShownAlike ops a.inst b.inst)
  | refused (path : String) (causeA causeB : PromptError) (secret : ⟨path, true⟩ ∈ places)
      (haltA : a.halt = some (.failed (.prompt path causeA)))
      (haltB : b.halt = some (.failed (.prompt path causeB))) (shown : ShownAlike ops a.inst b.inst)
  | interrupted (pendingA pendingB : Pending) (haltA : a.halt = some (.interrupted pendingA))
      (haltB : b.halt = some (.interrupted pendingB)) (member : pendingA.member = pendingB.member)
      (shown : ShownAlike ops a.inst b.inst)
      (kept : ShownAlike ops (pendingA.keep a.inst) (pendingB.keep b.inst))
  | left (passed : a.PassedBy b)
  | right (passed : b.PassedBy a)

end Specification

section Answers

theorem Progress.settle_course {σ ρ : Type} (work : Progress σ ρ) (cancelled : Bool) :
    (work.course.settle cancelled).cancelled = (work.settle cancelled).cancelled ∧
      (work.course.settle cancelled).result.isSome = (work.settle cancelled).result.isSome := by
  induction work generalizing cancelled with
  | finished cancels state result => exact ⟨rfl, rfl⟩
  | stalled state => exact ⟨rfl, rfl⟩
  | suspended cancels state next ih =>
    simp only [course, settle]
    split
    · exact ⟨rfl, rfl⟩
    · exact ih false

theorem Surface.Alike.refl (places : List PromptPlace) (s : Surface) : s.Alike places s :=
  ⟨.same places s.answers, rfl, rfl⟩

theorem Surface.Alike.await {place : PromptPlace} {rest : List PromptPlace} {a b : Surface}
    (h : a.Alike (place :: rest) b) :
    a.await.2.Alike rest b.await.2 ∧
      (a.await.1 = b.await.1 ∨ place.secret = true ∧ a.await.1.isSome = b.await.1.isSome) := by
  obtain ⟨answersA, exhausted, cancelled⟩ := a
  obtain ⟨answersB, exhaustedB, cancelledB⟩ := b
  obtain ⟨hAnswers, hExhausted, hCancelled⟩ := h
  dsimp only at hAnswers hExhausted hCancelled
  subst hExhausted hCancelled
  cases hAnswers with
  | same places answers => exact ⟨.refl _ _, .inl rfl⟩
  | shared answer later => exact ⟨⟨later, rfl, rfl⟩, .inl rfl⟩
  | @secret path _ as bs x y course later =>
    obtain ⟨hCancelledX, hSomeX⟩ := x.settle_course cancelled
    obtain ⟨hCancelledY, hSomeY⟩ := y.settle_course cancelled
    rw [course] at hCancelledX hSomeX
    exact ⟨⟨later, rfl, hCancelledX.symm.trans hCancelledY⟩, .inr ⟨rfl, hSomeX.symm.trans hSomeY⟩⟩

end Answers

section Prompts

def Reply.read (type : FieldType) (reply : Reply) : Except PromptError Json :=
  match reply.text with
  | .error cause => .error cause
  | .ok answer => (coerce type answer).mapError fun cause => .invalidInput cause.message

theorem Reply.read_isNull {type : FieldType} {reply : Reply} {value : Json}
    (h : reply.read type = .ok value) : value.isNull = false := by
  unfold read at h
  split at h
  · cases h
  · rename_i answer _
    cases hValue : coerce type answer with
    | error cause =>
      rw [hValue] at h
      cases h
    | ok read =>
      rw [hValue] at h
      cases h
      have hAdmits := coerce_admits hValue
      cases value with
      | null => cases type <;> cases hAdmits
      | _ => rfl

namespace Scope
variable {scope : Scope} {inst : Instance} {surface : Surface} {member title : String}
  {type : FieldType} {secret : Bool} {search : SearchOptions} {culture : Option String}

def textEvents (scope : Scope) (title : String) (secret : Bool) (search : SearchOptions)
    (culture : Option String) : List Event :=
  [.textAsked ⟨title, secret, search.enabled, search.placeholder, culture <|> scope.culture⟩]

theorem askText_none {rest : Surface} (h : surface.await = (none, rest)) :
    scope.askText inst surface member title type secret search culture =
      .interrupt (scope.textEvents title secret search culture) rest inst (.work member) := by
  simp only [askText, h]
  rfl

theorem askText_some {reply : Reply} {rest : Surface} (h : surface.await = (some reply, rest)) :
    scope.askText inst surface member title type secret search culture =
      match reply.read type with
      | .error cause => .fail (scope.textEvents title secret search culture) rest inst
          (.prompt (joinPath scope.path member) cause)
      | .ok value =>
        .done (scope.textEvents title secret search culture) rest (inst.set member value) := by
  simp only [askText, h, Reply.read]
  cases reply.text with
  | error cause => rfl
  | ok answer =>
    dsimp only
    cases coerce type answer with
    | error cause => rfl
    | ok value => rfl

theorem askText_alike {instB : Instance} {surfaceB : Surface} {done : List Operation}
    {rest : List PromptPlace} (hNew : member ∉ done.map Operation.member)
    (hShown : ShownAlike done inst instB)
    (hSurfaces : surface.Alike (⟨joinPath scope.path member, secret⟩ :: rest) surfaceB) :
    Trail.Alike [⟨joinPath scope.path member, secret⟩] rest
      (done ++ [.askText member title type secret search culture])
      (scope.askText inst surface member title type secret search culture)
      (scope.askText instB surfaceB member title type secret search culture) := by
  obtain ⟨hRest, hReplies⟩ := hSurfaces.await
  cases hA : surface.await with | mk replyA restA =>
  cases hB : surfaceB.await with | mk replyB restB =>
  simp only [hA, hB] at hRest hReplies
  have hSame : replyA.isSome = replyB.isSome := by
    rcases hReplies with rfl | ⟨-, hSome⟩
    · rfl
    · exact hSome
  cases replyA with
  | none =>
    cases replyB with
    | some replyB => cases hSame
    | none =>
      rw [askText_none hA, askText_none hB]
      exact .interrupted _ _ rfl rfl rfl (hShown.append _) (hShown.append _)
  | some replyA =>
    cases replyB with
    | none => cases hSame
    | some replyB =>
      rw [Option.some_inj] at hReplies
      rw [askText_some hA, askText_some hB]
      cases hReadA : replyA.read type with
      | error causeA =>
        cases hReadB : replyB.read type with
        | error causeB =>
          rcases hReplies with rfl | ⟨rfl, -⟩
          · cases hReadA.symm.trans hReadB
            exact .failed _ rfl rfl (hShown.append _)
          · exact .refused _ _ _ List.mem_cons_self rfl rfl (hShown.append _)
        | ok valueB =>
          refine .left ⟨⟨_, _, rfl⟩, Nat.le_refl _, ?_⟩
          rintro ⟨_, _, ⟨⟩⟩
      | ok valueA =>
        cases hReadB : replyB.read type with
        | error causeB =>
          refine .right ⟨⟨_, _, rfl⟩, Nat.le_refl _, ?_⟩
          rintro ⟨_, _, ⟨⟩⟩
        | ok valueB =>
          have hValues : (Operation.askText member title type secret search culture).shown valueA =
              (Operation.askText member title type secret search culture).shown valueB := by
            rcases hReplies with rfl | ⟨rfl, -⟩
            · cases hReadA.symm.trans hReadB
              rfl
            · rw [Operation.shown_secret (Reply.read_isNull hReadA),
                Operation.shown_secret (Reply.read_isNull hReadB)]
          have hMember : (Operation.askText member title type secret search culture).member ∉
              done.map Operation.member := hNew
          exact .finished rfl rfl rfl (hShown.set hMember hValues) hRest

end Scope

end Prompts

end FormFlow
