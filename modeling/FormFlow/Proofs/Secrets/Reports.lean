import FormFlow.Proofs.Factory.Plans
import FormFlow.Proofs.Json.Quote
import FormFlow.Proofs.Secrets.Indifference
import FormFlow.Report.Form
/-!
# What the report of a run tells of secrets

The report on a run in data form shows the masked values and, of a failure, the
member and the text of the error. Of two runs that differ in their secrets and
end in the same way it prints the same, except for that text: the error of a
refused secret prompt quotes the answer.
-/
namespace FormFlow

section Runs

def RunResult.error? (r : RunResult) : Option ExecutionError :=
  match r.result with
  | .ok _ => none
  | .error failure => some failure.error

def RunResult.errorText? (r : RunResult) : Option String := r.error?.map ExecutionError.message

/-- The number of operations that were started. -/
def RunResult.started (r : RunResult) : Nat := (r.events.filterMap Event.startedPath?).length

/-- Both runs complete, or both fail at the same operation with the same kind of error. Two operations
may have the same path, so the number of operations started tells which one it is. -/
inductive RunResult.EndsLike (a b : RunResult) : Prop where
  | completed (first : a.error? = none) (other : b.error? = none)
  | failed (x y : ExecutionError) (first : a.error? = some x) (other : b.error? = some y)
      (kind : x.kind = y.kind) (path : x.path = y.path) (started : a.started = b.started)

def PlanOf.Plain (plan : Plan) : Prop :=
  ∀ q, plan.Holds q → ∀ op ∈ q.operations, op.isBound = false

variable {plan : Plan} {runId : String} {culture : Option String} {inst : Instance}
  {first other : Surface}

theorem PlanOf.error?_run (surface : Surface) :
    (plan.run runId culture inst surface).error? =
      (plan.trail runId culture inst surface).failure?.map Prod.fst := by
  rw [RunResult.error?, run_result]
  cases (plan.trail runId culture inst surface).failure? <;> rfl

theorem PlanOf.runId_of_error {surface : Surface} {failure : RunFailure}
    (h : (plan.run runId culture inst surface).result = .error failure) : failure.runId = runId := by
  rw [run_result] at h
  split at h <;> cases h
  rfl

theorem PlanOf.started_run (surface : Surface) :
    (plan.run runId culture inst surface).started =
      (plan.trail runId culture inst surface).startedPaths.length :=
  congrArg List.length (plan.startedPaths_run runId culture inst surface)

theorem RunResult.EndsLike.symm {a b : RunResult} (h : a.EndsLike b) : b.EndsLike a := by
  cases h with
  | completed first other => exact .completed other first
  | failed x y first other kind path started =>
    exact .failed y x other first kind.symm path.symm started.symm

theorem PlanOf.refused_of_kind {surface : Surface} {error : ExecutionError}
    (hError : (plan.run runId culture inst surface).error? = some error)
    (hKind : error.kind = "Prompt") : (plan.trail runId culture inst surface).Refused := by
  rw [error?_run, Trail.failure?] at hError
  cases hHalt : (plan.trail runId culture inst surface).halt with
  | none =>
    rw [hHalt] at hError
    cases hError
  | some halt =>
    rw [hHalt] at hError
    cases halt with
    | interrupted pending =>
      cases hError
      simp [ExecutionError.kind] at hKind
    | failed failure =>
      cases hError
      cases failure with
      | prompt path cause => exact ⟨path, cause, hHalt⟩
      | _ => simp [ExecutionError.kind] at hKind

theorem PlanOf.not_endsLike_of_passedBy
    (h : (plan.trail runId culture inst first).PassedBy (plan.trail runId culture inst other)) :
    ¬ (plan.run runId culture inst first).EndsLike (plan.run runId culture inst other) := by
  intro hEnds
  obtain ⟨⟨path, cause, hHalt⟩, -, hLater⟩ := h
  have hError : (plan.run runId culture inst first).error? = some (.prompt path cause) := by
    rw [error?_run, Trail.failure?, hHalt]
    rfl
  cases hEnds with
  | completed hNone _ => cases hError.symm.trans hNone
  | failed x y hFirst hOther kind _ started =>
    cases hError.symm.trans hFirst
    have hMore := hLater (refused_of_kind hOther kind.symm)
    rw [started_run, started_run] at started
    omega

theorem Trail.Alike.ends (h : Trail.Alike plan.prompts [] plan.operations
      (plan.trail runId culture inst first) (plan.trail runId culture inst other))
    (hEnds : (plan.run runId culture inst first).EndsLike (plan.run runId culture inst other)) :
    ShownAlike plan.operations (plan.run runId culture inst first).reached
        (plan.run runId culture inst other).reached ∧
      ((plan.run runId culture inst first).error? = (plan.run runId culture inst other).error? ∨
        ∃ path causeA causeB, ⟨path, true⟩ ∈ plan.prompts ∧
          (plan.run runId culture inst first).error? = some (.prompt path causeA) ∧
          (plan.run runId culture inst other).error? = some (.prompt path causeB)) := by
  rw [PlanOf.run_reached, PlanOf.run_reached, PlanOf.error?_run, PlanOf.error?_run]
  cases h with
  | finished haltA haltB _ shown _ =>
    simp only [kept, failure?, haltA, haltB]
    exact ⟨shown, .inl trivial⟩
  | failed error haltA haltB shown =>
    simp only [kept, failure?, haltA, haltB]
    exact ⟨shown, .inl rfl⟩
  | refused path causeA causeB secret haltA haltB shown =>
    simp only [kept, failure?, haltA, haltB]
    exact ⟨shown, .inr ⟨path, causeA, causeB, secret, rfl, rfl⟩⟩
  | interrupted pendingA pendingB haltA haltB member shown shownKept =>
    simp only [kept, failure?, haltA, haltB, member]
    exact ⟨shownKept, .inl rfl⟩
  | left passed => exact absurd hEnds (PlanOf.not_endsLike_of_passedBy passed)
  | right passed => exact absurd hEnds.symm (PlanOf.not_endsLike_of_passedBy passed)

end Runs

section Printing

theorem append_between_inj {before after x y : String} :
    before ++ x ++ after = before ++ y ++ after ↔ x = y := by
  rw [String.append_left_inj, String.append_right_inj]

theorem pretty_obj_text (key text : String) (entry : String × Json) (rest : Fields) :
    Json.pretty (.obj ((key, .str text) :: entry :: rest)) =
      "\x7b\n  " ++ Json.quote key ++ ": " ++ Json.quote text ++
        (",\n" ++ Json.indentedFields 1 (entry :: rest) ++ "\n\x7d") := by
  have hOuter : Json.margin 0 = "" := rfl
  have hInner : Json.margin 1 = "  " := rfl
  simp only [Json.pretty, Json.indented, Json.indentedFields, Json.compact, hOuter, hInner,
    String.append_assoc, Nat.zero_add, String.empty_append]
  rfl

/-- The keys are written in ascending order, so the text of the error comes first. -/
theorem failedReport_output (form : String) (failure : RunFailure) (reached : Json) :
    (failedReport true form failure reached).output =
      Json.pretty (.obj [("error", .str failure.error.message),
        ("failed_member", .str failure.error.path), ("form", .str form), ("partial", reached),
          ("run_id", .str failure.runId), ("state", .str "failed")]) ++ "\n" := by
  have hEntries (message path runId : String) :
      Json.ofEntries [("form", .str form), ("state", .str "failed"), ("run_id", .str runId),
        ("failed_member", .str path), ("error", .str message), ("partial", reached)] =
      .obj [("error", .str message), ("failed_member", .str path), ("form", .str form),
        ("partial", reached), ("run_id", .str runId), ("state", .str "failed")] := by
    simp only [Json.ofEntries, Assoc.ofList, List.foldl_cons, List.foldl_nil]
    cbv
  simp only [failedReport, if_true, Report.ofJson, Report.ofLines, textLines, hEntries,
    List.map_cons, List.map_nil]
  exact String.empty_append

theorem failedReport_output_eq_iff {form : String} {f g : RunFailure} (reached : Json)
    (hRun : f.runId = g.runId) (hPath : f.error.path = g.error.path) :
    (failedReport true form f reached).output = (failedReport true form g reached).output ↔
      f.error.message = g.error.message := by
  rw [failedReport_output, failedReport_output, String.append_left_inj, pretty_obj_text,
    pretty_obj_text, hRun, hPath, append_between_inj]
  exact ⟨Json.quote_injective, congrArg Json.quote⟩

theorem runReport_output_eq_iff {form : String} {plan : Plan} {a b : RunResult}
    (hShown : ShownAlike plan.operations a.reached b.reached)
    (hFailed : a.error?.map ExecutionError.path = b.error?.map ExecutionError.path)
    (hRun : ∀ f g, a.result = .error f → b.result = .error g → f.runId = g.runId) :
    (runReport true form plan (a.result.mapError .run)).output =
        (runReport true form plan (b.result.mapError .run)).output ↔
      a.errorText? = b.errorText? := by
  have hMasked := PlanOf.maskSecrets_toValue hShown
  simp only [RunResult.errorText?, RunResult.error?, RunResult.reached] at hFailed hMasked ⊢
  cases hA : a.result with
  | ok instA =>
    cases hB : b.result with
    | ok instB =>
      simp only [hA, hB] at hMasked
      simp only [Except.mapError, runReport, hMasked]
    | error g =>
      simp only [hA, hB] at hFailed
      cases hFailed
  | error f =>
    cases hB : b.result with
    | ok instB =>
      simp only [hA, hB] at hFailed
      cases hFailed
    | error g =>
      simp only [hA, hB, Option.map_some, Option.some_inj] at hFailed hMasked
      simp only [Except.mapError, runReport, hMasked, Option.map_some, Option.some_inj]
      exact failedReport_output_eq_iff _ (hRun f g hA hB) hFailed

end Printing

namespace Factory.Serves
variable {f : Factory} {c : Catalog} {settings : Settings} {form : String} {plan : Plan}

theorem build_value (h : f.Serves c settings)
    (hCompiled : (c.compile settings.maxNestingDepth form).result = .ok plan) (supplied : Fields) :
    (f.build form supplied).value =
      match plan.construct supplied with
      | .error e => .error (.construction form e)
      | .ok inst =>
        (plan.run f.runId settings.defaultCulture inst f.surface).result.mapError .run := by
  have hValue := (h.plan form).1.trans hCompiled
  obtain ⟨rfl, rfl, -⟩ := h
  simp only [Factory.build, Factory.withPlan, hValue]
  cases plan.construct supplied <;> rfl

theorem runForm_value (h : f.Serves c settings)
    (hCompiled : (c.compile settings.maxNestingDepth form).result = .ok plan)
    (assignments : List String) (json : Bool) :
    (f.runForm form assignments json).value =
      match assign assignments with
      | .error e => .failed [e.message]
      | .ok supplied => runReport json form plan
        (match plan.construct supplied with
        | .error e => .error (.construction form e)
        | .ok inst =>
          (plan.run f.runId settings.defaultCulture inst f.surface).result.mapError .run) := by
  have hValue := (h.plan form).1.trans hCompiled
  unfold Factory.runForm
  cases assign assignments with
  | error e => rfl
  | ok supplied =>
    simp only [hValue]
    rw [(h.plan form).2.build_value hCompiled]
    rfl

theorem withSurface (h : f.Serves c settings) (surface : Surface) :
    ({ f with surface } : Factory).Serves c settings := ⟨h.catalog_eq, h.settings_eq, h.current⟩

end Factory.Serves

theorem PlanOf.tidy_of_compile {c : Catalog} {limit : Nat} {t : String} {plan : Plan}
    (hCompiled : (c.compile limit t).result = .ok plan) (hPlain : plan.Plain) : plan.Tidy := by
  intro q hHolds
  obtain ⟨d, nested, -, hPlan⟩ := Catalog.isPlan_of_compile hCompiled q hHolds
  exact ⟨hPlan.distinctMembers, hPlain q hHolds⟩

/-- Two calls that run a form of text prompts and nested forms, with answers that differ only in their
secrets, and end in the same way: they print the same exactly if the errors have the same text. The
errors differ only if both were refused at the same secret prompt. Calls that run nothing print the
same. -/
theorem Factory.runForm_prints_alike_iff {f : Factory} {c : Catalog} {settings : Settings}
    (hServes : f.Serves c settings) {form : String} {plan : Plan}
    (hCompiled : (c.compile settings.maxNestingDepth form).result = .ok plan) (hPlain : plan.Plain)
    (assignments : List String) {first other : Surface} (hAnswers : first.Alike plan.prompts other) :
    let printed := fun surface =>
      (({ f with surface } : Factory).runForm form assignments true).value.output
    let ran := fun inst surface => plan.run f.runId settings.defaultCulture inst surface
    (∀ supplied inst, assign assignments = .ok supplied → plan.construct supplied = .ok inst →
      (ran inst first).EndsLike (ran inst other) →
        (printed first = printed other ↔
          (ran inst first).errorText? = (ran inst other).errorText?) ∧
        ((ran inst first).error? = (ran inst other).error? ∨
          ∃ path causeA causeB, ⟨path, true⟩ ∈ plan.prompts ∧
            (ran inst first).error? = some (.prompt path causeA) ∧
            (ran inst other).error? = some (.prompt path causeB))) ∧
    ((∀ supplied inst, assign assignments = .ok supplied → plan.construct supplied ≠ .ok inst) →
      printed first = printed other) := by
  intro printed ran
  have hPrinted (surface : Surface) := (hServes.withSurface surface).runForm_value hCompiled
    assignments true
  constructor
  · intro supplied inst hSupplied hInst hEnds
    obtain ⟨hDistinct, hTidy⟩ := (PlanOf.tidy_of_compile hCompiled hPlain).operations
    have hAnswers' : first.Alike (plan.prompts ++ []) other := by
      rwa [List.append_nil]
    have hAlike := Operation.run_alike.2 plan.operations ⟨f.runId, "", plan.culture <|>
      settings.defaultCulture⟩ inst first hTidy inst other [] [] hDistinct (.refl _ _) hAnswers'
    obtain ⟨hShown, hErrors⟩ := Trail.Alike.ends hAlike hEnds
    refine ⟨?_, hErrors⟩
    simp only [printed, hPrinted, hSupplied, hInst]
    refine runReport_output_eq_iff hShown ?_ fun x y hX hY => ?_
    · rcases hErrors with hSame | ⟨path, causeA, causeB, -, hA, hB⟩
      · rw [hSame]
      · rw [hA, hB]
        rfl
    · rw [PlanOf.runId_of_error hX, PlanOf.runId_of_error hY]
  · intro hNone
    simp only [printed, hPrinted]
    cases hSupplied : assign assignments with
    | error e => rfl
    | ok supplied =>
      cases hInst : plan.construct supplied with
      | error e => simp only [hInst]
      | ok inst => exact absurd hInst (hNone supplied inst hSupplied)

namespace Sample

def owner : Declaration :=
  { name := "Owner"
    members := [
      { name := "name", shape := .property .text, tags := [.textPrompt {}] },
      { name := "vault", shape := .property (.form "Vault"), tags := [.nestedForm] }] }

def vault : Declaration :=
  { name := "Vault"
    members := [{ name := "pin", shape := .property .integer, tags := [.textPrompt { secret := true }] }] }

def vaults : Catalog := Catalog.ofDeclarations [owner, vault]

def vaultPlan : Plan := ⟨"Vault", none, .default, [], [.askText "pin" "pin" .integer true {} none]⟩

def ownerPlan : Plan :=
  ⟨"Owner", none, .default, [], [.askText "name" "name" .text false {} none,
    .recurse "vault" vaultPlan]⟩

def typed (texts : List String) : Surface := ⟨texts.map text, .cancelled, false⟩

def vaultFactory (surface : Surface) : Factory := { catalog := vaults, surface, runId := "1" }

theorem vaultPlan_plain : vaultPlan.Plain := by
  rw [PlanOf.Plain, PlanOf.forall_holds_iff]
  simp [vaultPlan, Operation.isBound]

theorem ownerPlan_plain : ownerPlan.Plain := by
  rw [PlanOf.Plain, PlanOf.forall_holds_iff]
  refine ⟨by simp [ownerPlan, Operation.isBound], fun member inner hOp => ?_⟩
  obtain ⟨-, rfl⟩ : member = "vault" ∧ inner = vaultPlan := by simpa [ownerPlan] using hOp
  exact vaultPlan_plain

theorem vault_printed_alike :
    ((vaultFactory (typed ["Ada", "1234"])).runForm "Owner" [] true).value.output =
      ((vaultFactory (typed ["Ada", "9876"])).runForm "Owner" [] true).value.output := by
  have hCompiled : (vaults.compile 16 "Owner").result = .ok ownerPlan := by cbv
  have hAlike : (typed ["Ada", "1234"]).Alike ownerPlan.prompts (typed ["Ada", "9876"]) :=
    ⟨.shared _ (.secret rfl (.same _ _)), rfl, rfl⟩
  obtain ⟨hRuns, -⟩ := Factory.runForm_prints_alike_iff
    (.new vaults (typed []) "1" {}) hCompiled ownerPlan_plain [] hAlike
  obtain ⟨hPrinted, -⟩ := hRuns [] ⟨"Owner", []⟩ rfl rfl (.completed rfl rfl)
  exact hPrinted.mpr rfl

def mistyped (pin : String) : RunFailure :=
  let reason := s!"'{pin}' is not an integer: invalid digit found in string"
  ⟨"1", "Vault", .prompt "pin" (.invalidInput reason), ⟨"Vault", []⟩⟩

theorem mistyped_message_inj {x y : String}
    (h : (mistyped x).error.message = (mistyped y).error.message) : x = y := by
  have hCause := (String.append_right_inj _).mp h
  have hReason := (String.append_right_inj _).mp hCause
  exact append_between_inj.mp hReason

/-- Two numbers that are mistyped are printed with the errors, and not alike. -/
theorem mistyped_pin_printed :
    let printed := fun pin => ((vaultFactory (typed [pin])).runForm "Vault" [] true).value.output
    let ran := fun pin => vaultPlan.run "1" none ⟨"Vault", []⟩ (typed [pin])
    (vaults.compile 16 "Vault").result = .ok vaultPlan ∧ vaultPlan.Plain ∧
      vaultPlan.construct [] = .ok ⟨"Vault", []⟩ ∧
      (typed ["12a4"]).Alike vaultPlan.prompts (typed ["98x6"]) ∧
      (ran "12a4").EndsLike (ran "98x6") ∧ printed "12a4" ≠ printed "98x6" := by
  intro printed ran
  have hCompiled : (vaults.compile 16 "Vault").result = .ok vaultPlan := by cbv
  have hPrinted (pin : String) : printed pin =
      (runReport true "Vault" vaultPlan ((ran pin).result.mapError .run)).output :=
    congrArg Report.output
      ((Factory.Serves.new vaults (typed [pin]) "1" {}).runForm_value hCompiled [] true)
  have hFirst : (ran "12a4").result = .error (mistyped "12a4") := rfl
  have hOther : (ran "98x6").result = .error (mistyped "98x6") := rfl
  have hEnds : (ran "12a4").EndsLike (ran "98x6") := by
    refine .failed (mistyped "12a4").error (mistyped "98x6").error ?_ ?_ rfl rfl rfl
    · rw [RunResult.error?, hFirst]
    · rw [RunResult.error?, hOther]
  refine ⟨hCompiled, vaultPlan_plain, rfl, ⟨.secret rfl (.same _ _), rfl, rfl⟩, hEnds, ?_⟩
  have hReport (pin : String) : runReport true "Vault" vaultPlan (.error (.run (mistyped pin))) =
      failedReport true "Vault" (mistyped pin) (.obj []) := rfl
  rw [hPrinted, hPrinted, hFirst, hOther, Except.mapError, Except.mapError, hReport, hReport]
  intro hSame
  have hMessages := (failedReport_output_eq_iff (f := mistyped "12a4") (g := mistyped "98x6")
    (.obj []) rfl rfl).mp hSame
  exact absurd (mistyped_message_inj hMessages) (by decide)

end Sample
end FormFlow
