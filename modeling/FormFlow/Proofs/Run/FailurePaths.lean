import FormFlow.Proofs.Catalog.Validation
import FormFlow.Proofs.Run.Paths
/-!
# What the path of a failure identifies

A failure names an operation of the plan: a nested form that cannot be
constructed by the path of the dependency it lacks, any other operation by its
own path. With its kind the path of a failure identifies one operation where the
paths of that sort are distinct. The path alone does where, besides, no operation
has the path of a dependency that may be lacking. That is so without dots in
names, if no nested form asks for the dependency that it lacks.
-/
namespace FormFlow

section Specification

/-- The path that a nested form is named by if it cannot be constructed, that of its first
dependency. -/
def Listed.lacking? (l : Listed) : Option String :=
  match l.operation with
  | .recurse _ plan => plan.dependencies.head?.map fun dep => joinPath l.path dep.name
  | _ => none

namespace PlanOf

def lackingPaths (plan : Plan) : List String := plan.listing.filterMap Listed.lacking?

def DotlessMembers (plan : Plan) : Prop := ∀ q, plan.Holds q → ∀ op ∈ q.operations,
  '.' ∉ op.member.toList

/-- The first dependencies of the nested forms have names without a dot. -/
def DotlessDependencies (plan : Plan) : Prop := ∀ q, plan.Holds q → ∀ member inner,
  .recurse member inner ∈ q.operations → ∀ dep ∈ inner.dependencies.head?, '.' ∉ dep.name.toList

/-- No nested form has an operation with the name of its first dependency. -/
def AsksNoDependency (plan : Plan) : Prop := ∀ q, plan.Holds q → ∀ member inner,
  .recurse member inner ∈ q.operations → ∀ dep ∈ inner.dependencies.head?,
    ∀ op ∈ inner.operations, op.member ≠ dep.name

end PlanOf
end Specification

section Names

theorem nil_of_dot_cons {more p q : List Char} (hDot : '.' ∉ p) (h : '.' :: p = more ++ '.' :: q) :
    more = [] ∧ p = q := by
  cases more with
  | nil => exact ⟨rfl, (List.cons.inj h).2⟩
  | cons c more =>
    obtain ⟨-, rfl⟩ := List.cons.inj h
    exact absurd (by simp) hDot

theorem dotted_inj {base base' name name' : String} (hName : '.' ∉ name.toList)
    (hName' : '.' ∉ name'.toList) (h : base ++ "." ++ name = base' ++ "." ++ name') :
    base = base' ∧ name = name' := by
  have hLists := dotted_toList h
  rcases List.append_eq_append_iff.mp hLists with ⟨more, hBase, hTail⟩ | ⟨more, hBase, hTail⟩
  · obtain ⟨rfl, hSame⟩ := nil_of_dot_cons hName hTail
    rw [List.append_nil] at hBase
    exact ⟨(String.toList_injective hBase).symm, String.toList_injective hSame⟩
  · obtain ⟨rfl, hSame⟩ := nil_of_dot_cons hName' hTail
    rw [List.append_nil] at hBase
    exact ⟨String.toList_injective hBase, (String.toList_injective hSame).symm⟩

end Names

section Places

def Listed.Below (l outer : Listed) : Prop :=
  ∃ member inner, outer.operation = .recurse member inner ∧ l.operation ∈ inner.operations ∧
    l.path = joinPath outer.path l.operation.member

/-- The operation is one of a form that the given one holds, and it is listed at the base or below
an operation of the listing. -/
structure Listed.Placed (form : Plan) (base : String) (listing : List Listed) (l : Listed) :
    Prop where
  held : ∃ q, form.Holds q ∧ l.operation ∈ q.operations
  path : (l.operation ∈ form.operations ∧ l.path = joinPath base l.operation.member) ∨
    ∃ outer ∈ listing, l.Below outer

theorem Listed.Placed.mono {form : Plan} {base : String} {listing more : List Listed} {l : Listed}
    (h : l.Placed form base listing) (hSubset : listing ⊆ more) : l.Placed form base more := by
  refine ⟨h.held, h.path.imp_right ?_⟩
  rintro ⟨outer, hOuter, hBelow⟩
  exact ⟨outer, hSubset hOuter, hBelow⟩

namespace Operation

theorem listing_placed :
    (∀ (op : Operation) (form : Plan) (base : String) (depth : Nat), op ∈ form.operations →
      ∀ l ∈ op.listing base depth, l.Placed form base (op.listing base depth)) ∧
    ∀ (ops : List Operation) (form : Plan) (base : String) (depth : Nat),
      (∀ op ∈ ops, op ∈ form.operations) →
        ∀ l ∈ listingAll base depth ops, l.Placed form base (listingAll base depth ops) := by
  apply nesting_induction
  case work =>
    intro op hWork form base depth hOp l hListed
    rw [listing_of_work hWork, List.mem_singleton] at hListed
    subst hListed
    exact ⟨⟨form, .self form, hOp⟩, .inl ⟨hOp, rfl⟩⟩
  case nested =>
    intro member plan ih form base depth hOp l hListed
    rw [listing_recurse] at hListed ⊢
    rcases List.mem_cons.mp hListed with rfl | hInner
    · exact ⟨⟨form, .self form, hOp⟩, .inl ⟨hOp, rfl⟩⟩
    · obtain ⟨⟨q, hHolds, hHeld⟩, hPath⟩ := ih plan _ _ (fun _ h => h) l hInner
      refine ⟨⟨q, .nested hOp hHolds, hHeld⟩, .inr ?_⟩
      rcases hPath with ⟨hOwn, hPath⟩ | ⟨outer, hOuter, hBelow⟩
      · exact ⟨_, List.mem_cons_self, member, plan, rfl, hOwn, hPath⟩
      · exact ⟨outer, List.mem_cons_of_mem _ hOuter, hBelow⟩
  case nil =>
    intro form base depth _ l hListed
    simp only [listingAll] at hListed
    cases hListed
  case cons =>
    intro op rest ih ihRest form base depth hOps l hListed
    obtain ⟨hOp, hRest⟩ := List.forall_mem_cons.mp hOps
    simp only [listingAll] at hListed ⊢
    rcases List.mem_append.mp hListed with hFirst | hLater
    · exact (ih form base depth hOp l hFirst).mono (List.subset_append_left _ _)
    · exact (ihRest form base depth hRest l hLater).mono (List.subset_append_right _ _)

end Operation

theorem PlanOf.listing_placed {plan : Plan} {l : Listed} (h : l ∈ plan.listing) :
    l.Placed plan "" plan.listing :=
  Operation.listing_placed.2 plan.operations plan "" 0 (fun _ hOp => hOp) l h

end Places

section Failures

namespace Operation

theorem listing_eq_cons (op : Operation) (base : String) (depth : Nat) :
    ∃ nested, op.listing base depth = ⟨joinPath base op.member, depth, op⟩ :: nested := by
  cases op with
  | recurse member inner => exact ⟨_, listing_recurse member inner base depth⟩
  | _ => exact ⟨[], listing_of_work rfl base depth⟩

theorem mem_listingAll {ops : List Operation} {op : Operation} (hOp : op ∈ ops) {base : String}
    {depth : Nat} {l : Listed} (hListed : l ∈ op.listing base depth) :
    l ∈ listingAll base depth ops := by
  induction ops with
  | nil => cases hOp
  | cons first rest ih =>
    simp only [listingAll, List.mem_append]
    rcases List.mem_cons.mp hOp with rfl | hRest
    · exact .inl hListed
    · exact .inr (ih hRest)

theorem run_names_listed :
    (∀ (op : Operation) (scope : Scope) (inst : Instance) (surface : Surface) (depth : Nat)
      (error : ExecutionError), (op.run scope inst surface).halt = some (.failed error) →
        ∃ l ∈ op.listing scope.path depth, error.Names l.path l.operation) ∧
    ∀ (ops : List Operation) (scope : Scope) (inst : Instance) (surface : Surface) (depth : Nat)
      (error : ExecutionError), (runAll ops scope inst surface).halt = some (.failed error) →
        ∃ l ∈ listingAll scope.path depth ops, error.Names l.path l.operation := by
  apply run_induction
  case work =>
    intro op scope inst surface hWork depth error hHalt
    rw [listing_of_work hWork]
    exact ⟨_, List.mem_singleton_self _, work_names hWork hHalt⟩
  case refused =>
    intro member plan scope inst surface error hChild depth error' hHalt
    rw [run_recurse_error hChild] at hHalt
    cases hHalt
    rw [listing_recurse]
    exact ⟨_, List.mem_cons_self, PlanOf.nestedInstance_names hChild⟩
  case nested =>
    intro member plan scope inst surface child hChild ih depth error hHalt
    rw [run_recurse_ok hChild] at hHalt
    obtain ⟨l, hListed, hNames⟩ := ih (depth + 1) error (Trail.nest_failed.mp hHalt)
    rw [listing_recurse]
    exact ⟨l, List.mem_cons_of_mem _ hListed, hNames⟩
  case finished =>
    intro scope inst surface depth error hHalt
    rw [runAll_nil] at hHalt
    cases hHalt
  case cancelled =>
    intro op rest scope inst surface hCancelled depth error hHalt
    rw [runAll_cancelled hCancelled] at hHalt
    cases hHalt
    obtain ⟨nested, hListing⟩ := op.listing_eq_cons scope.path depth
    refine ⟨⟨joinPath scope.path op.member, depth, op⟩, ?_, rfl⟩
    exact mem_listingAll List.mem_cons_self (hListing ▸ List.mem_cons_self)
  case halted =>
    intro op rest scope inst surface halt hCancelled hHalt ih depth error hEnd
    rw [runAll_halted hCancelled hHalt] at hEnd
    obtain ⟨l, hListed, hNames⟩ := ih depth error hEnd
    exact ⟨l, mem_listingAll List.mem_cons_self hListed, hNames⟩
  case continued =>
    intro op rest scope inst surface hCancelled hHalt ih ihRest depth error hEnd
    rw [runAll_continued hCancelled hHalt] at hEnd
    obtain ⟨l, hListed, hNames⟩ := ihRest depth error hEnd
    simp only [listingAll, List.mem_append]
    exact ⟨l, .inr hListed, hNames⟩

end Operation

namespace PlanOf

theorem run_failure_listed {plan : Plan} {runId : String} {culture : Option String} {inst : Instance}
    {surface : Surface} {failure : RunFailure}
    (h : (plan.run runId culture inst surface).result = .error failure) :
    ∃ l ∈ plan.listing, failure.error.Names l.path l.operation := by
  rw [run_result, Trail.failure?] at h
  cases hHalt : (plan.trail runId culture inst surface).halt with
  | none =>
    rw [hHalt] at h
    cases h
  | some halt =>
    rw [hHalt] at h
    cases halt with
    | failed error =>
      cases h
      exact Operation.run_names_listed.2 _ _ _ _ 0 error hHalt
    | interrupted pending =>
      cases h
      obtain ⟨op, hOp, hName⟩ := Operation.mem_of_interrupted hHalt
      obtain ⟨nested, hListing⟩ := op.listing_eq_cons "" 0
      refine ⟨⟨joinPath "" op.member, 0, op⟩, ?_, hName.trans (joinPath_empty _).symm⟩
      exact Operation.mem_listingAll hOp (hListing ▸ List.mem_cons_self)

end PlanOf

end Failures

section Identification

theorem Listed.lacking?_eq_some {l : Listed} {path : String} : l.lacking? = some path ↔
    ∃ member inner dep, l.operation = .recurse member inner ∧ inner.dependencies.head? = some dep ∧
      path = joinPath l.path dep.name := by
  obtain ⟨listedPath, depth, op⟩ := l
  cases op with
  | recurse member inner =>
    constructor
    · intro h
      obtain ⟨dep, hDep, rfl⟩ := Option.map_eq_some_iff.mp h
      exact ⟨member, inner, dep, rfl, hDep, rfl⟩
    · rintro ⟨_, _, dep, ⟨⟩, hDep, rfl⟩
      exact Option.map_eq_some_iff.mpr ⟨dep, hDep, rfl⟩
  | _ => simp [lacking?]

theorem ExecutionError.names_iff {error : ExecutionError} {l : Listed} :
    error.Names l.path l.operation ↔
      if error.kind = "MissingDependency" then l.lacking? = some error.path
      else l.path = error.path := by
  cases error with
  | missingDependency missing => exact Listed.lacking?_eq_some.symm
  | _ => exact eq_comm

namespace PlanOf
variable {plan : Plan} {l other : Listed}

theorem paths_eq_listing (plan : Plan) : plan.paths = plan.listing.map Listed.path := by
  rw [paths, summary_eq_listing, List.map_map]
  rfl

theorem listed_unique (h : plan.paths.Nodup) (hListed : l ∈ plan.listing)
    (hOther : other ∈ plan.listing) (hPath : other.path = l.path) : other = l := by
  rw [paths_eq_listing] at h
  exact List.inj_on_of_nodup_map h hOther hListed hPath

theorem mem_paths (h : l ∈ plan.listing) : l.path ∈ plan.paths :=
  plan.paths_eq_listing ▸ List.mem_map_of_mem h

theorem mem_lackingPaths {path : String} (h : l ∈ plan.listing) (hLacking : l.lacking? = some path) :
    path ∈ plan.lackingPaths := List.mem_filterMap.mpr ⟨l, h, hLacking⟩

theorem lacking_unique (h : plan.lackingPaths.Nodup) (hListed : l ∈ plan.listing)
    (hOther : other ∈ plan.listing) {path : String} (hLacking : l.lacking? = some path)
    (hSame : other.lacking? = some path) : other = l := by
  by_contra hNe
  have hApart := List.pairwise_filterMap.mp h
  have : Std.Symm fun a b : Listed => ∀ p, a.lacking? = some p → ∀ q, b.lacking? = some q → p ≠ q :=
    ⟨fun _ _ hBoth p hp q hq => (hBoth q hq p hp).symm⟩
  exact hApart.forall hOther hListed hNe path hSame path hLacking rfl

theorem names_unique {error : ExecutionError}
    (h : (if error.kind = "MissingDependency" then plan.lackingPaths else plan.paths).Nodup)
    (hListed : l ∈ plan.listing) (hNames : error.Names l.path l.operation)
    (hOther : other ∈ plan.listing) (hSame : error.Names other.path other.operation) :
    other = l := by
  rw [ExecutionError.names_iff] at hNames hSame
  split at h
  · rename_i hKind
    rw [if_pos hKind] at hNames hSame
    exact lacking_unique h hListed hOther hNames hSame
  · rename_i hKind
    rw [if_neg hKind] at hNames hSame
    exact listed_unique h hListed hOther (hSame.trans hNames.symm)

theorem path_unique (hOwn : plan.paths.Nodup) (hLacking : plan.lackingPaths.Nodup)
    (hApart : plan.paths.Disjoint plan.lackingPaths) {error error' : ExecutionError}
    (hPath : error'.path = error.path) (hListed : l ∈ plan.listing)
    (hNames : error.Names l.path l.operation) (hOther : other ∈ plan.listing)
    (hSame : error'.Names other.path other.operation) : other = l := by
  rw [ExecutionError.names_iff] at hNames hSame
  rw [hPath] at hSame
  split at hNames <;> split at hSame
  · exact lacking_unique hLacking hListed hOther hNames hSame
  · exact (hApart (hSame ▸ mem_paths hOther) (mem_lackingPaths hListed hNames)).elim
  · exact (hApart (hNames ▸ mem_paths hListed) (mem_lackingPaths hOther hSame)).elim
  · exact listed_unique hOwn hListed hOther (hSame.trans hNames.symm)

end PlanOf

namespace PlanOf.Labelled
variable {plan : Plan} {l other : Listed}

theorem path_ne (h : plan.Labelled) (hListed : l ∈ plan.listing) : l.path ≠ "" := by
  obtain ⟨⟨q, hHolds, hHeld⟩, hPath⟩ := listing_placed hListed
  have hMember : l.operation.member ≠ "" := (h q hHolds).2 _ hHeld
  rcases hPath with ⟨-, hPath⟩ | ⟨outer, -, _, _, -, -, hPath⟩
  · rw [hPath]
    exact joinPath_ne_empty hMember _
  · rw [hPath]
    exact joinPath_ne_empty hMember _

theorem nodup_paths (h : plan.Labelled) (hMembers : plan.DotlessMembers) : plan.paths.Nodup := by
  refine h.nodup_paths_iff.mpr fun q hHolds hOverlaps => ?_
  obtain ⟨op, hOp, hDot⟩ := hOverlaps.dotted
  exact hMembers q hHolds op hOp hDot

theorem lacking_dotted (h : plan.Labelled) (hDependencies : plan.DotlessDependencies)
    (hListed : l ∈ plan.listing) {path : String} (hLacking : l.lacking? = some path) :
    ∃ member inner dep, l.operation = .recurse member inner ∧ inner.dependencies.head? = some dep ∧
      '.' ∉ dep.name.toList ∧ path = l.path ++ "." ++ dep.name := by
  obtain ⟨member, inner, dep, hOp, hDep, rfl⟩ := Listed.lacking?_eq_some.mp hLacking
  obtain ⟨⟨q, hHolds, hHeld⟩, -⟩ := listing_placed hListed
  exact ⟨member, inner, dep, hOp, hDep, hDependencies q hHolds member inner (hOp ▸ hHeld) dep hDep,
    joinPath_of_ne (h.path_ne hListed) _⟩

theorem nodup_lackingPaths (h : plan.Labelled) (hDependencies : plan.DotlessDependencies)
    (hOwn : plan.paths.Nodup) : plan.lackingPaths.Nodup := by
  rw [PlanOf.paths_eq_listing] at hOwn
  refine List.pairwise_filterMap.mpr ((List.pairwise_map.mp hOwn).imp_of_mem ?_)
  rintro a b ha hb hNe _ hLacking _ hLacking' rfl
  obtain ⟨_, _, dep, -, -, hDot, hPath⟩ := h.lacking_dotted hDependencies ha hLacking
  obtain ⟨_, _, dep', -, -, hDot', hPath'⟩ := h.lacking_dotted hDependencies hb hLacking'
  exact hNe (dotted_inj hDot hDot' (hPath.symm.trans hPath')).1

/-- An operation with the path of a dependency that may be lacking would stand in the form that lacks
it. -/
theorem disjoint_lackingPaths (h : plan.Labelled) (hMembers : plan.DotlessMembers)
    (hDependencies : plan.DotlessDependencies) (hUnasked : plan.AsksNoDependency) :
    plan.paths.Disjoint plan.lackingPaths := by
  have hOwn := h.nodup_paths hMembers
  intro path hPath hIn
  rw [PlanOf.paths_eq_listing] at hPath
  obtain ⟨o, hListed, rfl⟩ := List.mem_map.mp hPath
  obtain ⟨l, hForm, hLacking⟩ := List.mem_filterMap.mp hIn
  obtain ⟨member, inner, dep, hOp, hDep, hDot, hPath⟩ :=
    h.lacking_dotted hDependencies hForm hLacking
  obtain ⟨⟨q, hHolds, hHeld⟩, hPlace⟩ := listing_placed hListed
  have hDotless := hMembers q hHolds _ hHeld
  rcases hPlace with ⟨-, hTop⟩ | ⟨outer, hOuter, member', inner', hOp', hInner, hBelow⟩
  · rw [joinPath_empty] at hTop
    apply hDotless
    rw [← hTop, hPath]
    simp [String.toList_append]
  · rw [joinPath_of_ne (h.path_ne hOuter)] at hBelow
    obtain ⟨hSame, hName⟩ := dotted_inj hDotless hDot (hBelow.symm.trans hPath)
    obtain rfl := PlanOf.listed_unique hOwn hForm hOuter hSame
    obtain ⟨rfl, rfl⟩ : member' = member ∧ inner' = inner := by simpa using hOp'.symm.trans hOp
    obtain ⟨⟨form, hFormHolds, hFormHeld⟩, -⟩ := listing_placed hForm
    exact hUnasked form hFormHolds _ _ (hOp ▸ hFormHeld) dep hDep _ hInner hName

end PlanOf.Labelled

end Identification

/-- The rows of a plan of a valid catalog have distinct paths exactly if no form in it has members that
overlap, and so if no member has a dot in its name. A failed run names an operation of the plan. With
the kind of the failure its path is that of no other operation if the paths of this sort are distinct,
and without the kind if, besides, no row has the path of a dependency that may be lacking. Dependencies
with dotless names have distinct paths, and no row has these if no form asks for one. -/
theorem Catalog.failure_path_identifies {declarations : List Declaration}
    (hValid : validate declarations = .ok ()) (tables : List (String × BindingTable)) {limit : Nat}
    {t : String} {plan : Plan}
    (hCompiled : (((ofDeclarations declarations).bindAll tables).compile limit t).result = .ok plan) :
    let own := plan.summary.map SummaryRow.path
    let lacking := plan.lackingPaths
    (own.Nodup ↔ ∀ q, plan.Holds q → ¬ q.Overlaps) ∧
      (plan.DotlessMembers → own.Nodup) ∧
      (plan.DotlessDependencies → own.Nodup → lacking.Nodup) ∧
      (plan.DotlessMembers → plan.DotlessDependencies → plan.AsksNoDependency →
        own.Disjoint lacking) ∧
      ∀ runId culture inst surface failure,
        (plan.run runId culture inst surface).result = .error failure →
          ∃ l ∈ plan.listing, failure.error.Names l.path l.operation ∧
            ((if failure.error.kind = "MissingDependency" then lacking else own).Nodup →
              ∀ other ∈ plan.listing, failure.error.Names other.path other.operation →
                other = l) ∧
            (own.Nodup → lacking.Nodup → own.Disjoint lacking →
              ∀ other ∈ plan.listing, ∀ error : ExecutionError, error.path = failure.error.path →
                error.Names other.path other.operation → other = l) := by
  intro own lacking
  have hLabelled : plan.Labelled := by
    refine PlanOf.labelled_of_compile hCompiled fun u d hDeclared => ?_
    rw [declaration?_bindAll] at hDeclared
    exact member_ne_of_validate hValid hDeclared
  refine ⟨hLabelled.nodup_paths_iff, hLabelled.nodup_paths, hLabelled.nodup_lackingPaths,
    hLabelled.disjoint_lackingPaths, fun runId culture inst surface failure hFailed => ?_⟩
  obtain ⟨l, hListed, hNames⟩ := PlanOf.run_failure_listed hFailed
  refine ⟨l, hListed, hNames, fun hNodup other hOther hSame => ?_,
    fun hOwn hLacking hApart other hOther error hPath hSame => ?_⟩
  · exact PlanOf.names_unique hNodup hListed hNames hOther hSame
  · exact PlanOf.path_unique hOwn hLacking hApart hPath hListed hNames hOther hSame

namespace Sample

def partyLines : List String := [
  "- name: Party\n",
  "  members:\n",
  "  - name: host\n",
  "    shape: \x7bproperty: \x7bform: Host\x7d\x7d\n",
  "    tags: [nested_form]\n",
  "  - name: host.name\n",
  "    shape: \x7bproperty: text\x7d\n",
  "    tags: [text_prompt: \x7b\x7d]\n",
  "- name: Host\n",
  "  members:\n",
  "  - name: name\n",
  "    shape: \x7bproperty: text\x7d\n",
  "    tags: [text_prompt: \x7b\x7d]\n"]

def partyText : String := String.join partyLines

def textMember (name : String) : MemberDeclaration :=
  { name, shape := .property .text, tags := [.textPrompt {}] }

def formMember (name type : String) : MemberDeclaration :=
  { name, shape := .property (.form type), tags := [.nestedForm] }

def partyForms : List Declaration := [
  { name := "Party", members := [formMember "host" "Host", textMember "host.name"] },
  { name := "Host", members := [textMember "name"] }]

def partyPlan : Plan :=
  ⟨"Party", none, .default, [], [
    .recurse "host" ⟨"Host", none, .default, [], [.askText "name" "name" .text false {} none]⟩,
    .askText "host.name" "host.name" .text false {} none]⟩

theorem partyText_toList : partyText.toList = partyLines.flatMap String.toList :=
  String.toList_join

/-- The line of a party is named like the name of its host. Both are listed with one path, and a run
that fails at the first of them names the same place as one that fails at the second. -/
theorem party_paths_clash :
    let forms := Catalog.ofDeclarations partyForms
    let first := partyPlan.run "1" none (.new "Party") ⟨[], .cancelled, false⟩
    let later := partyPlan.run "1" none (.new "Party") ⟨[text "Ada"], .cancelled, false⟩
    Catalog.ofText partyText = .ok forms ∧
      (forms.compile 16 "Party").result = .ok partyPlan ∧
      ¬ (partyPlan.summary.map SummaryRow.path).Nodup ∧
      first.events.filterMap Event.startedPath? = ["host", "host.name"] ∧
      later.events.filterMap Event.startedPath? = ["host", "host.name", "host.name"] ∧
      ∃ failure failure', first.result = .error failure ∧ later.result = .error failure' ∧
        failure.error.path = "host.name" ∧ failure'.error.path = "host.name" := by
  have hRead : declarations? partyText = some partyForms := by
    unfold declarations? Yaml.document? Yaml.Node.ofText? Yaml.tokens? Yaml.spots?
    rw [partyText_toList]
    decide +kernel
  have hNamed : WellNamed partyForms := validate_ok_iff.mp (by decide +kernel)
  intro forms first later
  exact ⟨(Catalog.ofText_ok_iff hRead).mpr ⟨hNamed, rfl⟩, by cbv, by decide, by decide, by decide,
    _, _, rfl, rfl, rfl, rfl⟩

def tripForms : List Declaration := [
  { name := "Trip"
    members := [textMember "purpose", formMember "stay" "Stay", textMember "note"] },
  { name := "Stay", members := [textMember "town", formMember "host" "Host"] },
  { name := "Host"
    members := [{ name := "badge", shape := .property .text, required := true },
      textMember "room"] }]

theorem trip_badge_identified :
    let ran := tripPlan.run "1" none (.new "Trip") twoAnswers
    tripPlan.lackingPaths = ["stay.host.badge"] ∧
      ∃ failure, ran.result = .error failure ∧ failure.error = .missingDependency "stay.host.badge" ∧
        ∃ l ∈ tripPlan.listing, failure.error.Names l.path l.operation ∧
          ∀ other ∈ tripPlan.listing, ∀ error : ExecutionError,
            error.path = failure.error.path → error.Names other.path other.operation → other = l := by
  intro ran
  have hCompiled : (((Catalog.ofDeclarations tripForms).bindAll []).compile 16 "Trip").result =
      .ok tripPlan := by cbv
  have hLacking : tripPlan.lackingPaths = ["stay.host.badge"] := rfl
  have hApart : (tripPlan.summary.map SummaryRow.path).Disjoint tripPlan.lackingPaths :=
    List.disjoint_left.mpr (by decide)
  obtain ⟨-, -, -, -, hFails⟩ := Catalog.failure_path_identifies
    (show validate tripForms = .ok () by decide +kernel) [] hCompiled
  obtain ⟨failure, hFailure, hError⟩ : ∃ failure, ran.result = .error failure ∧
      failure.error = .missingDependency "stay.host.badge" := ⟨_, rfl, rfl⟩
  obtain ⟨l, hListed, hNames, -, hOnly⟩ := hFails "1" none (.new "Trip") twoAnswers failure hFailure
  exact ⟨hLacking, failure, hFailure, hError, l, hListed, hNames,
    hOnly (by decide) (by decide) hApart⟩

end Sample
end FormFlow
