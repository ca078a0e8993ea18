import FormFlow.Proofs.Compilation.Plans
import FormFlow.Proofs.Run.Position
import FormFlow.Proofs.Secrets.Masking
import Mathlib.Data.List.Nodup
/-!
# The positions that masking hides

The secret positions of a plan are those of its secret text prompts, in nested
forms as well. In the masked form of a value the mask stands at each of these
that the value has, through objects, and where it is not null. Everything else is
as it was. This determines the masked form, so nothing is left to mask in it, and
two values have the same one exactly if they differ in nothing but what is hidden.
-/
namespace FormFlow

section Specification

/-- A text that the form, or one nested in it, asks for as a secret has this position. -/
inductive PlanOf.SecretAt : Plan → List String → Prop where
  | asked {plan : Plan} {member title : String} {type : FieldType} {search : SearchOptions}
      {culture : Option String}
      (op : .askText member title type true search culture ∈ plan.operations) :
      SecretAt plan [member]
  | nested {plan inner : Plan} {member : String} {pos : List String}
      (op : .recurse member inner ∈ plan.operations) (rest : SecretAt inner pos) :
      SecretAt plan (member :: pos)

/-- What a value is at its own position: the keys of an object, and all of anything else. -/
inductive Outline where
  | object (keys : List String)
  | whole (value : Json)

namespace Json

def outline : Json → Outline
  | .obj fields => .object (Assoc.keys fields)
  | value => .whole value

/-- The value has something other than null at this secret position. -/
def Exposes (secret : List String → Prop) (value : Json) (pos : List String) : Prop :=
  secret pos ∧ ∃ held, value.at? pos = some held ∧ held.isNull = false

/-- Neither the position nor one above it is exposed. -/
def Clear (secret : List String → Prop) (value : Json) (pos : List String) : Prop :=
  ∀ above, above <+: pos → ¬ value.Exposes secret above

/-- The masked form of a value: the mask stands where a secret is exposed, and everything else is as
it was. -/
structure Masked (secret : List String → Prop) (value masked : Json) : Prop where
  hidden : ∀ pos, value.Exposes secret pos → masked.at? pos = some secretMask
  kept : ∀ pos, value.Clear secret pos → (masked.at? pos).map outline = (value.at? pos).map outline

/-- The values differ in nothing but what they expose at secret positions. -/
structure AlikeBut (secret : List String → Prop) (a b : Json) : Prop where
  exposed : ∀ pos, a.Exposes secret pos ↔ b.Exposes secret pos
  kept : ∀ pos, a.Clear secret pos → (b.at? pos).map outline = (a.at? pos).map outline

/-- The objects that the value is made of, outside of lists, have their keys in order. -/
def Ordered (value : Json) : Prop :=
  ∀ pos fields, value.at? pos = some (.obj fields) → Assoc.Sorted fields

end Json

def PlanOf.DistinctMembers (plan : Plan) : Prop :=
  ∀ q, plan.Holds q → (q.operations.map Operation.member).Nodup

end Specification

section Tables
variable {α : Type} {table other : Assoc α} {k : String}

theorem Assoc.keys_insert_of_mem (hSorted : Sorted table) (h : k ∈ keys table) (v : α) :
    keys (insert table k v) = keys table := by
  induction table with
  | nil => cases h
  | cons entry rest ih =>
    obtain ⟨key, value⟩ := entry
    obtain ⟨hHead, hRest⟩ := sorted_cons.mp hSorted
    unfold insert
    split
    · rename_i hKey
      rw [keys, List.map_cons, ← hKey]
      rfl
    · rename_i hKey
      have hIn : k ∈ keys rest := (List.mem_cons.mp h).resolve_left (Ne.symm hKey)
      have hLess : ¬ k < key := by
        obtain ⟨entry, hEntry, rfl⟩ := List.mem_map.mp hIn
        exact fun hLess => String.lt_irrefl _ (String.lt_trans hLess (hHead entry hEntry))
      rw [if_neg hLess]
      exact congrArg (key :: ·) (ih hRest hIn)

theorem Assoc.mem_keys_of_get? {v : α} (h : get? table k = some v) : k ∈ keys table :=
  List.mem_map.mpr ⟨(k, v), mem_of_get? h, rfl⟩

theorem Assoc.ext_of_keys (hKeys : keys table = keys other) (hDistinct : (keys table).Nodup)
    (h : ∀ k v, get? table k = some v → get? other k = some v) : table = other := by
  induction table generalizing other with
  | nil =>
    cases other with
    | nil => rfl
    | cons entry rest => cases hKeys
  | cons entry rest ih =>
    obtain ⟨key, value⟩ := entry
    cases other with
    | nil => cases hKeys
    | cons entry' rest' =>
      obtain ⟨key', value'⟩ := entry'
      obtain ⟨rfl, hRests⟩ := List.cons.inj hKeys
      obtain ⟨hFresh, hDistinct⟩ := List.nodup_cons.mp hDistinct
      have hValue : value' = value := by simpa [get?] using h key value (by simp [get?])
      have hRest : rest = rest' := by
        refine ih hRests hDistinct fun k v hGet => ?_
        have hNe : key ≠ k := fun hEq => hFresh (hEq ▸ mem_keys_of_get? hGet)
        simpa [get?, hNe] using h k v (by simpa [get?, hNe] using hGet)
      rw [hValue, hRest]

end Tables

namespace Json

theorem at?_obj (fields : Fields) (name : String) (rest : List String) :
    (obj fields).at? (name :: rest) =
      (Assoc.get? fields name).bind fun value => value.at? rest := rfl

theorem at?_append (value : Json) (pos more : List String) :
    value.at? (pos ++ more) = (value.at? pos).bind fun held => held.at? more := by
  induction pos generalizing value with
  | nil => rfl
  | cons name rest ih =>
    cases value with
    | obj fields =>
      rw [List.cons_append, at?_obj, at?_obj]
      cases Assoc.get? fields name with
      | none => rfl
      | some held => exact ih held
    | _ => rfl

theorem object_induction {P : Json → Prop}
    (object : ∀ fields, (∀ name value, Assoc.get? fields name = some value → P value) →
      P (.obj fields))
    (whole : ∀ value : Json, value.outline = .whole value → P value) : ∀ value, P value
  | .obj fields => object fields fun name value hGet =>
      have : sizeOf value < sizeOf fields := by
        have hMem := List.sizeOf_lt_of_mem (Assoc.mem_of_get? hGet)
        simp only [Prod.mk.sizeOf_spec] at hMem
        omega
      object_induction object whole value
  | .null => whole _ rfl
  | .bool b => whole _ rfl
  | .int n => whole _ rfl
  | .float x => whole _ rfl
  | .str s => whole _ rfl
  | .arr items => whole _ rfl
termination_by value => sizeOf value

theorem outline_eq_whole {value whole : Json} (h : value.outline = .whole whole) :
    value = whole := by
  cases value <;> cases h
  all_goals rfl

theorem outline_eq_object {value : Json} {keys : List String} (h : value.outline = .object keys) :
    ∃ fields, value = .obj fields ∧ Assoc.keys fields = keys := by
  cases value <;> cases h
  exact ⟨_, rfl, rfl⟩

theorem isNull_eq_of_outline {a b : Json} (h : a.outline = b.outline) : a.isNull = b.isNull := by
  cases hOutline : a.outline with
  | object keys =>
    obtain ⟨fields, rfl, -⟩ := outline_eq_object hOutline
    obtain ⟨others, rfl, -⟩ := outline_eq_object (h.symm.trans hOutline)
    rfl
  | whole value =>
    rw [outline_eq_whole hOutline, outline_eq_whole (h.symm.trans hOutline)]

theorem Ordered.member {fields : Fields} {name : String} {value : Json} (h : (obj fields).Ordered)
    (hGet : Assoc.get? fields name = some value) : value.Ordered := by
  intro pos inner hAt
  refine h (name :: pos) inner ?_
  rw [at?_obj, hGet]
  exact hAt

theorem Ordered.of_fields {fields : Fields} (hSorted : Assoc.Sorted fields)
    (hMembers : ∀ entry ∈ fields, entry.2.Ordered) : (obj fields).Ordered := by
  rintro (_ | ⟨name, rest⟩) inner hAt
  · cases hAt
    exact hSorted
  · rw [at?_obj] at hAt
    obtain ⟨value, hGet, hAt⟩ := Option.bind_eq_some_iff.mp hAt
    exact hMembers (name, value) (Assoc.mem_of_get? hGet) rest inner hAt

theorem Ordered.of_whole {value : Json} (h : value.outline = .whole value) : value.Ordered := by
  rintro (_ | ⟨name, rest⟩) fields hAt
  · cases hAt
    cases h
  · cases value with
    | obj others => cases h
    | _ => cases hAt

theorem eq_of_outlines {a b : Json} (hOrdered : a.Ordered)
    (h : ∀ pos, (a.at? pos).map outline = (b.at? pos).map outline) : a = b := by
  induction a using object_induction generalizing b with
  | object fields ih =>
    obtain ⟨others, rfl, hKeys⟩ := outline_eq_object (Option.some.inj (h [])).symm
    refine congrArg obj (Assoc.ext_of_keys hKeys.symm
      (Assoc.nodup_keys (hOrdered [] fields rfl)) fun name value hGet => ?_)
    have hBelow (pos : List String) : (value.at? pos).map outline =
        ((Assoc.get? others name).bind fun held => held.at? pos).map outline := by
      have hMember := h (name :: pos)
      rwa [at?_obj, hGet, at?_obj] at hMember
    cases hOther : Assoc.get? others name with
    | none =>
      have hNone := hBelow []
      rw [hOther] at hNone
      cases hNone
    | some held =>
      rw [hOther] at hBelow
      rw [ih name value hGet (hOrdered.member hGet) hBelow]
  | whole value hWhole =>
    have hRoot : outline value = outline b := Option.some.inj (h [])
    exact (outline_eq_whole (hRoot.symm.trans hWhole)).symm

section Masking
variable {secret : List String → Prop} {value masked a b : Json} {pos : List String}

theorem Exposes.of_outlines (h : a.Exposes secret pos)
    (hSame : (a.at? pos).map outline = (b.at? pos).map outline) : b.Exposes secret pos := by
  obtain ⟨hSecret, held, hAt, hHeld⟩ := h
  rw [hAt, Option.map_some] at hSame
  obtain ⟨other, hOther, hOutline⟩ := Option.map_eq_some_iff.mp hSame.symm
  exact ⟨hSecret, other, hOther, (isNull_eq_of_outline hOutline).trans hHeld⟩

theorem not_clear (h : ¬ value.Clear secret pos) :
    ∃ above more, pos = above ++ more ∧ value.Exposes secret above := by
  simp only [Clear, not_forall, not_not] at h
  obtain ⟨above, ⟨more, hMore⟩, hExposes⟩ := h
  exact ⟨above, more, hMore.symm, hExposes⟩

namespace Masked

theorem of_not_exposed (h : ∀ pos, ¬ value.Exposes secret pos) : value.Masked secret value :=
  ⟨fun pos hExposes => absurd hExposes (h pos), fun _ _ => rfl⟩

theorem eq_mask (h : value.Masked secret masked) (hClear : ¬ value.Clear secret pos) {held : Json}
    (hAt : masked.at? pos = some held) : held = secretMask := by
  obtain ⟨above, more, rfl, hExposes⟩ := not_clear hClear
  rw [at?_append, h.hidden above hExposes, Option.bind_some] at hAt
  cases more with
  | nil => exact (Option.some.inj hAt).symm
  | cons name rest => cases hAt

theorem ordered (h : value.Masked secret masked) (hOrdered : value.Ordered) : masked.Ordered := by
  intro pos fields hAt
  by_cases hClear : value.Clear secret pos
  · have hKept := h.kept pos hClear
    rw [hAt, Option.map_some] at hKept
    obtain ⟨held, hHeld, hOutline⟩ := Option.map_eq_some_iff.mp hKept.symm
    obtain ⟨others, rfl, hKeys⟩ := outline_eq_object hOutline
    have hSorted : Assoc.Sorted others := hOrdered pos others hHeld
    rwa [Assoc.Sorted, hKeys] at hSorted
  · cases h.eq_mask hClear hAt

theorem unique (hA : value.Masked secret a) (hB : value.Masked secret b) (hOrdered : a.Ordered) :
    a = b := by
  refine eq_of_outlines hOrdered fun pos => ?_
  by_cases hClear : value.Clear secret pos
  · exact (hA.kept pos hClear).trans (hB.kept pos hClear).symm
  · obtain ⟨above, more, rfl, hExposes⟩ := not_clear hClear
    rw [at?_append, at?_append, hA.hidden above hExposes, hB.hidden above hExposes]

theorem clear (h : value.Masked secret masked) (hClear : value.Clear secret pos) :
    masked.Clear secret pos := by
  intro above hAbove hExposes
  have hKept := h.kept above fun higher hHigher => hClear higher (hHigher.trans hAbove)
  exact hClear above hAbove (hExposes.of_outlines hKept)

theorem exposes (h : value.Masked secret masked) (hExposes : value.Exposes secret pos) :
    masked.Exposes secret pos :=
  ⟨hExposes.1, secretMask, h.hidden pos hExposes, rfl⟩

theorem trans {again : Json} (h : value.Masked secret masked)
    (hAgain : masked.Masked secret again) : value.Masked secret again where
  hidden pos hExposes := hAgain.hidden pos (h.exposes hExposes)
  kept pos hClear := (hAgain.kept pos (h.clear hClear)).trans (h.kept pos hClear)

end Masked

theorem AlikeBut.clear (h : AlikeBut secret a b) (hClear : a.Clear secret pos) :
    b.Clear secret pos :=
  fun above hAbove hExposes => hClear above hAbove ((h.exposed above).mpr hExposes)

theorem Masked.of_alikeBut (h : AlikeBut secret a b) (hB : b.Masked secret masked) :
    a.Masked secret masked where
  hidden pos hExposes := hB.hidden pos ((h.exposed pos).mp hExposes)
  kept pos hClear := (hB.kept pos (h.clear hClear)).trans (h.kept pos hClear)

section Apart
variable (hApart : ∀ above pos, secret above → secret pos → above <+: pos → above = pos)
include hApart

theorem Masked.exposes_of_same (hA : a.Masked secret masked) (hB : b.Masked secret masked)
    (hExposes : a.Exposes secret pos) : b.Exposes secret pos := by
  by_contra hNot
  have hClear : b.Clear secret pos := by
    intro above hAbove hAboveExposes
    exact hNot (hApart above pos hAboveExposes.1 hExposes.1 hAbove ▸ hAboveExposes)
  exact hNot ((hA.exposes hExposes).of_outlines (hB.kept pos hClear))

theorem Masked.alikeBut (hA : a.Masked secret masked) (hB : b.Masked secret masked) :
    AlikeBut secret a b where
  exposed _ := ⟨hA.exposes_of_same hApart hB, hB.exposes_of_same hApart hA⟩
  kept pos hClear := by
    have hOther : b.Clear secret pos := fun above hAbove hExposes =>
      hClear above hAbove (hB.exposes_of_same hApart hA hExposes)
    exact (hB.kept pos hOther).symm.trans (hA.kept pos hClear)

end Apart

theorem Masked.of_members {fields others : Fields} (hRoot : ¬ secret [])
    (hKeys : Assoc.keys others = Assoc.keys fields)
    (hMembers : ∀ name, ∃ shown : Json → Json,
      Assoc.get? others name = (Assoc.get? fields name).map shown ∧
        ∀ value, Assoc.get? fields name = some value →
          value.Masked (fun rest => secret (name :: rest)) (shown value)) :
    (obj fields).Masked secret (obj others) := by
  constructor
  · rintro (_ | ⟨name, rest⟩) ⟨hSecret, held, hAt, hHeld⟩
    · exact absurd hSecret hRoot
    · obtain ⟨shown, hGet, hShown⟩ := hMembers name
      rw [at?_obj] at hAt
      obtain ⟨value, hValue, hAt⟩ := Option.bind_eq_some_iff.mp hAt
      rw [at?_obj, hGet, hValue]
      exact (hShown value hValue).hidden rest ⟨hSecret, held, hAt, hHeld⟩
  · rintro (_ | ⟨name, rest⟩) hClear
    · exact congrArg (fun keys => some (Outline.object keys)) hKeys
    · obtain ⟨shown, hGet, hShown⟩ := hMembers name
      rw [at?_obj, at?_obj, hGet]
      cases hValue : Assoc.get? fields name with
      | none => rfl
      | some value =>
        refine (hShown value hValue).kept rest fun above hAbove hExposes => ?_
        obtain ⟨hSecret, held, hAt, hHeld⟩ := hExposes
        have hHolds : (obj fields).at? (name :: above) = some held := by
          rw [at?_obj, hValue]
          exact hAt
        exact hClear (name :: above) (List.cons_prefix_cons.mpr ⟨rfl, hAbove⟩)
          ⟨hSecret, held, hHolds, hHeld⟩

end Masking
end Json

namespace Operation

theorem keys_maskSecrets {fields : Fields} (h : Assoc.Sorted fields) (op : Operation) :
    Assoc.keys (op.maskSecrets fields) = Assoc.keys fields := by
  rw [maskSecrets_eq]
  split
  · rename_i mask hMask
    obtain ⟨value, hValue, -⟩ := Option.bind_eq_some_iff.mp hMask
    exact Assoc.keys_insert_of_mem h (Assoc.mem_keys_of_get? hValue) mask
  · rfl

theorem keys_maskAll {fields : Fields} (h : Assoc.Sorted fields) (ops : List Operation) :
    Assoc.keys (maskAll fields ops) = Assoc.keys fields := by
  induction ops generalizing fields with
  | nil => simp only [maskAll]
  | cons op rest ih =>
    have hKeys := keys_maskSecrets h op
    have hSorted : Assoc.Sorted (op.maskSecrets fields) := by rwa [Assoc.Sorted, hKeys]
    simp only [maskAll]
    rw [ih hSorted, hKeys]

theorem get?_maskSecrets_self (op : Operation) (fields : Fields) :
    Assoc.get? (op.maskSecrets fields) op.member = (Assoc.get? fields op.member).map op.shown := by
  rw [maskSecrets_eq]
  cases hValue : Assoc.get? fields op.member with
  | none => simpa using hValue
  | some value =>
    rw [Option.bind_some, Option.map_some, shown]
    cases op.masked? value with
    | none => exact hValue
    | some mask => exact Assoc.get?_insert_self fields op.member mask

theorem get?_maskAll_of_mem {ops : List Operation} (hDistinct : (ops.map member).Nodup)
    {op : Operation} (hOp : op ∈ ops) (fields : Fields) :
    Assoc.get? (maskAll fields ops) op.member = (Assoc.get? fields op.member).map op.shown := by
  induction ops generalizing fields with
  | nil => cases hOp
  | cons first rest ih =>
    obtain ⟨hFresh, hDistinct⟩ := List.nodup_cons.mp (List.map_cons ▸ hDistinct)
    simp only [maskAll]
    rcases List.mem_cons.mp hOp with rfl | hOp
    · rw [get?_maskAll hFresh, get?_maskSecrets_self]
    · have hNe : first.member ≠ op.member := fun hEq => hFresh (hEq ▸ List.mem_map_of_mem hOp)
      rw [ih hDistinct hOp, get?_maskSecrets_of_ne fields hNe]

def SecretBelow : Operation → List String → Prop
  | .askText _ _ _ true _ _, pos => pos = []
  | .recurse _ inner, pos => inner.SecretAt pos
  | _, _ => False

theorem shown_recurse (member : String) (inner : Plan) (value : Json) :
    (recurse member inner).shown value = inner.maskSecrets value := by
  cases value <;> rfl

theorem masked_shown {op : Operation} {value : Json}
    (h : ∀ member inner, op = .recurse member inner →
      value.Masked inner.SecretAt (inner.maskSecrets value)) :
    value.Masked op.SecretBelow (op.shown value) := by
  have hNothing (hNone : ∀ pos, ¬ op.SecretBelow pos) (hShown : op.shown value = value) :
      value.Masked op.SecretBelow (op.shown value) := by
    rw [hShown]
    exact .of_not_exposed fun pos hExposes => hNone pos hExposes.1
  cases op with
  | askText member title type secret search culture =>
    cases secret with
    | false => exact hNothing (fun _ h => h) rfl
    | true =>
      cases hNull : value.isNull with
      | true =>
        have hShown : (askText member title type true search culture).shown value = value := by
          simp [shown, masked?, hNull]
        rw [hShown]
        refine .of_not_exposed ?_
        rintro _ ⟨rfl, held, hAt, hHeld⟩
        cases hAt
        cases hNull.symm.trans hHeld
      | false =>
        rw [shown_secret hNull]
        refine ⟨?_, fun pos hClear => ?_⟩
        · rintro _ ⟨rfl, -⟩
          rfl
        · exact absurd ⟨rfl, value, rfl, hNull⟩ (hClear [] List.nil_prefix)
  | askSelect member title source converter search culture => exact hNothing (fun _ h => h) rfl
  | runStep member isAsync status body => exact hNothing (fun _ h => h) rfl
  | recurse member inner =>
    rw [shown_recurse]
    exact h member inner rfl

end Operation

namespace PlanOf
variable {plan : Plan}

theorem DistinctMembers.operations (h : plan.DistinctMembers) :
    (plan.operations.map Operation.member).Nodup ∧
      ∀ member inner, .recurse member inner ∈ plan.operations → inner.DistinctMembers :=
  forall_holds_iff.mp h

theorem distinctMembers_of_compile {c : Catalog} {limit : Nat} {t : String}
    (hCompiled : (c.compile limit t).result = .ok plan) : plan.DistinctMembers := by
  intro q hHolds
  obtain ⟨d, nested, -, hPlan⟩ := Catalog.isPlan_of_compile hCompiled q hHolds
  exact hPlan.distinctMembers

theorem secretAt_cons_iff (hDistinct : (plan.operations.map Operation.member).Nodup)
    {op : Operation} (hOp : op ∈ plan.operations) {pos : List String} :
    plan.SecretAt (op.member :: pos) ↔ op.SecretBelow pos := by
  have hSame {other : Operation} (hOther : other ∈ plan.operations)
      (hMember : other.member = op.member) : other = op :=
    List.inj_on_of_nodup_map hDistinct hOther hOp hMember
  constructor
  · intro h
    generalize hPos : op.member :: pos = whole at h
    cases h with
    | asked hAsked =>
      obtain ⟨hMember, rfl⟩ := List.cons.inj hPos
      obtain rfl := hSame hAsked hMember.symm
      rfl
    | nested hNested hRest =>
      obtain ⟨hMember, rfl⟩ := List.cons.inj hPos
      obtain rfl := hSame hNested hMember.symm
      exact hRest
  · intro h
    cases op with
    | askText member title type secret search culture =>
      cases secret with
      | false => cases h
      | true =>
        cases h
        exact .asked hOp
    | askSelect member title source converter search culture => cases h
    | runStep member isAsync status body => cases h
    | recurse member inner => exact .nested hOp h

theorem not_secretAt_nil : ¬ plan.SecretAt [] := by
  intro h
  cases h

theorem SecretAt.exists_member {name : String} {pos : List String}
    (h : plan.SecretAt (name :: pos)) : ∃ op ∈ plan.operations, op.member = name := by
  cases h with
  | asked op => exact ⟨_, op, rfl⟩
  | nested op rest => exact ⟨_, op, rfl⟩

theorem SecretAt.apart {above pos : List String} (hAbove : plan.SecretAt above)
    (hPos : plan.SecretAt pos) (hDistinct : plan.DistinctMembers) (hPrefix : above <+: pos) :
    above = pos := by
  induction hAbove generalizing pos with
  | asked op =>
    obtain ⟨rest, rfl⟩ := hPrefix
    have hBelow := (secretAt_cons_iff hDistinct.operations.1 op).mp hPos
    rw [show rest = [] from hBelow, List.append_nil]
  | nested op hRest ih =>
    obtain ⟨rest, rfl⟩ := hPrefix
    have hBelow := (secretAt_cons_iff hDistinct.operations.1 op).mp hPos
    rw [List.cons_append]
    exact congrArg _ (ih hBelow (hDistinct.operations.2 _ _ op) (List.prefix_append _ rest))

theorem masked_maskSecrets : ∀ plan : Plan, plan.DistinctMembers → ∀ value : Json, value.Ordered →
    value.Masked plan.SecretAt (plan.maskSecrets value) := by
  refine Operation.plan_induction fun plan ih hDistinct value hOrdered => ?_
  obtain ⟨hMembers, hInner⟩ := hDistinct.operations
  have hWhole (hShown : plan.maskSecrets value = value)
      (hNone : ∀ name rest, value.at? (name :: rest) = none) :
      value.Masked plan.SecretAt (plan.maskSecrets value) := by
    rw [hShown]
    refine .of_not_exposed ?_
    rintro (_ | ⟨name, rest⟩) ⟨hSecret, held, hAt, -⟩
    · exact not_secretAt_nil hSecret
    · cases (hNone name rest).symm.trans hAt
  cases value with
  | obj fields =>
    refine .of_members not_secretAt_nil (Operation.keys_maskAll (hOrdered [] fields rfl) _)
      fun name => ?_
    by_cases hName : ∃ op ∈ plan.operations, op.member = name
    · obtain ⟨op, hOp, rfl⟩ := hName
      refine ⟨op.shown, Operation.get?_maskAll_of_mem hMembers hOp fields, fun value hGet => ?_⟩
      have hSecrets : (fun rest => plan.SecretAt (op.member :: rest)) = op.SecretBelow :=
        funext fun rest => propext (secretAt_cons_iff hMembers hOp)
      rw [hSecrets]
      refine Operation.masked_shown ?_
      rintro member inner rfl
      exact ih member inner hOp (hInner member inner hOp) value (hOrdered.member hGet)
    · have hFresh : name ∉ plan.operations.map Operation.member := fun hIn =>
        hName (List.mem_map.mp hIn)
      refine ⟨id, by rw [Operation.get?_maskAll hFresh, Option.map_id, id], fun value _ => ?_⟩
      exact .of_not_exposed fun pos hExposes => hName hExposes.1.exists_member
  | _ => exact hWhole rfl fun _ _ => rfl

end PlanOf

/-- The masked form of a value has the mask at the secret positions of the plan where the value has
something other than null, and the same keys and values everywhere else. Masking it again changes
nothing, and just the values that differ in nothing but what they have at those positions have the
same masked form. -/
theorem Catalog.maskSecrets_hides_exactly {c : Catalog} {limit : Nat} {t : String} {plan : Plan}
    (hCompiled : (c.compile limit t).result = .ok plan) {value : Json} (hOrdered : value.Ordered) :
    let masked := plan.maskSecrets value
    value.Masked plan.SecretAt masked ∧ masked.Ordered ∧ plan.maskSecrets masked = masked ∧
      ∀ other : Json, other.Ordered →
        (plan.maskSecrets other = masked ↔ Json.AlikeBut plan.SecretAt value other) := by
  intro masked
  have hDistinct := PlanOf.distinctMembers_of_compile hCompiled
  have hMasked : value.Masked plan.SecretAt masked :=
    plan.masked_maskSecrets hDistinct value hOrdered
  have hKept : masked.Ordered := hMasked.ordered hOrdered
  refine ⟨hMasked, hKept, ?_, fun other hOther => ⟨fun hSame => ?_, fun hAlike => ?_⟩⟩
  · -- The masked form of the masked form is one of the value too, and a value has only one.
    have hAgain := hMasked.trans (plan.masked_maskSecrets hDistinct masked hKept)
    exact (hMasked.unique hAgain hKept).symm
  · have hOtherMasked := plan.masked_maskSecrets hDistinct other hOther
    rw [hSame] at hOtherMasked
    exact hMasked.alikeBut (fun _ _ hAbove hPos => hAbove.apart hPos hDistinct) hOtherMasked
  · have hOtherMasked := plan.masked_maskSecrets hDistinct other hOther
    exact (hMasked.unique (.of_alikeBut hAlike hOtherMasked) hKept).symm

namespace Sample

def accountForms : Catalog :=
  let line (name : String) (secret : Bool) : MemberDeclaration :=
    { name, shape := .property .text, tags := [.textPrompt { secret }] }
  .ofDeclarations [
    { name := "Account", members := [line "login" false, line "password" true,
        { name := "safe", shape := .property (.form "Safe"), tags := [.nestedForm] }] },
    { name := "Safe", members := [line "hint" true, line "owner" false, line "pin" true] }]

def accountPlan : Plan :=
  ⟨"Account", none, .default, [], [
    .askText "login" "login" .text false {} none, .askText "password" "password" .text true {} none,
    .recurse "safe" ⟨"Safe", none, .default, [], [
      .askText "hint" "hint" .text true {} none, .askText "owner" "owner" .text false {} none,
      .askText "pin" "pin" .text true {} none]⟩]⟩

def accountOf (password pin : Json) : Json :=
  .obj [("login", .str "ada"), ("password", password),
    ("safe", .obj [("hint", .null), ("owner", .str "Ada"), ("pin", pin)])]

theorem accountOf_ordered {password pin : Json} (hPassword : password.Ordered)
    (hPin : pin.Ordered) : (accountOf password pin).Ordered := by
  have hSafeKeys : ["hint", "owner", "pin"].Pairwise (· < ·) := by decide
  have hSafe : (Json.obj [("hint", .null), ("owner", .str "Ada"), ("pin", pin)]).Ordered := by
    refine .of_fields hSafeKeys ?_
    simp only [List.forall_mem_cons]
    exact ⟨.of_whole rfl, .of_whole rfl, hPin, fun entry hEntry => by cases hEntry⟩
  have hKeys : ["login", "password", "safe"].Pairwise (· < ·) := by decide
  refine .of_fields hKeys ?_
  simp only [List.forall_mem_cons]
  exact ⟨.of_whole rfl, hPassword, hSafe, fun entry hEntry => by cases hEntry⟩

theorem account_hides_password_and_pin :
    let ada := accountOf (.str "hunter2") (.int 1234)
    let other := accountOf (.arr [.str "x"]) (.int 9)
    (accountForms.compile 16 "Account").result = .ok accountPlan ∧ ada.Ordered ∧ other.Ordered ∧
      accountPlan.maskSecrets ada = accountOf secretMask secretMask ∧
      ada.Masked accountPlan.SecretAt (accountOf secretMask secretMask) ∧
      ada.AlikeBut accountPlan.SecretAt other := by
  intro ada other
  have hCompiled : (accountForms.compile 16 "Account").result = .ok accountPlan := by cbv
  have hAda : ada.Ordered := accountOf_ordered (.of_whole rfl) (.of_whole rfl)
  have hOther : other.Ordered := accountOf_ordered (.of_whole rfl) (.of_whole rfl)
  obtain ⟨hMasked, -, -, hAlike⟩ := Catalog.maskSecrets_hides_exactly hCompiled hAda
  exact ⟨hCompiled, hAda, hOther, rfl, hMasked, (hAlike other hOther).mp rfl⟩

end Sample
end FormFlow
