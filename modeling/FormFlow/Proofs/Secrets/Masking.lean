import FormFlow.Instance
import FormFlow.Report.Form
/-!
# What masking shows

Masking changes the member of one operation after another, and shows of its
value what the operation allows: a mask for a secret that is set, and the masked
fields for the object of a nested form. So two instances that are shown alike
stay so when an operation assigns values that it shows alike.
-/
namespace FormFlow
namespace Operation

/-- What takes the place of a value of the member, if it is not shown as it is. -/
def masked? : Operation → Json → Option Json
  | .askText _ _ _ true _ _, value => if value.isNull then none else some secretMask
  | .recurse _ plan, .obj child => some (.obj (maskAll child plan.operations))
  | _, _ => none

def shown (op : Operation) (value : Json) : Json := (op.masked? value).getD value

theorem maskSecrets_eq (op : Operation) (fields : Fields) :
    op.maskSecrets fields =
      match (Assoc.get? fields op.member).bind op.masked? with
      | some mask => Assoc.insert fields op.member mask
      | none => fields := by
  cases op with
  | askText member title type secret search culture =>
    cases secret with
    | false =>
      simp only [maskSecrets, Operation.member]
      cases Assoc.get? fields member <;> rfl
    | true =>
      simp only [maskSecrets, Operation.member]
      cases Assoc.get? fields member with
      | none => rfl
      | some value =>
        simp only [masked?, Option.bind_some]
        cases value.isNull <;> rfl
  | askSelect member title source converter search culture =>
    simp only [maskSecrets, Operation.member]
    cases Assoc.get? fields member <;> rfl
  | runStep member isAsync status body =>
    simp only [maskSecrets, Operation.member]
    cases Assoc.get? fields member <;> rfl
  | recurse member plan =>
    cases plan
    simp only [maskSecrets, Operation.member]
    cases Assoc.get? fields member with
    | none => rfl
    | some value => cases value <;> rfl

section Insertion
variable (fields : Fields)

theorem maskSecrets_insert (op : Operation) (value : Json) :
    op.maskSecrets (Assoc.insert fields op.member value) =
      Assoc.insert fields op.member (op.shown value) := by
  rw [maskSecrets_eq, Assoc.get?_insert_self, Option.bind_some, shown]
  cases op.masked? value with
  | none => rfl
  | some mask => exact Assoc.insert_insert fields op.member value mask

theorem maskSecrets_insert_of_ne {op : Operation} {name : String} (h : op.member ≠ name)
    (value : Json) :
    op.maskSecrets (Assoc.insert fields name value) =
      Assoc.insert (op.maskSecrets fields) name value := by
  rw [maskSecrets_eq, maskSecrets_eq, Assoc.get?_insert_of_ne _ _ h]
  cases (Assoc.get? fields op.member).bind op.masked? with
  | none => rfl
  | some mask => exact Assoc.insert_comm fields value mask h.symm

theorem get?_maskSecrets_of_ne {op : Operation} {name : String} (h : op.member ≠ name) :
    Assoc.get? (op.maskSecrets fields) name = Assoc.get? fields name := by
  rw [maskSecrets_eq]
  split
  · exact Assoc.get?_insert_of_ne _ _ h.symm
  · rfl

end Insertion

theorem maskAll_append (ops later : List Operation) (fields : Fields) :
    maskAll fields (ops ++ later) = maskAll (maskAll fields ops) later := by
  induction ops generalizing fields with
  | nil => simp only [List.nil_append, maskAll]
  | cons op rest ih => simp only [List.cons_append, maskAll, ih]

theorem maskAll_insert {ops : List Operation} {name : String} (h : name ∉ ops.map member)
    (fields : Fields) (value : Json) :
    maskAll (Assoc.insert fields name value) ops = Assoc.insert (maskAll fields ops) name value := by
  induction ops generalizing fields with
  | nil => simp only [maskAll]
  | cons op rest ih =>
    rw [List.map_cons, List.mem_cons, not_or] at h
    simp only [maskAll]
    rw [maskSecrets_insert_of_ne fields (Ne.symm h.1), ih h.2]

theorem get?_maskAll {ops : List Operation} {name : String} (h : name ∉ ops.map member)
    (fields : Fields) : Assoc.get? (maskAll fields ops) name = Assoc.get? fields name := by
  induction ops generalizing fields with
  | nil => simp only [maskAll]
  | cons op rest ih =>
    rw [List.map_cons, List.mem_cons, not_or] at h
    simp only [maskAll]
    rw [ih h.2, get?_maskSecrets_of_ne fields (Ne.symm h.1)]

end Operation

/-- The instances are the same once the operations are masked. -/
def ShownAlike (ops : List Operation) (a b : Instance) : Prop :=
  Operation.maskAll a.fields ops = Operation.maskAll b.fields ops

namespace ShownAlike
variable {ops : List Operation} {a b : Instance}

theorem refl (ops : List Operation) (a : Instance) : ShownAlike ops a a := rfl

theorem append (h : ShownAlike ops a b) (later : List Operation) :
    ShownAlike (ops ++ later) a b := by
  rw [ShownAlike, Operation.maskAll_append, Operation.maskAll_append, h]

theorem get?_eq (h : ShownAlike ops a b) {name : String} (hName : name ∉ ops.map Operation.member) :
    a.get? name = b.get? name := by
  rw [Instance.get?, Instance.get?, ← Operation.get?_maskAll hName a.fields, h,
    Operation.get?_maskAll hName]

theorem set (h : ShownAlike ops a b) {op : Operation} (hNew : op.member ∉ ops.map Operation.member)
    {v w : Json} (hShown : op.shown v = op.shown w) :
    ShownAlike (ops ++ [op]) (a.set op.member v) (b.set op.member w) := by
  have hSet (i : Instance) (value : Json) :
      Operation.maskAll (i.set op.member value).fields (ops ++ [op]) =
        Assoc.insert (Operation.maskAll i.fields ops) op.member (op.shown value) := by
    simp only [Instance.set]
    rw [Operation.maskAll_append, Operation.maskAll_insert hNew]
    simp only [Operation.maskAll]
    exact op.maskSecrets_insert _ value
  rw [ShownAlike, hSet, hSet, h, hShown]

end ShownAlike

theorem Operation.shown_secret {member title : String} {type : FieldType} {search : SearchOptions}
    {culture : Option String} {value : Json} (h : value.isNull = false) :
    (askText member title type true search culture).shown value = secretMask := by
  simp [shown, masked?, h]

theorem Operation.shown_nested {member : String} {plan : Plan} {a b : Instance}
    (h : ShownAlike plan.operations a b) :
    (recurse member plan).shown a.toValue = (recurse member plan).shown b.toValue := by
  simp only [shown, masked?, Instance.toValue, Option.getD_some]
  rw [h]

theorem PlanOf.maskSecrets_toValue {plan : Plan} {a b : Instance}
    (h : ShownAlike plan.operations a b) :
    plan.maskSecrets a.toValue = plan.maskSecrets b.toValue := congrArg Json.obj h

end FormFlow
