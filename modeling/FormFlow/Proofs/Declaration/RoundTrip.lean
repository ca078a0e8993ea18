import FormFlow.Declaration.Decoding
import FormFlow.Declaration.Encoding
import Mathlib.Data.Option.Basic
/-!
# Encoded declarations are read back

A table of written entries holds under each key what was written there last, and
nothing under the keys of entries that were left out. What is left out is what
the reader takes for granted, so every part of a declaration is read back from
its encoding. Types are nested to any depth, and so the reading goes along them.
-/
namespace FormFlow

section Tables

theorem Json.documents_eq_map (items : List Json) : documents items = items.map document := by
  induction items with
  | nil => rfl
  | cons item rest ih => rw [documents, ih, List.map_cons]

theorem Json.entryDocuments_eq_map (fields : Fields) :
    entryDocuments fields = fields.map fun entry => (entry.1, entry.2.document) := by
  induction fields with
  | nil => rfl
  | cons entry rest ih => rw [entryDocuments, ih, List.map_cons]

theorem Json.filter_entryDocuments {table : Fields} (hSorted : Assoc.Sorted table) (key : String) :
    (entryDocuments table).filter (fun entry => entry.1 = key) =
      ((Assoc.get? table key).map fun value => (key, value.document)).toList := by
  induction table with
  | nil => rfl
  | cons entry rest ih =>
    obtain ⟨name, value⟩ := entry
    obtain ⟨hHead, hRest⟩ := Assoc.sorted_cons.mp hSorted
    by_cases hKey : name = key
    · subst hKey
      have hOthers : (entryDocuments rest).filter (fun entry => entry.1 = name) = [] := by
        rw [entryDocuments_eq_map, List.filter_eq_nil_iff]
        simp only [List.mem_map, decide_eq_true_eq]
        rintro _ ⟨other, hOther, rfl⟩ hName
        exact String.lt_irrefl _ (hName ▸ hHead other hOther)
      simp [entryDocuments, Assoc.get?, hOthers]
    · simp [entryDocuments, Assoc.get?, hKey, ih hRest]

namespace Document
variable {α : Type}

def readOr (read : Document → Option α) (default : Option α) : Option Json → Option α
  | some value => read value.document
  | none => default

@[simp] theorem readOr_some (read : Document → Option α) (default : Option α) (value : Json) :
    readOr read default (some value) = read value.document := rfl

theorem entryOr_table {table : Fields} (hSorted : Assoc.Sorted table) (key : String)
    (read : Document → Option α) (default : Option α) :
    entryOr (Json.entryDocuments table) key read default =
      readOr read default (Assoc.get? table key) := by
  rw [entryOr, Json.filter_entryDocuments hSorted]
  cases Assoc.get? table key <;> rfl

theorem entryOr_ofList (entries : List (String × Json)) (key : String)
    (read : Document → Option α) (default : Option α) :
    entryOr (Json.entryDocuments (Assoc.ofList entries)) key read default =
      readOr read default (Assoc.get? (Assoc.ofList entries) key) :=
  entryOr_table (Assoc.sorted_ofList entries) key read default

@[simp] theorem entries_ofEntries (entries : List (String × Json)) :
    (Json.ofEntries entries).document.entries? =
      some (Json.entryDocuments (Assoc.ofList entries)) := rfl

@[simp] theorem text_str (s : String) : (Json.str s).document.text? = some s := rfl

@[simp] theorem flag_bool (b : Bool) : (Json.bool b).document.flag? = some b := rfl

@[simp] theorem variant_obj (name : String) (payload : Json) :
    (Json.obj [(name, payload)]).document.variant? = some (name, some payload.document) := rfl

end Document

theorem Json.obj_pair {first second : String} (h : first < second) (v w : Json) :
    Json.obj [(first, v), (second, w)] = .ofEntries [(first, v), (second, w)] := by
  have hNe : first ≠ second := fun hSame => String.lt_irrefl _ (hSame ▸ h)
  have hNot : ¬ second < first := fun hBack => String.lt_irrefl _ (String.lt_trans h hBack)
  simp [ofEntries, Assoc.ofList, Assoc.insert, hNe, hNot]

end Tables

section Entries
open Document
variable {α : Type} {key k : String}

theorem get?_optionalEntry_of_ne (h : key ≠ k) (value : Option String) :
    Assoc.get? (Assoc.ofList (optionalEntry key value)) k = none := by
  cases value <;> simp [optionalEntry, Assoc.get?_ofList_cons, h]

theorem get?_flagEntry_of_ne (h : key ≠ k) (flag : Bool) :
    Assoc.get? (Assoc.ofList (flagEntry key flag)) k = none := by
  cases flag <;> simp [flagEntry, Assoc.get?_ofList_cons, h]

theorem get?_listEntry_of_ne (h : key ≠ k) (items : List Json) :
    Assoc.get? (Assoc.ofList (listEntry key items)) k = none := by
  cases items <;> simp [listEntry, Assoc.get?_ofList_cons, h]

@[simp] theorem readOr_optionalEntry (value : Option String) :
    readOr optionalText? (some none) (Assoc.get? (Assoc.ofList (optionalEntry key value)) key) =
      some value := by
  cases value with
  | none => rfl
  | some s =>
    rw [optionalEntry, Assoc.get?_ofList_cons, if_pos rfl]
    rfl

@[simp] theorem readOr_flagEntry (flag : Bool) :
    readOr flag? (some false) (Assoc.get? (Assoc.ofList (flagEntry key flag)) key) = some flag := by
  cases flag with
  | false => rfl
  | true => simp [flagEntry, Assoc.get?_ofList_cons]

theorem listOf_arr {read : Document → Option α} {encode : α → Json}
    (h : ∀ x, read (encode x).document = some x) (xs : List α) :
    listOf? read (Json.arr (xs.map encode)).document = some xs := by
  simp only [listOf?, Json.document, Json.documents_eq_map, items?, Option.bind_some]
  induction xs with
  | nil => rfl
  | cons x rest ih =>
    simp only [List.map_cons, List.mapM_cons, h, ih, Option.bind_eq_bind, Option.bind_some]
    rfl

theorem readOr_listEntry (name : String) {read : Document → Option α} {encode : α → Json}
    (h : ∀ x, read (encode x).document = some x) (xs : List α) :
    readOr (listOf? read) (some []) (Assoc.get? (Assoc.ofList (listEntry name (xs.map encode))) name) =
      some xs := by
  cases xs with
  | nil => rfl
  | cons x rest =>
    simp only [listEntry, List.map_cons, List.isEmpty_cons, Bool.false_eq_true, if_false,
      Assoc.get?_ofList_cons, Assoc.get?_ofList_nil, if_true, Option.none_or, readOr_some]
    exact listOf_arr h (x :: rest)

end Entries

section Parts
open Document

-- Each key is looked up among the entries that were written, the last ones first; where the entry was
-- left out, the default of the reader is what was encoded.

theorem TextOptions.ofDocument_encode (o : TextOptions) : ofDocument? o.encode.document = some o := by
  simp [ofDocument?, encode, entryOr_ofList, Assoc.get?_ofList_append, Assoc.get?_ofList_cons,
    get?_optionalEntry_of_ne]

theorem SelectOptions.ofDocument_encode (o : SelectOptions) :
    ofDocument? o.encode.document = some o := by
  simp [ofDocument?, encode, entryOr_ofList, Assoc.get?_ofList_append, Assoc.get?_ofList_cons,
    get?_optionalEntry_of_ne]

theorem StepOptions.ofDocument_encode (o : StepOptions) : ofDocument? o.encode.document = some o := by
  simp [ofDocument?, encode, entryOr_ofList, Assoc.get?_ofList_cons, get?_optionalEntry_of_ne]

theorem FieldType.ofDocument_encode (padded : Bool) (t : FieldType) :
    ofDocument? padded t.encode.document = some t := by
  induction t with
  | list element ih => simp [encode, Json.document, Json.entryDocuments, ofDocument?, ih]
  | form name => simp [encode, Json.document, Json.entryDocuments, ofDocument?, text?]
  | _ => rfl

theorem ReturnShape.ofDocument_encode (padded : Bool) (r : ReturnShape) :
    ofDocument? padded r.encode.document = some r := by
  induction r with
  | unit => rfl
  | value type | sequence type =>
    simp [encode, Json.document, Json.entryDocuments, ofDocument?, type.ofDocument_encode padded]
  | deferred inner ih => simp [encode, Json.document, Json.entryDocuments, ofDocument?, ih]

theorem MemberShape.ofDocument_encode (s : MemberShape) :
    ofDocument? s.encode.document = some s := by
  cases s with
  | property type => simp [ofDocument?, encode, type.ofDocument_encode false]
  | method parameters returns =>
    have hParameters := listOf_arr (FieldType.ofDocument_encode false) parameters
    have hReturns := returns.ofDocument_encode false
    rw [encode, Json.obj_pair (by decide : "parameters" < "returns")]
    simp [ofDocument?, entryOr_ofList, Assoc.get?_ofList_cons, hParameters, hReturns]

theorem PromptTag.ofDocument_encode (t : PromptTag) : ofDocument? t.encode.document = some t := by
  cases t with
  | textPrompt options => simp [ofDocument?, encode, options.ofDocument_encode]
  | selectPrompt options => simp [ofDocument?, encode, options.ofDocument_encode]
  | taskStep options => simp [ofDocument?, encode, options.ofDocument_encode]
  | nestedForm => rfl

theorem MemberDeclaration.ofDocument_encode (m : MemberDeclaration) :
    ofDocument? m.encode.document = some m := by
  have hTags := readOr_listEntry "tags" PromptTag.ofDocument_encode m.tags
  simp [ofDocument?, encode, entryOr_ofList, Assoc.get?_ofList_append, Assoc.get?_ofList_cons,
    get?_flagEntry_of_ne, get?_listEntry_of_ne, m.shape.ofDocument_encode, hTags]

theorem Parameter.ofDocument_encode (p : Parameter) : ofDocument? p.encode.document = some p := by
  rw [encode, Json.obj_pair (by decide : "name" < "type")]
  simp [ofDocument?, entryOr_ofList, Assoc.get?_ofList_cons, p.type.ofDocument_encode false]

theorem ConstructorDeclaration.ofDocument_encode (c : ConstructorDeclaration) :
    ofDocument? c.encode.document = some c := by
  have hParameters := listOf_arr Parameter.ofDocument_encode c.parameters
  simp [ofDocument?, encode, entryOr_ofList, Assoc.get?_ofList_cons, get?_flagEntry_of_ne,
    hParameters]

theorem Declaration.ofDocument_encode (d : Declaration) : ofDocument? d.encode.document = some d := by
  have hConstructors := readOr_listEntry "constructors"
    ConstructorDeclaration.ofDocument_encode d.constructors
  have hMembers := listOf_arr MemberDeclaration.ofDocument_encode d.members
  simp [ofDocument?, encode, entryOr_ofList, Assoc.get?_ofList_append, Assoc.get?_ofList_cons,
    get?_optionalEntry_of_ne, get?_listEntry_of_ne, hConstructors, hMembers]

end Parts

theorem Declaration.encode_injective : Function.Injective encode := by
  have hSome : decode? ∘ encode = some := funext ofDocument_encode
  have hComposed : Function.Injective (decode? ∘ encode) := by
    rw [hSome]
    exact Option.some_injective Declaration
  exact hComposed.of_comp

/-- The encoding of what a document declares. -/
def Declaration.normalForm? (doc : Document) : Option Json := (ofDocument? doc).map encode

/-- Every declaration is read back from its encoding, so no two declarations have the same one, and the
encoding of what a document declares is a normal form of the document: it declares the same, it is its
own normal form, and documents have it in common exactly if they declare the same. -/
theorem Declaration.encode_faithful :
    (∀ d : Declaration, decode? d.encode = some d) ∧ Function.Injective encode ∧
      ∀ doc value, normalForm? doc = some value →
        ofDocument? value.document = ofDocument? doc ∧ normalForm? value.document = some value ∧
          ∀ other, normalForm? other = some value ↔ ofDocument? other = ofDocument? doc := by
  refine ⟨ofDocument_encode, encode_injective, fun doc value hNormal => ?_⟩
  obtain ⟨d, hRead, rfl⟩ := Option.map_eq_some_iff.mp hNormal
  have hAgain := ofDocument_encode d
  refine ⟨hAgain.trans hRead.symm, ?_, fun other => ?_⟩
  · rw [normalForm?, hAgain, Option.map_some]
  · constructor
    · intro hOther
      obtain ⟨e, hReadOther, hSame⟩ := Option.map_eq_some_iff.mp hOther
      rw [hReadOther, hRead, encode_injective hSame]
    · intro hSame
      rw [normalForm?, hSame, hRead, Option.map_some]

namespace Sample

def bareNote : Document :=
  .record [("culture", .scalar { absent := true }), ("members", .scalar { blank := true }),
    ("name", .scalar { text := some "Note" }), ("remark", .scalar { text := some "draft" })]

theorem bareNote_normalized :
    let value := Json.obj [("members", .arr []), ("name", .str "Note")]
    Declaration.normalForm? bareNote = some value ∧
      Declaration.normalForm? value.document = some value := by
  intro value
  have hNormal : Declaration.normalForm? bareNote = some value := rfl
  exact ⟨hNormal, (Declaration.encode_faithful.2.2 bareNote value hNormal).2.1⟩

end Sample
end FormFlow
