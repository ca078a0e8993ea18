/-!
# Association lists in key order

Tables keyed by names: an entry is inserted before the first greater key and
replaces an entry of its own key, so a table built by insertion lists its keys
in strictly ascending order, each once. Keys are ordered by their code points.
-/
namespace FormFlow

abbrev Assoc (α : Type) := List (String × α)

namespace Assoc
variable {α β : Type}

def get? : Assoc α → String → Option α
  | [], _ => none
  | (key, value) :: rest, k => if key = k then some value else get? rest k

def insert : Assoc α → String → α → Assoc α
  | [], k, v => [(k, v)]
  | (key, value) :: rest, k, v =>
    if key = k then (k, v) :: rest
    else if k < key then (k, v) :: (key, value) :: rest
    else (key, value) :: insert rest k v

def erase : Assoc α → String → Assoc α
  | [], _ => []
  | (key, value) :: rest, k =>
    if key = k then erase rest k else (key, value) :: erase rest k

def keys (table : Assoc α) : List String := table.map Prod.fst

def contains (table : Assoc α) (k : String) : Bool := (get? table k).isSome

/-- Inserts the entries one after another, so a later one of a key wins. -/
def ofList (entries : List (String × α)) : Assoc α :=
  entries.foldl (fun table entry => insert table entry.1 entry.2) []

def Sorted (table : Assoc α) : Prop := (keys table).Pairwise (· < ·)

@[simp] theorem get?_nil (k : String) : get? ([] : Assoc α) k = none := rfl

@[simp] theorem get?_insert_self (table : Assoc α) (k : String) (v : α) :
    get? (insert table k v) k = some v := by
  induction table with
  | nil => simp [insert, get?]
  | cons entry rest ih =>
    obtain ⟨key, value⟩ := entry
    unfold insert
    split
    · simp [get?]
    · split
      · simp [get?]
      · simp [get?, *]

theorem get?_insert_of_ne (table : Assoc α) {k other : String} (v : α) (h : other ≠ k) :
    get? (insert table k v) other = get? table other := by
  induction table with
  | nil => simp [insert, get?, Ne.symm h]
  | cons entry rest ih =>
    obtain ⟨key, value⟩ := entry
    unfold insert
    split
    · rename_i hkey
      subst hkey
      simp [get?, Ne.symm h]
    · split
      · simp [get?, Ne.symm h]
      · simp [get?, ih]

@[simp] theorem insert_insert (table : Assoc α) (k : String) (v w : α) :
    insert (insert table k v) k w = insert table k w := by
  induction table with
  | nil => simp [insert]
  | cons entry rest ih =>
    obtain ⟨key, value⟩ := entry
    by_cases hKey : key = k
    · simp [insert, hKey]
    · by_cases hLess : k < key
      · simp [insert, hKey, hLess]
      · simp [insert, hKey, hLess, ih]

theorem insert_comm (table : Assoc α) {k l : String} (v w : α) (h : k ≠ l) :
    insert (insert table k v) l w = insert (insert table l w) k v := by
  have hAsymm : ∀ {a b : String}, a < b → ¬ b < a := fun hLess hMore =>
    String.lt_irrefl _ (String.lt_trans hLess hMore)
  have hTotal : ∀ {a b : String}, a ≠ b → ¬ a < b → b < a := fun hNe hNot =>
    String.not_le.mp fun hLe => hNe (String.le_antisymm hLe (String.not_lt.mp hNot))
  induction table with
  | nil =>
    by_cases hLess : k < l
    · simp [insert, h, h.symm, hLess, hAsymm hLess]
    · simp [insert, h, h.symm, hLess, hTotal h hLess]
  | cons entry rest ih =>
    obtain ⟨key, value⟩ := entry
    have hBetween : k < key → ¬ l < key → ¬ l < k := fun hBelow hNot hLess =>
      hNot (String.lt_trans hLess hBelow)
    have hBetween' : l < key → ¬ k < key → ¬ k < l := fun hBelow hNot hLess =>
      hNot (String.lt_trans hLess hBelow)
    by_cases hk : key = k
    · subst hk
      by_cases hLess : l < key
      · simp [insert, h, h.symm, hLess, hAsymm hLess]
      · simp [insert, h, hLess]
    · by_cases hl : key = l
      · subst hl
        by_cases hLess : k < key
        · simp [insert, h, hk, hLess, hAsymm hLess]
        · simp [insert, hk, hLess]
      · by_cases hBelow : k < key <;> by_cases hBelow' : l < key
        · by_cases hLess : k < l
          · simp [insert, h, h.symm, hk, hl, hBelow, hBelow', hLess, hAsymm hLess]
          · simp [insert, h, h.symm, hk, hl, hBelow, hBelow', hLess, hTotal h hLess]
        · simp [insert, h, hk, hl, hBelow, hBelow', hBetween hBelow hBelow']
        · simp [insert, h.symm, hk, hl, hBelow, hBelow', hBetween' hBelow' hBelow]
        · simp [insert, hk, hl, hBelow, hBelow', ih]

@[simp] theorem get?_erase_self (table : Assoc α) (k : String) : get? (erase table k) k = none := by
  induction table with
  | nil => rfl
  | cons entry rest ih =>
    obtain ⟨key, value⟩ := entry
    unfold erase
    split
    · exact ih
    · simp [get?, *]

theorem get?_erase_of_ne (table : Assoc α) {k other : String} (h : other ≠ k) :
    get? (erase table k) other = get? table other := by
  induction table with
  | nil => rfl
  | cons entry rest ih =>
    obtain ⟨key, value⟩ := entry
    unfold erase
    split
    · rename_i hkey
      subst hkey
      simp [get?, Ne.symm h, ih]
    · simp [get?, ih]

theorem forall_insert {P : String × α → Prop} {table : Assoc α} {k : String} {v : α}
    (hTable : ∀ entry ∈ table, P entry) (hNew : P (k, v)) : ∀ entry ∈ insert table k v, P entry := by
  induction table with
  | nil => simpa [insert] using hNew
  | cons entry rest ih =>
    obtain ⟨hHead, hRest⟩ := List.forall_mem_cons.mp hTable
    unfold insert
    split
    · exact List.forall_mem_cons.mpr ⟨hNew, hRest⟩
    · split
      · exact List.forall_mem_cons.mpr ⟨hNew, hTable⟩
      · exact List.forall_mem_cons.mpr ⟨hHead, ih hRest⟩

theorem sorted_cons {k : String} {v : α} {rest : Assoc α} :
    Sorted ((k, v) :: rest) ↔ (∀ entry ∈ rest, k < entry.1) ∧ Sorted rest := by
  simp [Sorted, keys]

theorem sorted_insert {table : Assoc α} (k : String) (v : α) (h : Sorted table) :
    Sorted (insert table k v) := by
  induction table with
  | nil => simp [insert, Sorted, keys]
  | cons entry rest ih =>
    obtain ⟨key, value⟩ := entry
    obtain ⟨hHead, hRest⟩ := sorted_cons.mp h
    unfold insert
    split
    · rename_i hKey
      exact sorted_cons.mpr ⟨hKey ▸ hHead, hRest⟩
    · rename_i hKey
      split
      · rename_i hLess
        refine sorted_cons.mpr ⟨List.forall_mem_cons.mpr ⟨hLess, ?_⟩, h⟩
        exact fun entry hEntry => String.lt_trans hLess (hHead entry hEntry)
      · rename_i hLess
        have hGreater : key < k :=
          String.not_le.mp fun hLe => hKey (String.le_antisymm (String.not_lt.mp hLess) hLe)
        exact sorted_cons.mpr ⟨forall_insert hHead hGreater, ih hRest⟩

theorem mem_of_mem_erase {table : Assoc α} {k : String} {entry : String × α}
    (h : entry ∈ erase table k) : entry ∈ table := by
  induction table with
  | nil => cases h
  | cons first rest ih =>
    obtain ⟨key, value⟩ := first
    unfold erase at h
    split at h
    · exact List.mem_cons_of_mem _ (ih h)
    · exact (List.mem_cons.mp h).elim (fun hEq => hEq ▸ List.mem_cons_self)
        fun hIn => List.mem_cons_of_mem _ (ih hIn)

theorem sorted_erase {table : Assoc α} (k : String) (h : Sorted table) :
    Sorted (erase table k) := by
  induction table with
  | nil => exact h
  | cons entry rest ih =>
    obtain ⟨key, value⟩ := entry
    obtain ⟨hHead, hRest⟩ := sorted_cons.mp h
    unfold erase
    split
    · exact ih hRest
    · exact sorted_cons.mpr ⟨fun entry hEntry => hHead entry (mem_of_mem_erase hEntry), ih hRest⟩

theorem nodup_keys {table : Assoc α} (h : Sorted table) : (keys table).Nodup := by
  apply h.imp
  intro a b hLess hEq
  exact String.lt_irrefl b (hEq ▸ hLess)

theorem mem_of_get? {table : Assoc α} {k : String} {v : α} (h : get? table k = some v) :
    (k, v) ∈ table := by
  induction table with
  | nil => cases h
  | cons entry rest ih =>
    obtain ⟨key, value⟩ := entry
    unfold get? at h
    split at h
    · rename_i hKey
      cases h
      exact hKey ▸ List.mem_cons_self
    · exact List.mem_cons_of_mem _ (ih h)

theorem get?_of_mem {table : Assoc α} {k : String} {v : α} (hSorted : Sorted table)
    (h : (k, v) ∈ table) : get? table k = some v := by
  induction table with
  | nil => cases h
  | cons entry rest ih =>
    obtain ⟨key, value⟩ := entry
    obtain ⟨hHead, hRest⟩ := sorted_cons.mp hSorted
    rcases List.mem_cons.mp h with hEq | hMem
    · cases hEq
      simp [get?]
    · have hKey : key ≠ k := fun hEq => String.lt_irrefl _ (hEq ▸ hHead _ hMem)
      simp [get?, hKey, ih hRest hMem]

theorem contains_iff {table : Assoc α} {k : String} : contains table k = true ↔ k ∈ keys table := by
  unfold contains
  induction table with
  | nil => simp [keys]
  | cons entry rest ih =>
    obtain ⟨key, value⟩ := entry
    by_cases hKey : key = k
    · simp [get?, keys, hKey]
    · simpa [get?, keys, hKey, Ne.symm hKey] using ih

theorem sorted_ofList (entries : List (String × α)) : Sorted (ofList entries) := by
  have hFrom {table : Assoc α} (h : Sorted table) :
      Sorted (entries.foldl (fun table entry => insert table entry.1 entry.2) table) := by
    induction entries generalizing table with
    | nil => exact h
    | cons entry rest ih => exact ih (sorted_insert entry.1 entry.2 h)
  exact hFrom .nil

theorem get?_insert_eq_or (table : Assoc α) (key : String) (v : α) (k : String) :
    get? (insert table key v) k = (if key = k then some v else none).or (get? table k) := by
  by_cases h : key = k
  · simp [h]
  · simp [h, get?_insert_of_ne table v (Ne.symm h)]

theorem get?_foldl_insert (entries : List (String × α)) (table : Assoc α) (k : String) :
    get? (entries.foldl (fun table entry => insert table entry.1 entry.2) table) k =
      (get? (ofList entries) k).or (get? table k) := by
  unfold ofList
  induction entries generalizing table with
  | nil => rfl
  | cons entry rest ih =>
    rw [List.foldl_cons, List.foldl_cons, ih, ih (insert [] _ _), get?_insert_eq_or,
      get?_insert_eq_or [], get?_nil, Option.or_none, Option.or_assoc]

@[simp] theorem get?_ofList_nil (k : String) : get? (ofList ([] : List (String × α))) k = none := rfl

theorem get?_ofList_append (first later : List (String × α)) (k : String) :
    get? (ofList (first ++ later)) k = (get? (ofList later) k).or (get? (ofList first) k) := by
  rw [ofList, List.foldl_append]
  exact get?_foldl_insert later _ k

theorem get?_ofList_cons (key : String) (v : α) (rest : List (String × α)) (k : String) :
    get? (ofList ((key, v) :: rest)) k =
      (get? (ofList rest) k).or (if key = k then some v else none) :=
  get?_foldl_insert rest _ k

end Assoc
end FormFlow
