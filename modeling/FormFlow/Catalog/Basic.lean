import FormFlow.Binding
/-!
# Catalogs

All known form types by name, each with the table of callables bound to it. A
type may be declared without bindings and bindings may wait for their type.
-/
namespace FormFlow

structure Catalog where
  declarations : Assoc Declaration := []
  bindings : Assoc BindingTable := []
  /-- A declaration stands under its own name. -/
  keyed : ∀ entry ∈ declarations, entry.1 = entry.2.name := by simp
  sorted : Assoc.Sorted declarations := by simp [Assoc.Sorted, Assoc.keys]

namespace Catalog

def empty : Catalog := {}

def declare (c : Catalog) (d : Declaration) : Catalog :=
  { c with
    declarations := Assoc.insert c.declarations d.name d
    keyed := Assoc.forall_insert c.keyed rfl
    sorted := Assoc.sorted_insert d.name d c.sorted }

def bind (c : Catalog) (typeName : String) (table : BindingTable) : Catalog :=
  { c with bindings := Assoc.insert c.bindings typeName table }

def register (c : Catalog) (d : Declaration) (table : BindingTable) : Catalog :=
  (c.declare d).bind d.name table

def declaration? (c : Catalog) (typeName : String) : Option Declaration :=
  Assoc.get? c.declarations typeName

def bindings? (c : Catalog) (typeName : String) : Option BindingTable :=
  Assoc.get? c.bindings typeName

def bindingsOf (c : Catalog) (typeName : String) : BindingTable := (c.bindings? typeName).getD []

def contains (c : Catalog) (typeName : String) : Bool := Assoc.contains c.declarations typeName

def typeNames (c : Catalog) : List String := Assoc.keys c.declarations

def all (c : Catalog) : List Declaration := c.declarations.map Prod.snd

def ofDeclarations (declarations : List Declaration) : Catalog := declarations.foldl declare empty

theorem name_of_declaration? {c : Catalog} {typeName : String} {d : Declaration}
    (h : c.declaration? typeName = some d) : d.name = typeName :=
  (c.keyed _ (Assoc.mem_of_get? h)).symm

theorem nodup_typeNames (c : Catalog) : c.typeNames.Nodup := Assoc.nodup_keys c.sorted

theorem contains_iff_mem_typeNames {c : Catalog} {typeName : String} :
    c.contains typeName = true ↔ typeName ∈ c.typeNames := Assoc.contains_iff

theorem mem_typeNames_iff {c : Catalog} {typeName : String} :
    typeName ∈ c.typeNames ↔ ∃ d, c.declaration? typeName = some d := by
  rw [← contains_iff_mem_typeNames, contains, Assoc.contains, Option.isSome_iff_exists]
  rfl

theorem mem_all_iff {c : Catalog} {d : Declaration} :
    d ∈ c.all ↔ c.declaration? d.name = some d := by
  constructor
  · intro h
    obtain ⟨⟨key, found⟩, hEntry, rfl⟩ := List.mem_map.mp h
    have hKey : key = found.name := c.keyed _ hEntry
    exact hKey ▸ Assoc.get?_of_mem c.sorted hEntry
  · exact fun h => List.mem_map.mpr ⟨_, Assoc.mem_of_get? h, rfl⟩

end Catalog
end FormFlow
