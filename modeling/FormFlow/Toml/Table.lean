import FormFlow.Document
/-!
# Tables

A settings file as a tree of tables. A table may be named by a header, be
implied by the header of a table inside it, be built from dotted keys, or be
written out as one value. A header names a table once, and keys can only be added
to a table in the way in which it was begun.
-/
namespace FormFlow.Toml

inductive Origin where
  | header
  | implied
  | dotted
  deriving DecidableEq, Repr, Inhabited

inductive Entry where
  | value (d : Document)
  | table (origin : Origin) (entries : List (String × Entry))
  /-- A list of tables, each with a header of its own, the latest first. -/
  | tables (latest : List (String × Entry)) (earlier : List (List (String × Entry)))
  deriving Inhabited

abbrev Table := List (String × Entry)

namespace Table

def find? (t : Table) (key : String) : Option Entry :=
  (List.find? (fun entry => entry.1 = key) t).map Prod.snd

def put (t : Table) (key : String) (e : Entry) : Table :=
  if t.any fun entry => entry.1 = key then
    t.map fun entry => if entry.1 = key then (key, e) else entry
  else t ++ [(key, e)]

/-- Sets a new value below a table. The tables on the way are made if need be; one that a header
names cannot be entered, and the last one has to be built from dotted keys itself. -/
def set? (t : Table) (value : Document) : List String → Option Table
  | [] => none
  | [key] => if (t.find? key).isSome then none else some (t.put key (.value value))
  | key :: next :: more =>
    match t.find? key with
    | none => (set? [] value (next :: more)).map fun inner => t.put key (.table .dotted inner)
    | some (.table origin inner) =>
      if origin = .header ∨ (more = [] ∧ origin ≠ .dotted) then none
      else (set? inner value (next :: more)).map fun inner => t.put key (.table origin inner)
    | some (.tables latest earlier) =>
      if more = [] then none
      else (set? latest value (next :: more)).map fun inner => t.put key (.tables inner earlier)
    | some (.value _) => none

/-- Changes the table at a path; a list of tables is entered at its latest one. Tables that are
missing on the way are implied. -/
def change? (t : Table) (atLast : Option Entry → Option Entry) : List String → Option Table
  | [] => none
  | [key] => (atLast (t.find? key)).map (t.put key)
  | key :: next :: more =>
    match t.find? key with
    | none => (change? [] atLast (next :: more)).map fun inner => t.put key (.table .implied inner)
    | some (.table origin inner) =>
      (change? inner atLast (next :: more)).map fun inner => t.put key (.table origin inner)
    | some (.tables latest earlier) =>
      (change? latest atLast (next :: more)).map fun inner => t.put key (.tables inner earlier)
    | some (.value _) => none

/-- The header of a table: it must not have been begun, unless it is implied. -/
def openTable? (t : Table) (path : List String) : Option Table :=
  t.change? (fun
    | none => some (.table .header [])
    | some (.table .implied inner) => some (.table .header inner)
    | some _ => none) path

def addTable? (t : Table) (path : List String) : Option Table :=
  t.change? (fun
    | none => some (.tables [] [])
    | some (.tables latest earlier) => some (.tables [] (latest :: earlier))
    | some _ => none) path

def setUnder? (t : Table) (header : List String) (keys : List String) (value : Document) :
    Option Table :=
  if header = [] then t.set? value keys
  else
    t.change? (fun
      | some (.table origin inner) => (set? inner value keys).map (.table origin)
      | some (.tables latest earlier) =>
        (set? latest value keys).map fun inner => .tables inner earlier
      | _ => none) header

end Table

mutual
def Entry.document : Entry → Document
  | .value d => d
  | .table _ entries => .record (documents entries)
  | .tables latest earlier => .list (recordDocuments earlier ++ [.record (documents latest)])

def documents : List (String × Entry) → List (String × Document)
  | [] => []
  | (key, e) :: rest => (key, e.document) :: documents rest

def recordDocuments : List (List (String × Entry)) → List Document
  | [] => []
  | entries :: rest => recordDocuments rest ++ [.record (documents entries)]
end

end FormFlow.Toml
