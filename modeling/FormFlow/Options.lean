import FormFlow.Json.Basic
import FormFlow.Document
/-!
# Prompt options

The options that the tags of a member carry. Every option has a default; an
encoding always holds the flags and the source, and a text only when it is set.
-/
namespace FormFlow

structure TextOptions where
  title : Option String := none
  secret : Bool := false
  searchEnabled : Bool := false
  searchPlaceholder : Option String := none
  culture : Option String := none
  deriving DecidableEq, Repr, Inhabited

structure SelectOptions where
  title : Option String := none
  source : String := ""
  converter : Option String := none
  searchEnabled : Bool := false
  searchPlaceholder : Option String := none
  culture : Option String := none
  deriving DecidableEq, Repr, Inhabited

structure StepOptions where
  useStatus : Bool := false
  statusText : Option String := none
  deriving DecidableEq, Repr, Inhabited

structure SearchOptions where
  enabled : Bool := false
  placeholder : Option String := none
  deriving DecidableEq, Repr, Inhabited

def optionalEntry (key : String) (value : Option String) : List (String × Json) :=
  match value with
  | some s => [(key, .str s)]
  | none => []

def TextOptions.encode (o : TextOptions) : Json :=
  .ofEntries (optionalEntry "title" o.title ++
    [("secret", .bool o.secret), ("search_enabled", .bool o.searchEnabled)] ++
    optionalEntry "search_placeholder" o.searchPlaceholder ++ optionalEntry "culture" o.culture)

def SelectOptions.encode (o : SelectOptions) : Json :=
  .ofEntries (optionalEntry "title" o.title ++ [("source", .str o.source)] ++
    optionalEntry "converter" o.converter ++ [("search_enabled", .bool o.searchEnabled)] ++
    optionalEntry "search_placeholder" o.searchPlaceholder ++ optionalEntry "culture" o.culture)

def StepOptions.encode (o : StepOptions) : Json :=
  .ofEntries ([("use_status", .bool o.useStatus)] ++ optionalEntry "status_text" o.statusText)

def SearchOptions.encode (o : SearchOptions) : Json :=
  .ofEntries ([("enabled", .bool o.enabled)] ++ optionalEntry "placeholder" o.placeholder)

open Document in
def TextOptions.ofDocument? (d : Document) : Option TextOptions := do
  let entries ← d.entries?
  let title ← entryOr entries "title" optionalText? (some none)
  let secret ← entryOr entries "secret" flag? (some false)
  let searchEnabled ← entryOr entries "search_enabled" flag? (some false)
  let searchPlaceholder ← entryOr entries "search_placeholder" optionalText? (some none)
  let culture ← entryOr entries "culture" optionalText? (some none)
  some { title, secret, searchEnabled, searchPlaceholder, culture }

open Document in
def SelectOptions.ofDocument? (d : Document) : Option SelectOptions := do
  let entries ← d.entries?
  let title ← entryOr entries "title" optionalText? (some none)
  let source ← entryOr entries "source" text? (some "")
  let converter ← entryOr entries "converter" optionalText? (some none)
  let searchEnabled ← entryOr entries "search_enabled" flag? (some false)
  let searchPlaceholder ← entryOr entries "search_placeholder" optionalText? (some none)
  let culture ← entryOr entries "culture" optionalText? (some none)
  some { title, source, converter, searchEnabled, searchPlaceholder, culture }

open Document in
def StepOptions.ofDocument? (d : Document) : Option StepOptions := do
  let entries ← d.entries?
  let useStatus ← entryOr entries "use_status" flag? (some false)
  let statusText ← entryOr entries "status_text" optionalText? (some none)
  some { useStatus, statusText }

end FormFlow
