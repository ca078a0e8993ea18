import FormFlow.Json.Basic
import FormFlow.Decimal.Layout
/-!
# Written form of data values

The compact form has no blanks; the indented form puts each item and each field
on a line of its own, two spaces deeper than its container. In a text only the
quote, the backslash and the control characters below U+0020 are escaped.
-/
namespace FormFlow.Json

def hexDigit (n : Nat) : Char := Nat.digitChar n

def escape (c : Char) : String :=
  if c = '"' then "\\\""
  else if c = '\\' then "\\\\"
  else if c = '\x08' then "\\b"
  else if c = '\t' then "\\t"
  else if c = '\n' then "\\n"
  else if c = '\x0c' then "\\f"
  else if c = '\r' then "\\r"
  else if c.toNat < 0x20 then
    "\\u00" ++ String.ofList [hexDigit (c.toNat / 16), hexDigit (c.toNat % 16)]
  else c.toString

def quote (s : String) : String :=
  "\"" ++ String.join (s.toList.map escape) ++ "\""

mutual
def compact : Json → String
  | .null => "null"
  | .bool b => if b then "true" else "false"
  | .int n => toString n
  | .float x => Decimal.Layout.data.render x
  | .str s => quote s
  | .arr items => "[" ++ compactItems items ++ "]"
  | .obj fields => "\x7b" ++ compactFields fields ++ "\x7d"

def compactItems : List Json → String
  | [] => ""
  | [item] => compact item
  | item :: rest => compact item ++ "," ++ compactItems rest

def compactFields : List (String × Json) → String
  | [] => ""
  | [(key, value)] => quote key ++ ":" ++ compact value
  | (key, value) :: rest => quote key ++ ":" ++ compact value ++ "," ++ compactFields rest
end

def margin (depth : Nat) : String := String.ofList (List.replicate (2 * depth) ' ')

mutual
def indented (depth : Nat) : Json → String
  | .arr [] => "[]"
  | .arr items => "[\n" ++ indentedItems (depth + 1) items ++ "\n" ++ margin depth ++ "]"
  | .obj [] => "\x7b\x7d"
  | .obj fields =>
    "\x7b\n" ++ indentedFields (depth + 1) fields ++ "\n" ++ margin depth ++ "\x7d"
  | value => compact value

def indentedItems (depth : Nat) : List Json → String
  | [] => ""
  | [item] => margin depth ++ indented depth item
  | item :: rest => margin depth ++ indented depth item ++ ",\n" ++ indentedItems depth rest

def indentedFields (depth : Nat) : List (String × Json) → String
  | [] => ""
  | [(key, value)] => margin depth ++ quote key ++ ": " ++ indented depth value
  | (key, value) :: rest =>
    margin depth ++ quote key ++ ": " ++ indented depth value ++ ",\n"
      ++ indentedFields depth rest
end

def pretty (value : Json) : String := indented 0 value

/-- The natural text of a value: a text stands for itself, any other value is written compactly. -/
def display : Json → String
  | .str s => s
  | value => compact value

end FormFlow.Json
