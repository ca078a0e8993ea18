import FormFlow.Catalog.Validation
import FormFlow.Declaration.Decoding
import FormFlow.Yaml.Reading
/-!
# Loading catalogs

A catalog file is a list of declarations. A catalog is built from it only if the
whole list can be read and is valid; it has no bindings.
-/
namespace FormFlow

inductive LoadError where
  | malformed
  | invalid (error : ValidationError)
  | missingFile
  deriving DecidableEq, Repr, Inhabited

def LoadError.kind : LoadError → String
  | .malformed => "Parse"
  | .invalid _ => "Validation"
  | .missingFile => "Io"

def LoadError.message : LoadError → String
  | .malformed => "parse error"
  | .invalid error => error.message
  | .missingFile => "I/O error: No such file or directory (os error 2)"

def declarations? (text : String) : Option (List Declaration) :=
  (Yaml.document? text).bind (listOf? Declaration.ofDocument?)

namespace Catalog

def ofText (text : String) : Except LoadError Catalog :=
  match declarations? text with
  | none => .error .malformed
  | some declarations =>
    match validate declarations with
    | .error error => .error (.invalid error)
    | .ok () => .ok (ofDeclarations declarations)

def ofFile (content : Option String) : Except LoadError Catalog :=
  match content with
  | some text => ofText text
  | none => .error .missingFile

end Catalog
end FormFlow
