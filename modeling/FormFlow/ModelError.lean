import FormFlow.FieldType
/-!
# Defects of a form

The causes for which a form type has no plan, with their texts.
-/
namespace FormFlow

inductive Flavour where
  | source
  | converter
  | step
  | asyncStep
  deriving DecidableEq, Repr, Inhabited

def Flavour.render : Flavour → String
  | .source => "source"
  | .converter => "converter"
  | .step => "step"
  | .asyncStep => "async step"

inductive TagMisfit where
  | textNotScalar (type : FieldType)
  | selectOfForm (type : FieldType)
  | nestedNotForm (type : FieldType)
  | stepParameters (count : Nat)
  | stepNotMethod
  | notProperty (tag : String)
  deriving DecidableEq, Repr, Inhabited

def TagMisfit.message : TagMisfit → String
  | .textNotScalar type => s!"text prompt requires a scalar type, found {type.render}"
  | .selectOfForm type => s!"select prompt cannot target {type.render}"
  | .nestedNotForm type => s!"nested form requires a form type, found {type.render}"
  | .stepParameters count => s!"task step must take no parameters, found {count}"
  | .stepNotMethod => "task step must be a method"
  | .notProperty tag => s!"{tag} must be a property"

inductive SignatureMisfit where
  | noSequence
  | elementType (element member : FieldType)
  | converterShape (element : FieldType)
  | registeredAs (found expected : Flavour)
  | stepFlavour (isAsync : Bool) (found : Flavour)
  deriving DecidableEq, Repr, Inhabited

def SignatureMisfit.message : SignatureMisfit → String
  | .noSequence => "expected a zero-argument member producing a sequence"
  | .elementType element member =>
    s!"element type {element.render} does not fit member type {member.render}"
  | .converterShape element => s!"expected a method ({element.render}) -> text"
  | .registeredAs found expected => s!"registered as {found.render}, expected {expected.render}"
  | .stepFlavour isAsync found =>
    let declared := if isAsync then "async" else "sync"
    s!"declared {declared} step, registered as {found.render}"

inductive ModelError where
  | unknownType (name : String)
  | duplicateMember (form member : String)
  | conflictingTags (form member : String) (tags : List String)
  | invalidMemberType (form member : String) (misfit : TagMisfit)
  | unresolvedSource (form member source : String)
  | unresolvedConverter (form member converter : String)
  | ambiguousBinding (form member name : String) (candidates : Nat)
  | incompatibleSignature (form member name : String) (misfit : SignatureMisfit)
  | missingImplementation (form name : String)
  | ambiguousConstructor (form : String)
  | duplicateDependency (form name : String)
  | conflictingDependency (form name : String)
  /-- A chain of types, each nesting the next, that ends where it began. -/
  | cyclicNesting (chain : List String)
  /-- A type on some nesting cycle of the catalog. -/
  | nestingCycle (form : String)
  | nestingTooDeep (form : String) (depth limit : Nat)
  | asyncPlanRequiresAsyncRun (form : String)
  deriving DecidableEq, Repr, Inhabited

namespace ModelError

def kind : ModelError → String
  | .unknownType _ => "UnknownType"
  | .duplicateMember _ _ => "DuplicateMember"
  | .conflictingTags _ _ _ => "ConflictingTags"
  | .invalidMemberType _ _ _ => "InvalidMemberType"
  | .unresolvedSource _ _ _ => "UnresolvedSource"
  | .unresolvedConverter _ _ _ => "UnresolvedConverter"
  | .ambiguousBinding _ _ _ _ => "AmbiguousBinding"
  | .incompatibleSignature _ _ _ _ => "IncompatibleSignature"
  | .missingImplementation _ _ => "MissingImplementation"
  | .ambiguousConstructor _ => "AmbiguousConstructor"
  | .duplicateDependency _ _ => "DuplicateDependency"
  | .conflictingDependency _ _ => "ConflictingDependency"
  | .cyclicNesting _ => "CyclicNesting"
  | .nestingCycle _ => "CyclicNesting"
  | .nestingTooDeep _ _ _ => "NestingTooDeep"
  | .asyncPlanRequiresAsyncRun _ => "AsyncPlanRequiresAsyncRun"

def message : ModelError → String
  | .unknownType name => s!"unknown form type '{name}'"
  | .duplicateMember form member => s!"duplicate member '{form}.{member}'"
  | .conflictingTags form member tags =>
    s!"member '{form}.{member}' carries conflicting tags: " ++ ", ".intercalate tags
  | .invalidMemberType form member misfit =>
    s!"invalid member '{form}.{member}': {misfit.message}"
  | .unresolvedSource form member source =>
    s!"unresolved choices source '{source}' for member '{form}.{member}'"
  | .unresolvedConverter form member converter =>
    s!"unresolved converter '{converter}' for member '{form}.{member}'"
  | .ambiguousBinding form member name candidates =>
    s!"ambiguous binding '{name}' for member '{form}.{member}': {candidates} candidates"
  | .incompatibleSignature form member name misfit =>
    s!"incompatible signature for '{name}' bound to '{form}.{member}': {misfit.message}"
  | .missingImplementation form name => s!"no implementation registered for '{form}.{name}'"
  | .ambiguousConstructor form => s!"ambiguous constructor for type '{form}'"
  | .duplicateDependency form name => s!"duplicate required dependency '{form}.{name}'"
  | .conflictingDependency form name =>
    s!"constructor parameter '{form}.{name}' is also a prompted member"
  | .cyclicNesting chain => "cyclic nested form reference: " ++ " -> ".intercalate chain
  | .nestingCycle form => s!"cyclic nested form reference: cycle involving form type '{form}'"
  | .nestingTooDeep form depth limit =>
    s!"nested form depth {depth} exceeds maximum {limit} at type '{form}'"
  | .asyncPlanRequiresAsyncRun form =>
    s!"form '{form}' contains asynchronous operations and cannot run synchronously"

end ModelError
end FormFlow
