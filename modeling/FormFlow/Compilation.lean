import FormFlow.Catalog.Basic
import FormFlow.Plan.Basic
/-!
# Compilation

A resolved form becomes a plan, member by member in order: dependencies are
listed, every other member becomes one operation. A member takes its binding
out of the table, so a later member of the same name finds none.

For the plan of a type of a catalog, the types on the way from the root to a
nested form are kept, so that a form that nests itself is reported, and the
number of nesting levels is limited; the levels that are still allowed bound the
recursion.
-/
namespace FormFlow

structure ResolvedForm where
  model : Model
  strategy : ConstructionStrategy
  bindings : ResolvedBindings

structure Lowered where
  dependencies : List Dependency
  operations : List Operation

def Lowered.withDependency (l : Lowered) (d : Dependency) : Lowered :=
  { l with dependencies := d :: l.dependencies }

def Lowered.withOperation (l : Lowered) (op : Operation) : Lowered :=
  { l with operations := op :: l.operations }

/-- The operation of a member with its binding; `nested` gives the plans of nested forms, and a
dependency gives no operation. -/
def MemberSpec.lower (form : String) (nested : String → Traced Plan) (m : MemberSpec)
    (binding : Option MemberBinding) : Traced (Option Operation) :=
  match m.kind, binding with
  | .dependency _, _ => pure none
  | .textPrompt options, _ =>
    pure (some (.askText m.name (options.title.getD m.name) (m.declaredType.getD .text)
      options.secret ⟨options.searchEnabled, options.searchPlaceholder⟩ options.culture))
  | .selectPrompt options, some (.select source converter) =>
    pure (some (.askSelect m.name (options.title.getD m.name) source converter
      ⟨options.searchEnabled, options.searchPlaceholder⟩ options.culture))
  | .taskStep isAsync options, some (.step body) =>
    pure (some (.runStep m.name isAsync options body))
  | .nestedForm form, _ => do
    let plan ← nested form
    pure (some (.recurse m.name plan))
  | .selectPrompt _, _ => .fail (.missingImplementation form m.name)
  | .taskStep _ _, _ => .fail (.missingImplementation form m.name)

def lowerMembers (form : String) (nested : String → Traced Plan) (bindings : ResolvedBindings) :
    List MemberSpec → Traced Lowered
  | [] => pure ⟨[], []⟩
  | m :: rest => do
    let operation ← m.lower form nested (Assoc.get? bindings m.name)
    let lowered ← lowerMembers form nested (Assoc.erase bindings m.name) rest
    match operation with
    | some operation => pure (lowered.withOperation operation)
    | none => pure (lowered.withDependency ⟨m.name, m.declaredType⟩)

def ResolvedForm.lower (f : ResolvedForm) (nested : String → Traced Plan) : Traced Plan := do
  let lowered ← lowerMembers f.model.typeName nested f.bindings f.model.members
  Traced.note (.planLowered f.model.typeName lowered.operations.length
    lowered.dependencies.length)
  pure { typeName := f.model.typeName
         culture := f.model.culture
         strategy := f.strategy
         dependencies := lowered.dependencies
         operations := lowered.operations }

def Declaration.resolved (d : Declaration) (table : BindingTable) : Traced ResolvedForm := do
  let model ← d.extractTraced
  let bindings ← d.resolveTraced model table
  let (strategy, model) ← d.constructTraced model
  pure ⟨model, strategy, bindings⟩

/-- Compiles a type below the given chain of types, with `room` levels still allowed. -/
def Catalog.compileBelow (c : Catalog) (limit : Nat) : Nat → List String → String → Traced Plan
  | room, chain, typeName =>
    if typeName ∈ chain then
      .fail (.cyclicNesting (chain.dropWhile (fun t => t ≠ typeName) ++ [typeName]))
    else
      match room with
      | 0 => .fail (.nestingTooDeep typeName chain.length limit)
      | room + 1 =>
        match c.declaration? typeName with
        | none => .fail (.unknownType typeName)
        | some d => do
          let form ← d.resolved (c.bindingsOf typeName)
          form.lower fun nested => compileBelow c limit room (chain ++ [typeName]) nested

/-- Compiles a type with all forms that it nests, `limit` levels of nesting being allowed. -/
def Catalog.compile (c : Catalog) (limit : Nat) (typeName : String) : Traced Plan :=
  c.compileBelow limit (limit + 1) [] typeName

end FormFlow
