import FormFlow.Proofs.Compilation.Plans
import FormFlow.Proofs.Compilation.Totality
/-!
# Plans and the declarations they stand for

The relation `Mirrors` says, apart from the code, what the plan of a type takes
over from its declaration: an operation for each tagged member in order, with the
options of its one tag; the dependencies of the constructor and of the required
properties; and for a member that nests a form a plan that mirrors that form.
-/
namespace FormFlow

section Relation

mutual
/-- The plan stands for the declaration of that type, and so do the plans in it. -/
inductive Catalog.Mirrors (c : Catalog) : String → Plan → Prop
  | form (d : Declaration) (plan : Plan) (declared : c.declaration? plan.typeName = some d)
      (culture : plan.culture = d.culture) (strategy : d.chooseConstructor = .ok plan.strategy)
      (chosen : (∃ k ∈ d.constructors, k.parameters = plan.strategy.parameters) ∨
        d.constructors = [] ∧ plan.strategy = .default)
      (dependencies : plan.dependencies =
        plan.strategy.parameters.map (fun p => ⟨p.name, some p.type⟩) ++
          d.requiredProperties.map fun property => ⟨property.1, some property.2⟩)
      (operations : List.Forall₂ (Catalog.MirrorsMember c) d.tagged plan.operations) :
      Catalog.Mirrors c plan.typeName plan

/-- The operation stands for the member: for the kind and the options of the one tag it carries. -/
inductive Catalog.MirrorsMember (c : Catalog) : MemberDeclaration → Operation → Prop
  | text (m : MemberDeclaration) (options : TextOptions) (type : FieldType)
      (tags : m.tags = [.textPrompt options]) (shape : m.shape = .property type) :
      Catalog.MirrorsMember c m (.askText m.name (options.title.getD m.name) type options.secret
        ⟨options.searchEnabled, options.searchPlaceholder⟩ options.culture)
  | select (m : MemberDeclaration) (options : SelectOptions) (source : Source)
      (converter : Option Converter) (tags : m.tags = [.selectPrompt options])
      (sourceName : source.name = options.source)
      (converterName : converter.map Converter.name = options.converter) :
      Catalog.MirrorsMember c m (.askSelect m.name (options.title.getD m.name) source converter
        ⟨options.searchEnabled, options.searchPlaceholder⟩ options.culture)
  | step (m : MemberDeclaration) (options : StepOptions) (returns : ReturnShape) (body : StepBody)
      (tags : m.tags = [.taskStep options]) (shape : m.shape = .method [] returns)
      (flavour : body.isAsync = returns.isDeferred) :
      Catalog.MirrorsMember c m (.runStep m.name returns.isDeferred options body)
  | nested (m : MemberDeclaration) (form : String) (plan : Plan) (tags : m.tags = [.nestedForm])
      (shape : m.shape = .property (.form form)) (mirrors : Catalog.Mirrors c form plan) :
      Catalog.MirrorsMember c m (.recurse m.name plan)
end

end Relation

namespace Declaration
variable {c : Catalog} {d : Declaration} {table : BindingTable} {nested : String → Traced Plan}

theorem Lowers.mirrors {m : MemberDeclaration} {op : Operation} (h : d.Lowers table nested m op)
    (hNested : ∀ b inner, (nested b).result = .ok inner → c.Mirrors b inner) :
    c.MirrorsMember m op := by
  cases h with
  | text options type tags shape scalar => exact .text m options type tags shape
  | select options type tags shape noForm source converter resolved =>
    obtain ⟨hSource, hConverter⟩ := resolveSelect_names rfl resolved
    exact .select m options source converter tags hSource hConverter
  | step options returns tags shape body registered flavour =>
    exact .step m options returns body tags shape flavour
  | recurse form tags shape plan compiled =>
    exact .nested m form plan tags shape (hNested form plan compiled)

theorem IsPlan.mirrors {plan : Plan} (h : d.IsPlan table nested plan)
    (hDeclared : c.declaration? plan.typeName = some d)
    (hNested : ∀ b inner, (nested b).result = .ok inner → c.Mirrors b inner) :
    c.Mirrors plan.typeName plan := by
  have hDependencies : plan.dependencies =
      plan.strategy.parameters.map (fun p => ⟨p.name, some p.type⟩) ++
        d.requiredProperties.map fun property => ⟨property.1, some property.2⟩ := by
    rw [h.dependencies, dependencySpecs, List.map_append, List.map_map, List.map_map]
    rfl
  exact .form d plan hDeclared h.culture h.strategy (chooseConstructor_parameters h.strategy)
    hDependencies (h.operations.imp fun m op hLowers => hLowers.mirrors hNested)

end Declaration

/-- The plan of a type stands for its declaration, at every depth. -/
theorem Catalog.compile_mirrors {c : Catalog} {limit : Nat} {t : String} {plan : Plan}
    (h : (c.compile limit t).result = .ok plan) : c.Mirrors t plan := by
  refine compileBelow_induction (P := c.Mirrors) ?_ (limit + 1) h
  intro t d nested plan hDeclared hPlan hNested
  obtain rfl : plan.typeName = t := hPlan.typeName.trans (name_of_declaration? hDeclared)
  exact hPlan.mirrors hDeclared hNested

namespace Sample

def booking : Declaration :=
  { name := "Booking"
    culture := some "de-CH"
    constructors := [{ parameters := [⟨"agent", .text⟩] }]
    members := [
      { name := "rooms", shape := .property (.list .text) },
      { name := "pin", shape := .property .integer,
        tags := [.textPrompt { title := some "Your PIN", secret := true }] },
      { name := "channel", shape := .property .text, required := true },
      { name := "room", shape := .property .text,
        tags := [.selectPrompt { source := "rooms", searchEnabled := true }] },
      { name := "guest", shape := .property (.form "Login"), tags := [.nestedForm] },
      { name := "confirm", shape := .method [] .unit, tags := [.taskStep {}] }] }

def confirm : StepBody := .sync fun inst => ⟨inst, false, .ok ()⟩

def bookings : Catalog :=
  (Catalog.ofDeclarations [booking, login]).bind "Booking" [("confirm", .step confirm)]

def bookingPlan : Plan :=
  ⟨"Booking", some "de-CH", .singleExplicit [⟨"agent", .text⟩],
    [⟨"agent", some .text⟩, ⟨"channel", some .text⟩], [
    .askText "pin" "Your PIN" .integer true {} none,
    .askSelect "room" "room" (.property "rooms") none ⟨true, none⟩ none,
    .recurse "guest" loginPlan, .runStep "confirm" false {} confirm]⟩

theorem booking_mirrored :
    (bookings.compile 1 "Booking").result = .ok bookingPlan ∧
      bookings.Mirrors "Booking" bookingPlan := by
  have hCompiled : (bookings.compile 1 "Booking").result = .ok bookingPlan := rfl
  exact ⟨hCompiled, Catalog.compile_mirrors hCompiled⟩

end Sample
end FormFlow
