import FormFlow.Catalog.Basic
import FormFlow.Text.Basic
/-!
# Demo catalog

Three forms that show what forms can do: a sign-up with a secret, a selection, a
nested profile and asynchronous work, and an invitation that is constructed from
supplied values.
-/
namespace FormFlow.Demo

def asked (name : String) (type : FieldType) (title : String) (secret : Bool := false) :
    MemberDeclaration :=
  { name, shape := .property type, tags := [.textPrompt { title := some title, secret }] }

def signup : Declaration where
  name := "Signup"
  culture := some "en-US"
  members := [
    asked "username" .text "Username",
    asked "password" .text "Password" true,
    { name := "regions", shape := .method [] (.sequence .text) },
    { name := "region_label", shape := .method [.text] (.value .text) },
    { name := "region", shape := .property .text
      tags := [.selectPrompt
        { title := some "Home region", source := "regions", converter := some "region_label"
          searchEnabled := true, searchPlaceholder := some "type to filter" }] },
    { name := "profile", shape := .property (.form "Profile"), tags := [.nestedForm] },
    { name := "register", shape := .method [] (.deferred .unit)
      tags := [.taskStep { useStatus := true, statusText := some "Creating account..." }] },
    { name := "account_id", shape := .property .text }]

def profile : Declaration where
  name := "Profile"
  members := [
    asked "display_name" .text "Display name",
    asked "age" .integer "Age",
    asked "newsletter" .boolean "Subscribe to the newsletter? (y/n)"]

def invite : Declaration where
  name := "Invite"
  constructors := [{ parameters := [⟨"inviter", .text⟩], designated := true }]
  members := [
    { name := "inviter", shape := .property .text },
    { name := "teams", shape := .property (.list .text), required := true },
    asked "email" .text "Invitee email",
    { name := "team", shape := .property .text
      tags := [.selectPrompt { title := some "Team", source := "teams" }] },
    { name := "send", shape := .method [] .unit, tags := [.taskStep {}] },
    { name := "sent", shape := .property .boolean }]

def regions : List (String × String) := [
  ("eu-west", "Europe (Ireland)"),
  ("us-east", "US East (Virginia)"),
  ("ap-south", "Asia Pacific (Mumbai)")]

def regionLabel (value : Json) : String :=
  let code := value.text?.getD ""
  match regions.find? fun region => region.1 = code with
  | some (_, name) => s!"{name} [{code}]"
  | none => code

/-- Opens an account with the given identifier under a user name that is not blank. The remote
service answers after a while. -/
def register (accountId : String) (inst : Instance) : Progress Instance (Except StepError Unit) :=
  if Text.trim ((inst.text? "username").getD "") = "" then
    .finished false inst (.error (.failed "username must not be blank"))
  else
    .suspended false inst (.finished false (inst.set "account_id" (.str accountId)) (.ok ()))

def send (inst : Instance) : StepOutcome :=
  let email := (inst.text? "email").getD ""
  if '@' ∈ email.toList then ⟨inst.set "sent" (.bool true), false, .ok ()⟩
  else ⟨inst, false, .error (.failed s!"'{email}' is not an email address")⟩

def signupBindings (accountId : String) : BindingTable :=
  let sources := BindingTable.register [] "regions"
    (.source fun _ => .ok (regions.map fun region => .str region.1))
  let converters := sources.register "region_label" (.converter regionLabel)
  converters.register "register" (.step (.async (register accountId)))

def inviteBindings : BindingTable := BindingTable.register [] "send" (.step (.sync send))

def catalog (accountId : String) : Catalog :=
  ((Catalog.ofDeclarations [signup, profile, invite]).bind "Signup" (signupBindings accountId)).bind
    "Invite" inviteBindings

end FormFlow.Demo
