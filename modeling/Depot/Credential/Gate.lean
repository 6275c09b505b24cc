import Depot.Credential.Header
import Depot.Credential.Password
import Depot.Program

/-!
# The gate

Who may make calls about objects: everyone, those with an account in the registry's own password
table, or those whom another service knows. Accounts are managed here unless they are kept
elsewhere.
-/

namespace Depot.Credential

open Registry (Error Refusal)

/-- How callers are told apart. -/
inductive Gate where
  /-- Everyone may pass. -/
  | everyone
  /-- Those with an account in the password table. -/
  | internal
  /-- Those whom another service accepts; it may also fail to answer. -/
  | external (accepts : Login → Except Error Bool)

/-- The name of a gate's mode. -/
def Gate.mode : Gate → String
  | .everyone => "Public"
  | .internal => "Internal"
  | .external _ => "External"

variable {Call : Type} {Reply : Call → Type}

/-- Lets a caller through who is accepted. -/
def grant (accepted : Bool) : Except Refusal Unit :=
  if accepted then .ok () else .error .rejected

/-- What follows from looking up the password hash of a caller. -/
def judge (login : Login) : Except Error (Option String) → Except Refusal Unit
  | .ok (some hash) => grant (Password.verify hash login.password)
  | .ok none => .error .rejected
  | .error _ => .error .unavailable

/-- Decides on a caller. The password table is looked at only in internal mode, for a header that
can be read. -/
def Gate.check (gate : Gate)
    (lookup : String → Program Call Reply (Except Error (Option String))) (header : String) :
    Program Call Reply (Except Refusal Unit) :=
  match gate with
  | .everyone => pure (.ok ())
  | .internal =>
    match parseBasic header with
    | .error why => pure (.error why)
    | .ok login => (lookup login.user).bind fun found => pure (judge login found)
  | .external accepts =>
    pure do
      let login ← parseBasic header
      match accepts login with
      | .ok accepted => grant accepted
      | .error _ => .error .unavailable

/-- Lets a caller through or ends the call. -/
def Gate.authorize (gate : Gate)
    (lookup : String → Program Call Reply (Except Error (Option String))) (header : String) :
    ExceptT Error (Program Call Reply) Unit :=
  ExceptT.mk ((gate.check lookup header).bind fun r => pure (r.mapError .auth))

/-- Ends a call that manages accounts if they are kept elsewhere. -/
def Gate.requireAccounts : Gate → Except Error Unit
  | .external _ =>
    .error (.unsupported "user management is delegated to an external credential store")
  | _ => .ok ()

end Depot.Credential
