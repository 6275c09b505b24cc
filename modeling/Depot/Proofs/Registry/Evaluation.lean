import Depot.Registry.Storage

/-!
# Undisturbed actions

What an action of a registry comes to when no other goes on beside it, and what the gate decides on
a caller when the passwords can be read.

Headlines
* **`eval_bind`**: an action after another one runs from the state that the first one leaves, and
  not at all after an error.
* **`eval_authorize_eq`**: letting a caller through is the ruling of the gate by what its look-up
  answers; **`eval_authorize`**: by `Gate.verdict`, the state left alone, where the look-up answers.
-/

namespace Depot

/-- What every call keeps true a program keeps true. -/
theorem Program.run_invariant {Call σ α : Type} {Reply : Call → Type}
    {service : Service σ Call Reply} {P : σ → Prop} (h : ∀ s c, P s → P (service s c).2)
    (p : Program Call Reply α) {s : σ} (hs : P s) : P (p.run service s).2 := by
  induction p generalizing s with
  | done a => exact hs
  | call c next ih => exact ih _ (h s c hs)

namespace Credential

open Registry (Error Refusal)

/-- What the gate decides on the caller with a header, by the password hashes that there are. -/
def Gate.verdict (gate : Gate) (hash : String → Option String) (header : String) :
    Except Refusal Unit :=
  match gate with
  | .everyone => .ok ()
  | .internal => do
    let login ← parseBasic header
    judge login (.ok (hash login.user))
  | .external accepts => do
    let login ← parseBasic header
    match accepts login with
    | .ok accepted => grant accepted
    | .error _ => .error .unavailable

/-- What the gate decides on the caller with a header, by what looking up a password hash
answers. -/
def Gate.ruling (gate : Gate) (lookup : String → Except Error (Option String))
    (header : String) : Except Refusal Unit :=
  match gate with
  | .everyone => .ok ()
  | .internal => do
    let login ← parseBasic header
    judge login (lookup login.user)
  | .external accepts => do
    let login ← parseBasic header
    match accepts login with
    | .ok accepted => grant accepted
    | .error _ => .error .unavailable

/-- The user whose password hash the gate looks up, if it does. -/
def Gate.consulted? (gate : Gate) (header : String) : Option String :=
  match gate with
  | .internal => (parseBasic header).toOption.map Login.user
  | _ => none

theorem Gate.ruling_of_ok (gate : Gate) (hash : String → Option String) (header : String) :
    gate.ruling (fun user => .ok (hash user)) header = gate.verdict hash header := by
  cases gate with
  | everyone => rfl
  | internal => rfl
  | external accepts => rfl

end Credential

namespace Registry

open Credential (Gate)

variable {Call σ α β : Type} {Reply : Call → Type} {service : Service σ Call Reply}

/-- What an action comes to, and the state after it. -/
def eval (service : Service σ Call Reply) (x : Action Call Reply α) (s : σ) :
    Except Error α × σ :=
  Program.run service x.run s

@[simp] theorem eval_lift (x : Except Error α) (s : σ) :
    eval service (liftM x : Action Call Reply α) s = (x, s) := rfl

theorem eval_bind_of_ok {x : Action Call Reply α} {f : α → Action Call Reply β} {s s' : σ} {a : α}
    (h : eval service x s = (.ok a, s')) : eval service (x >>= f) s = eval service (f a) s' :=
  Program.run_bind_of_ok h

theorem eval_bind_of_error {x : Action Call Reply α} {f : α → Action Call Reply β} {s s' : σ}
    {e : Error} (h : eval service x s = (.error e, s')) :
    eval service (x >>= f) s = (.error e, s') := Program.run_bind_of_error h

theorem eval_bind (x : Action Call Reply α) (f : α → Action Call Reply β) (s : σ) :
    eval service (x >>= f) s =
      match eval service x s with
      | (.ok a, s') => eval service (f a) s'
      | (.error e, s') => (.error e, s') := by
  cases h : eval service x s with
  | mk r s' =>
    cases r with
    | ok a => exact eval_bind_of_ok h
    | error e => exact eval_bind_of_error h

/-- Letting a caller through comes to the ruling of the gate by what its look-up answers, and makes
that look-up only. -/
theorem eval_authorize_eq (lookup : String → Program Call Reply (Except Error (Option String)))
    (gate : Gate) (header : String) (s : σ) :
    eval service (gate.authorize lookup header) s =
      ((gate.ruling (fun user => (Program.run service (lookup user) s).1) header).mapError .auth,
        (gate.consulted? header).elim s fun user => (Program.run service (lookup user) s).2) := by
  unfold Gate.authorize eval
  refine (Program.run_bind service _ _ s).trans ?_
  unfold Gate.check Gate.ruling Gate.consulted?
  cases gate with
  | everyone => rfl
  | external accepts => rfl
  | internal =>
    cases Credential.parseBasic header with
    | error why => rfl
    | ok login =>
      simp only [Program.run_bind]
      rfl

/-- The gate decides by the password hashes that it can read, and leaves the state as it is. -/
theorem eval_authorize {lookup : String → Program Call Reply (Except Error (Option String))}
    {hash : String → Option String} {s : σ}
    (h : ∀ user, Program.run service (lookup user) s = (.ok (hash user), s))
    (gate : Gate) (header : String) :
    eval service (gate.authorize lookup header) s =
      ((gate.verdict hash header).mapError .auth, s) := by
  rw [eval_authorize_eq]
  simp only [h, Credential.Gate.ruling_of_ok]
  cases gate.consulted? header with
  | none => rfl
  | some user => rfl

end Registry

end Depot
