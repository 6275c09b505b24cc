import Depot.Proofs.Registry.Evaluation

/-!
# Who passes the gate

The four operations on an object begin at the gate, and nothing but the gate refuses a caller: a
look-up that cannot be made is a refusal, and no error of the storage is one. So the answer of such
an operation tells whether its caller may pass, and a refused one tells nothing else.

Headlines
* **`ruling_eq_ok_iff`**: the gate lets pass whom it `Admits`.
* **`Storage.StepsRefuseNone.perform_of_refused`**: the answer to a refused caller is the reason,
  after at most the look-up of a password hash.
* **`Storage.StepsRefuseNone.perform_eq_auth_iff`**: an operation on an object answers with a reason
  for refusing its caller exactly when that is the ruling of the gate.
-/

namespace Depot

namespace Credential

open Registry (Error Refusal)

variable {gate : Gate} {lookup : String → Except Error (Option String)} {header : String}

/-- Whom the gate lets pass, by what looking up a password hash answers: everyone; those whose
credentials belong to a hash that is found; those whose credentials another service accepts. -/
def Gate.Admits (gate : Gate) (lookup : String → Except Error (Option String))
    (header : String) : Prop :=
  match gate with
  | .everyone => True
  | .internal => ∃ login hash, parseBasic header = .ok login ∧
      lookup login.user = .ok (some hash) ∧ Password.verify hash login.password = true
  | .external accepts => ∃ login, parseBasic header = .ok login ∧ accepts login = .ok true

theorem grant_eq_ok_iff (accepted : Bool) : grant accepted = .ok () ↔ accepted = true := by
  cases accepted with
  | true => exact iff_of_true rfl rfl
  | false => exact iff_of_false (fun h => nomatch h) (fun h => nomatch h)

theorem judge_eq_ok_iff (login : Login) (found : Except Error (Option String)) :
    judge login found = .ok () ↔
      ∃ hash, found = .ok (some hash) ∧ Password.verify hash login.password = true := by
  match found with
  | .ok (some hash) => simp [judge, grant_eq_ok_iff]
  | .ok none => simp [judge]
  | .error e => simp [judge]

/-- **The gate lets pass whom it admits.** -/
theorem Gate.ruling_eq_ok_iff : gate.ruling lookup header = .ok () ↔ gate.Admits lookup header := by
  cases gate with
  | everyone => exact iff_of_true rfl trivial
  | internal =>
    unfold ruling Admits
    cases parseBasic header with
    | error why => simp [bind, Except.bind]
    | ok login => simp [bind, Except.bind, judge_eq_ok_iff]
  | external accepts =>
    unfold ruling Admits
    cases parseBasic header with
    | error why => simp [bind, Except.bind]
    | ok login =>
      cases h : accepts login with
      | error e => simp [bind, Except.bind, h]
      | ok accepted => simp [bind, Except.bind, h, grant_eq_ok_iff]

/-- Who is not admitted is refused for some reason. -/
theorem Gate.exists_ruling_eq_error_iff :
    (∃ why, gate.ruling lookup header = .error why) ↔ ¬ gate.Admits lookup header := by
  rw [← ruling_eq_ok_iff]
  cases gate.ruling lookup header with
  | ok a => simp
  | error why => simp

/-- Only a gate over the password table looks anything up in it. -/
theorem Gate.ruling_congr {lookup' : String → Except Error (Option String)}
    (h : gate = .internal → lookup' = lookup) :
    gate.ruling lookup' header = gate.ruling lookup header := by
  cases gate with
  | everyone => rfl
  | external accepts => rfl
  | internal => rw [h rfl]

end Credential

namespace Registry

open Credential (Gate)

variable {Call σ α β : Type} {Reply : Call → Type} {service : Service σ Call Reply}

/-! ### Errors that refuse no caller -/

/-- A result whose error, if it is one, is no refusal. -/
def Unrefused (x : Except Error α) : Prop := ∀ e, x = .error e → e.isAuth = false

namespace Unrefused

theorem ok (a : α) : Unrefused (.ok a) := fun _ h => nomatch h

theorem error {e : Error} (h : e.isAuth = false) :
    Unrefused (.error e : Except Error α) := fun _ he => Except.error.inj he ▸ h

theorem bind {x : Except Error α} {f : α → Except Error β} (hx : Unrefused x)
    (hf : ∀ a, Unrefused (f a)) : Unrefused (x >>= f) := by
  cases x with
  | ok a => exact hf a
  | error e => exact .error (hx e rfl)

theorem map {x : Except Error α} (hx : Unrefused x) (f : α → β) : Unrefused (x.map f) := by
  cases x with
  | ok a => exact .ok (f a)
  | error e => exact .error (hx e rfl)

theorem mapM {f : α → Except Error β} (hf : ∀ a, Unrefused (f a)) (l : List α) :
    Unrefused (l.mapM f) := by
  induction l with
  | nil => exact .ok []
  | cons a l ih =>
    rw [List.mapM_cons]
    exact (hf a).bind fun b => ih.bind fun bs => .ok _

theorem foldlM {f : β → α → Except Error β} (hf : ∀ b a, Unrefused (f b a)) (b : β)
    (l : List α) : Unrefused (l.foldlM f b) := by
  induction l generalizing b with
  | nil => exact .ok b
  | cons a l ih => exact (hf b a).bind ih

end Unrefused

/-- An action whose errors are no refusals of its caller. -/
def RefusesNone (service : Service σ Call Reply) (x : Action Call Reply α) : Prop :=
  ∀ s, Unrefused (eval service x s).1

namespace RefusesNone

theorem pure (a : α) : RefusesNone service (Pure.pure a) := fun _ => .ok a

theorem lift {x : Except Error α} (h : Unrefused x) : RefusesNone service (liftM x) := fun _ => h

theorem throw {e : Error} (h : e.isAuth = false) :
    RefusesNone service (MonadExcept.throw e : Action Call Reply α) := fun _ => .error h

theorem bind {x : Action Call Reply α} {f : α → Action Call Reply β} (hx : RefusesNone service x)
    (hf : ∀ a, RefusesNone service (f a)) : RefusesNone service (x >>= f) := by
  intro s
  rw [eval_bind]
  have h := hx s
  cases heval : eval service x s with
  | mk r s' =>
    rw [heval] at h
    cases r with
    | ok a => exact hf a s'
    | error e => exact .error (h e rfl)

theorem map {x : Action Call Reply α} (hx : RefusesNone service x) (f : α → β) :
    RefusesNone service (x >>= fun a => Pure.pure (f a)) :=
  hx.bind fun _ => pure _

theorem require (oid : String) (found : Option Object) :
    RefusesNone service (Storage.require oid found) := by
  cases found with
  | none => exact throw rfl
  | some o => exact pure o

theorem validate (r : Request) : RefusesNone service (liftM r.validate) := by
  refine lift ?_
  unfold Request.validate
  split
  · exact .error rfl
  · split
    · exact .error rfl
    · exact .ok ()

end RefusesNone

/-! ### Operations on an object -/

/-- The request of an operation on an object. -/
def Operation.request? : Operation → Option Request
  | .get r | .getPending r | .put r | .commit r => some r
  | _ => none

namespace Storage

/-- The steps that read and write records refuse no caller. -/
structure StepsRefuseNone (storage : Storage Call Reply) (service : Service σ Call Reply) :
    Prop where
  find : ∀ oid, RefusesNone service (storage.find oid)
  register : ∀ r, RefusesNone service (storage.register r)
  commit : ∀ oid, RefusesNone service (storage.commit oid)

variable {storage : Storage Call Reply} {gate : Gate} {op : Operation} {r : Request} {s : σ}

/-- What looking up the password hash of a user answers. -/
def lookup (storage : Storage Call Reply) (service : Service σ Call Reply) (s : σ)
    (user : String) : Except Error (Option String) :=
  (Program.run service (storage.passwordHash user) s).1

/-- The state after the look-up that the gate makes for a header, if it makes one. -/
def afterGate (storage : Storage Call Reply) (service : Service σ Call Reply) (s : σ) (gate : Gate)
    (header : String) : σ :=
  (gate.consulted? header).elim s fun user => (Program.run service (storage.passwordHash user) s).2

theorem eval_gate (r : Request) (s : σ) :
    eval service (storage.authorize gate r) s =
      ((gate.ruling (storage.lookup service s) r.authorization).mapError .auth,
        storage.afterGate service s gate r.authorization) :=
  eval_authorize_eq storage.passwordHash gate r.authorization s

/-- An operation on an object is the gate and then some action that refuses no caller. -/
theorem StepsRefuseNone.run_eq (h : storage.StepsRefuseNone service) (gate : Gate)
    (hop : op.request? = some r) :
    ∃ rest : Action Call Reply Answer, RefusesNone service rest ∧
      storage.run gate op = storage.authorize gate r >>= fun _ => rest := by
  cases op with
  | get r' =>
    obtain rfl := Option.some.inj hop
    refine ⟨_, ?_, (bind_assoc _ _ _)⟩
    refine ((h.find _).bind fun found => (RefusesNone.require _ found).bind fun o => ?_).map _
    by_cases ho : o.existing
    · rw [if_pos ho]
      exact .pure o
    · rw [if_neg ho]
      exact .throw rfl
  | getPending r' =>
    obtain rfl := Option.some.inj hop
    exact ⟨_, ((h.find _).bind fun found => .require _ found).map _, bind_assoc _ _ _⟩
  | put r' =>
    obtain rfl := Option.some.inj hop
    refine ⟨_, ?_, bind_assoc _ _ _⟩
    exact ((RefusesNone.validate _).bind fun _ => (h.register _).bind fun found =>
      .require _ found).map _
  | commit r' =>
    obtain rfl := Option.some.inj hop
    exact ⟨_, ((h.commit _).bind fun found => .require _ found).map _, bind_assoc _ _ _⟩
  | addUser _ _ _ | deleteUser _ | users | addProject _ | projects | objects | close =>
    exact nomatch hop

/-- **A caller whom the gate refuses is answered the reason, after at most the look-up of a password
hash.** -/
theorem StepsRefuseNone.perform_of_refused (h : storage.StepsRefuseNone service) (hop : op.request? = some r)
    {why : Refusal} (hwhy : gate.ruling (storage.lookup service s) r.authorization = .error why) :
    storage.perform gate service s op =
      (.error (.auth why), storage.afterGate service s gate r.authorization) := by
  obtain ⟨rest, -, hrun⟩ := h.run_eq gate hop
  have hgate : eval service (storage.authorize gate r) s =
      (.error (.auth why), storage.afterGate service s gate r.authorization) := by
    rw [eval_gate, hwhy]
    rfl
  show eval service (storage.run gate op) s = _
  rw [hrun]
  exact eval_bind_of_error hgate

/-- **An operation on an object answers with a reason for refusing its caller exactly when that is
the ruling of the gate.** -/
theorem StepsRefuseNone.perform_eq_auth_iff (h : storage.StepsRefuseNone service) (hop : op.request? = some r)
    (why : Refusal) :
    (storage.perform gate service s op).1 = .error (.auth why) ↔
      gate.ruling (storage.lookup service s) r.authorization = .error why := by
  cases hruling : gate.ruling (storage.lookup service s) r.authorization with
  | error why' => simp [h.perform_of_refused hop hruling]
  | ok a =>
    obtain ⟨rest, hrest, hrun⟩ := h.run_eq gate hop
    have hgate : eval service (storage.authorize gate r) s =
        (.ok (), storage.afterGate service s gate r.authorization) := by
      rw [eval_gate, hruling]
      rfl
    refine iff_of_false (fun hauth => ?_) (fun h => nomatch h)
    change (eval service (storage.run gate op) s).1 = _ at hauth
    rw [hrun, eval_bind_of_ok hgate] at hauth
    exact nomatch hrest _ _ hauth

end Storage

end Registry

end Depot
