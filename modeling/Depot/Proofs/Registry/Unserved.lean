import Depot.Proofs.Registry.Gate
import Depot.Proofs.Registry.Traceless

/-!
# Operations over storage that serves nobody

Over storage that fails every call an operation ends at its first call. Whatever it checks without a
call it checks as ever: whether accounts are managed here, whether a name is blank, whether the
header can be read, what another service says of the caller, and, once the caller has passed,
whether the request makes sense. So its error follows from the operation itself.

Headlines
* `Operation.unserved` tells the error of each operation.
* **`Storage.StepsBreak.perform`**: over storage that fails every call an operation ends with that
  error and leaves the storage as it was.
-/

namespace Depot

namespace Credential

open Registry (Error)

/-- What a caller is answered at a gate that cannot look up password hashes: the reason for refusing
it or, if it passes, what follows. -/
def Gate.unserved (gate : Gate) (header : String) (passed : Error) : Error :=
  match gate, parseBasic header with
  | .everyone, _ => passed
  | .internal, .error why | .external _, .error why => .auth why
  | .internal, .ok _ => .auth .unavailable
  | .external accepts, .ok login =>
    match accepts login with
    | .ok true => passed
    | .ok false => .auth .rejected
    | .error _ => .auth .unavailable

/-- What managing accounts is answered: that they are kept elsewhere or, if they are kept here, what
follows. -/
def Gate.unmanaged (gate : Gate) (managed : Error) : Error :=
  match gate with
  | .external _ =>
    .unsupported "user management is delegated to an external credential store"
  | .everyone | .internal => managed

/-- Where no password hash can be looked up the gate lets a caller pass, or refuses it for the
reason that the caller is answered. -/
theorem Gate.ruling_unserved {gate : Gate} {lookup : String → Except Error (Option String)}
    (h : ∀ user, ∃ e, lookup user = .error e) (header : String) :
    (gate.ruling lookup header = .ok () ∧ ∀ e, gate.unserved header e = e) ∨
      ∃ why, gate.ruling lookup header = .error why ∧ ∀ e, gate.unserved header e = .auth why := by
  unfold ruling unserved
  cases gate with
  | everyone => exact .inl ⟨rfl, fun _ => rfl⟩
  | internal =>
    cases parseBasic header with
    | error why => exact .inr ⟨why, rfl, fun _ => rfl⟩
    | ok login =>
      obtain ⟨e, he⟩ := h login.user
      exact .inr ⟨.unavailable, congrArg (judge login) he, fun _ => rfl⟩
  | external accepts =>
    cases parseBasic header with
    | error why => exact .inr ⟨why, rfl, fun _ => rfl⟩
    | ok login =>
      simp only [bind, Except.bind]
      cases accepts login with
      | error e => exact .inr ⟨.unavailable, rfl, fun _ => rfl⟩
      | ok accepted =>
        cases accepted with
        | true => exact .inl ⟨rfl, fun _ => rfl⟩
        | false => exact .inr ⟨.rejected, rfl, fun _ => rfl⟩

end Credential

namespace Registry

open Credential (Gate)

/-- What giving a name is answered: that it is blank or, if it is not, what follows. -/
def unnamed (kind name : String) (named : Error) : Error :=
  if (Text.trim name).isEmpty then .invalidRequest (.blankName kind) else named

/-- What a registration is answered: that its id is no digest, that its size is negative or, if it
makes sense, what follows. -/
def Request.unregistered (r : Request) (sensible : Error) : Error :=
  if isDigest r.oid = false then .invalidRequest (.oid r.oid)
  else if r.size < 0 then .invalidRequest (.size r.size)
  else sensible

/-- The error of an operation over storage that fails every call for a reason. -/
def Operation.unserved (gate : Gate) (why : Breakdown) : Operation → Error
  | .get r | .getPending r | .commit r => gate.unserved r.authorization (.backend why)
  | .put r => gate.unserved r.authorization (r.unregistered (.backend why))
  | .addUser name _ _ => gate.unmanaged (unnamed "user" name (.backend why))
  | .deleteUser _ | .users => gate.unmanaged (.backend why)
  | .addProject name => unnamed "project" name (.backend why)
  | .projects | .objects | .close => .backend why

variable {Call σ α β : Type} {Reply : Call → Type} {service : Service σ Call Reply}
  {shut : σ → Prop} {cause : Breakdown → Prop} {errors : Error → Prop}

/-! ### Actions that fail -/

/-- From states of a kind an action fails with errors of a kind, and ends in such a state. -/
structure Fails (service : Service σ Call Reply) (shut : σ → Prop) (errors : Error → Prop)
    (x : Action Call Reply α) : Prop where
  ends : ∀ s, shut s → Ends service (fun _ _ => False) (fun e t => errors e ∧ shut t) x s

/-- The errors that an answer turns breakdowns of a kind into. -/
def Caused (cause : Breakdown → Prop) (answer : Breakdown → Error) (e : Error) : Prop :=
  ∃ why, cause why ∧ e = answer why

namespace Fails

variable {x : Action Call Reply α} {f : α → Action Call Reply β}

theorem eval (h : Fails service shut errors x) {s : σ} (hs : shut s) :
    ∃ e, (Registry.eval service x s).1 = .error e ∧ errors e ∧
      shut (Registry.eval service x s).2 := by
  have hend := h.ends s hs
  cases hresult : (Registry.eval service x s).1 with
  | ok a => exact (hend.ok hresult).elim
  | error e => exact ⟨e, rfl, hend.error hresult⟩

/-- An action that breaks down at once, the state left alone. -/
theorem of_eval {s : σ} {why : Breakdown}
    (h : Registry.eval service x s = (.error (.backend why), s)) :
    Fails service (· = s) (Caused (· = why) .backend) x := by
  refine ⟨?_⟩
  rintro _ rfl
  unfold Ends
  rw [h]
  exact ⟨⟨why, rfl, rfl⟩, rfl⟩

/-- After a failure it is over. -/
theorem bind (h : Fails service shut errors x) : Fails service shut errors (x >>= f) :=
  ⟨fun s hs => (h.ends s hs).bind fun _ _ hnever => hnever.elim⟩

/-- A check that reads no state, before an action that fails. -/
theorem check {y : Except Error α} (herror : ∀ e, y = .error e → errors e)
    (hok : ∀ a, y = .ok a → Fails service shut errors (f a)) :
    Fails service shut errors (liftM y >>= f) := by
  refine ⟨fun s hs => ?_⟩
  have hcheck : Ends service (fun a t => y = .ok a ∧ t = s) (fun e t => errors e ∧ shut t)
      (liftM y) s := .lift (fun a ha => ⟨ha, rfl⟩) fun e he => ⟨herror e he, hs⟩
  refine hcheck.bind fun a t ht => ?_
  obtain ⟨ha, rfl⟩ := ht
  exact (hok a ha).ends t hs

end Fails

/-! ### Checks -/

section

variable {answer answer' : Breakdown → Error} {gate : Gate} {f : Unit → Action Call Reply β}
  {header : String}

/-- A check before an action that fails: its error comes first. -/
theorem Fails.guard (hcause : ∃ why, cause why) {y : Except Error Unit}
    (herror : ∀ e, y = .error e → ∀ why, answer' why = e)
    (hok : y = .ok () → ∀ why, answer' why = answer why)
    (hf : Fails service shut (Caused cause answer) (f ())) :
    Fails service shut (Caused cause answer') (liftM y >>= f) := by
  refine .check (fun e he => ?_) fun _ hpassed => ?_
  · obtain ⟨why, hwhy⟩ := hcause
    exact ⟨why, hwhy, (herror e he why).symm⟩
  · rw [funext (hok hpassed)]
    exact hf

theorem fails_manage (hcause : ∃ why, cause why)
    (hf : Fails service shut (Caused cause answer) (f ())) :
    Fails service shut (Caused cause fun why => gate.unmanaged (answer why))
      (liftM gate.requireAccounts >>= f) := by
  refine .guard hcause (fun e he why => ?_) (fun hpassed why => ?_) hf
  · cases gate with
    | external accepts => exact Except.error.inj he
    | everyone | internal => exact nomatch he
  · cases gate with
    | external accepts => exact nomatch hpassed
    | everyone | internal => rfl

theorem fails_name (hcause : ∃ why, cause why) (kind name : String)
    (hf : Fails service shut (Caused cause answer) (f ())) :
    Fails service shut (Caused cause fun why => unnamed kind name (answer why))
      (liftM (requireName kind name) >>= f) := by
  unfold requireName unnamed
  refine .guard hcause (fun e he why => ?_) (fun hpassed why => ?_) hf
  · split at he
    · next hblank => rw [if_pos hblank, Except.error.inj he]
    · exact nomatch he
  · split at hpassed
    · exact nomatch hpassed
    · next hblank => rw [if_neg hblank]

theorem fails_validate (hcause : ∃ why, cause why) (r : Request)
    (hf : Fails service shut (Caused cause answer) (f ())) :
    Fails service shut (Caused cause fun why => r.unregistered (answer why))
      (liftM r.validate >>= f) := by
  unfold Request.validate Request.unregistered
  refine .guard hcause (fun e he why => ?_) (fun hpassed why => ?_) hf
  · cases hdigest : isDigest r.oid with
    | false =>
      rw [hdigest] at he
      exact Except.error.inj he
    | true =>
      rw [hdigest] at he
      by_cases hsize : r.size < 0
      · simp only [if_pos hsize] at he ⊢
        exact Except.error.inj he
      · simp only [if_neg hsize] at he
        exact nomatch he
  · cases hdigest : isDigest r.oid with
    | false =>
      rw [hdigest] at hpassed
      exact nomatch hpassed
    | true =>
      rw [hdigest] at hpassed
      by_cases hsize : r.size < 0
      · simp only [if_pos hsize] at hpassed
        exact nomatch hpassed
      · rw [if_neg hsize]
        rfl

theorem fails_authorize {storage : Storage Call Reply} {r : Request}
    (hlookup : ∀ user, Fails service shut (Caused cause .backend)
      (ExceptT.mk (storage.passwordHash user)))
    (hcause : ∃ why, cause why) (hf : Fails service shut (Caused cause answer) (f ())) :
    Fails service shut (Caused cause fun why => gate.unserved r.authorization (answer why))
      (storage.authorize gate r >>= f) := by
  refine ⟨fun s hs => ?_⟩
  have hafter : shut (storage.afterGate service s gate r.authorization) := by
    unfold Storage.afterGate
    cases gate.consulted? r.authorization with
    | none => exact hs
    | some user =>
      obtain ⟨e, -, -, hshut⟩ := (hlookup user).eval hs
      exact hshut
  have hnone : ∀ user, ∃ e, storage.lookup service s user = .error e := fun user => by
    obtain ⟨e, he, -, -⟩ := (hlookup user).eval hs
    exact ⟨e, he⟩
  have hgate : eval service (storage.authorize gate r) s = _ := Storage.eval_gate r s
  obtain ⟨hpasses, hsame⟩ | ⟨why, hrefused, hsame⟩ := Gate.ruling_unserved hnone r.authorization
  · rw [hpasses] at hgate
    simp only [hsame]
    have hrest := hf.ends _ hafter
    unfold Ends at hrest ⊢
    rw [eval_bind_of_ok hgate]
    exact hrest
  · rw [hrefused] at hgate
    obtain ⟨cause, hcause⟩ := hcause
    unfold Ends
    rw [eval_bind_of_error hgate]
    exact ⟨⟨cause, hcause, (hsame _).symm⟩, hafter⟩

end

/-! ### Operations -/

namespace Storage

variable {storage : Storage Call Reply} {op : Operation}

/-- Every step that an operation may begin with breaks down. A user is added only after a
look-up. -/
structure StepsBreak (storage : Storage Call Reply) (service : Service σ Call Reply)
    (shut : σ → Prop) (cause : Breakdown → Prop) : Prop where
  caused : ∃ why, cause why
  passwordHash : ∀ user, Fails service shut (Caused cause .backend)
    (ExceptT.mk (storage.passwordHash user))
  find : ∀ oid, Fails service shut (Caused cause .backend) (storage.find oid)
  register : ∀ r, Fails service shut (Caused cause .backend) (storage.register r)
  commit : ∀ oid, Fails service shut (Caused cause .backend) (storage.commit oid)
  deleteUser : ∀ name, Fails service shut (Caused cause .backend) (storage.deleteUser name)
  userNames : Fails service shut (Caused cause .backend) storage.userNames
  ensureProject : ∀ name, Fails service shut (Caused cause .backend) (storage.ensureProject name)
  projects : Fails service shut (Caused cause .backend) storage.projects
  objects : Fails service shut (Caused cause .backend) storage.objects

/-- An operation that is not a closing fails with its error. -/
theorem StepsBreak.run (h : storage.StepsBreak service shut cause) (gate : Gate)
    (hop : op ≠ .close) :
    Fails service shut (Caused cause fun why => op.unserved gate why) (storage.run gate op) := by
  cases op with
  | get r => exact (fails_authorize h.passwordHash h.caused (h.find r.oid).bind).bind
  | getPending r => exact (fails_authorize h.passwordHash h.caused (h.find r.oid).bind).bind
  | put r =>
    exact (fails_authorize h.passwordHash h.caused
      (fails_validate h.caused r (h.register r).bind)).bind
  | commit r => exact (fails_authorize h.passwordHash h.caused (h.commit r.oid).bind).bind
  | addUser name password salt =>
    exact (fails_manage h.caused (fails_name h.caused "user" name (h.passwordHash name).bind)).bind
  | deleteUser name => exact (fails_manage h.caused (h.deleteUser name)).bind
  | users => exact (fails_manage h.caused h.userNames.bind).bind
  | addProject name =>
    exact (fails_name h.caused "project" name (h.ensureProject name)).bind
  | projects => exact h.projects.bind
  | objects => exact h.objects.bind
  | close => exact absurd rfl hop

/-- **Over storage that fails every call an operation that is not a closing ends with its error**,
and leaves the storage as it was. -/
theorem StepsBreak.perform (h : storage.StepsBreak service shut cause) (gate : Gate)
    (hop : op ≠ .close) {s : σ} (hs : shut s) :
    (∃ why, cause why ∧ (storage.perform gate service s op).1 = .error (op.unserved gate why)) ∧
      shut (storage.perform gate service s op).2 := by
  obtain ⟨e, he, ⟨why, hwhy, rfl⟩, hshut⟩ := (h.run gate hop).eval hs
  exact ⟨⟨why, hwhy, he⟩, hshut⟩

end Storage

end Registry

end Depot
