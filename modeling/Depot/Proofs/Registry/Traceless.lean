import Depot.Proofs.Registry.Evaluation

/-!
# Operations that fail without a trace

What an operation leaves when it fails, from what its steps leave when they fail. An operation that
is run as a whole reads first and has at most one step that writes; whether it fails after that
step is only a matter of whether there is a record, so a step that finds none must not have written
either.

Headlines
* **`Storage.StepsSpare.perform`**: if the steps of a storage leave no trace when they fail, no
  operation but a closing does.
-/

namespace Depot.Registry

open Credential (Gate)

variable {Call σ V α β : Type} {Reply : Call → Type} {service : Service σ Call Reply}

/-! ### The end of an action -/

/-- What holds at the end of an action: of its answer and the state then, or of its error and the
state then. -/
def Ends (service : Service σ Call Reply) (post : α → σ → Prop) (fails : Error → σ → Prop)
    (x : Action Call Reply α) (s : σ) : Prop :=
  match eval service x s with
  | (.ok a, t) => post a t
  | (.error e, t) => fails e t

namespace Ends

variable {post : α → σ → Prop} {post' : β → σ → Prop} {fails : Error → σ → Prop}
  {x : Action Call Reply α} {f : α → Action Call Reply β} {s : σ}

/-- What holds if the action answers, and what holds if it fails. -/
theorem intro (hok : ∀ a, (eval service x s).1 = .ok a → post a (eval service x s).2)
    (herror : ∀ e, (eval service x s).1 = .error e → fails e (eval service x s).2) :
    Ends service post fails x s := by
  unfold Ends
  split
  · next heval =>
    rw [heval] at hok
    exact hok _ rfl
  · next heval =>
    rw [heval] at herror
    exact herror _ rfl

theorem ok (h : Ends service post fails x s) {a : α} (ha : (eval service x s).1 = .ok a) :
    post a (eval service x s).2 := by
  unfold Ends at h
  split at h
  · next heval =>
    rw [heval] at ha ⊢
    exact Except.ok.inj ha ▸ h
  · next heval =>
    rw [heval] at ha
    exact nomatch ha

theorem error (h : Ends service post fails x s) {e : Error}
    (he : (eval service x s).1 = .error e) : fails e (eval service x s).2 := by
  unfold Ends at h
  split at h
  · next heval =>
    rw [heval] at he
    exact nomatch he
  · next heval =>
    rw [heval] at he ⊢
    exact Except.error.inj he ▸ h

theorem mono {post₂ : α → σ → Prop} {fails₂ : Error → σ → Prop}
    (h : Ends service post fails x s) (hok : ∀ a t, post a t → post₂ a t)
    (herror : ∀ e t, fails e t → fails₂ e t) : Ends service post₂ fails₂ x s :=
  intro (fun a ha => hok a _ (h.ok ha)) fun e he => herror e _ (h.error he)

theorem pure {a : α} (h : post a s) : Ends service post fails (Pure.pure a) s := h

theorem throw {e : Error} (h : fails e s) :
    Ends service post fails (MonadExcept.throw e) s := h

/-- A check that reads no state. -/
theorem lift {x : Except Error α} (hok : ∀ a, x = .ok a → post a s)
    (herror : ∀ e, x = .error e → fails e s) : Ends service post fails (liftM x) s :=
  intro hok herror

theorem bind (h : Ends service post fails x s)
    (hf : ∀ a t, post a t → Ends service post' fails (f a) t) :
    Ends service post' fails (x >>= f) s := by
  unfold Ends at h ⊢
  rw [eval_bind]
  cases heval : eval service x s with
  | mk r t =>
    rw [heval] at h
    cases r with
    | ok a => exact hf a t h
    | error e => exact h

end Ends

/-! ### Traces -/

/-- What is watched of a state, in which states, and the errors that are not accounted for. -/
structure Watch (σ V : Type) where
  /-- What is watched. -/
  view : σ → V
  /-- The states in which anything is promised. -/
  valid : σ → Prop := fun _ => True
  /-- The errors after which nothing is. -/
  excused : Error → Prop := fun _ => False

namespace Watch

variable (w : Watch σ V) (service : Service σ Call Reply)

/-- The errors that a state does not show: from a given state on an error is excused or what is
watched is as it was there. -/
def Hidden (s : σ) (e : Error) (t : σ) : Prop := w.excused e ∨ w.view t = w.view s

/-- An action that changes nothing of what is watched. -/
def Reads (x : Action Call Reply α) : Prop :=
  ∀ s, w.valid s → w.valid (eval service x s).2 ∧ w.view (eval service x s).2 = w.view s

/-- An action that leaves no trace when it fails. -/
def Spares (x : Action Call Reply α) : Prop :=
  ∀ s, w.valid s → Ends service (fun _ _ => True) (w.Hidden s) x s

variable {w service} {x : Action Call Reply α} {f : α → Action Call Reply β}

theorem Reads.pure (a : α) : w.Reads service (Pure.pure a) := fun _ hs => ⟨hs, rfl⟩

theorem Reads.bind (hx : w.Reads service x) (hf : ∀ a, w.Reads service (f a)) :
    w.Reads service (x >>= f) := by
  intro s hs
  rw [eval_bind]
  have hleft := hx s hs
  cases heval : eval service x s with
  | mk r t =>
    rw [heval] at hleft
    cases r with
    | ok a => exact ⟨(hf a t hleft.1).1, (hf a t hleft.1).2.trans hleft.2⟩
    | error e => exact hleft

theorem Reads.map (hx : w.Reads service x) (g : α → β) :
    w.Reads service (x >>= fun a => Pure.pure (g a)) := hx.bind fun a => .pure (g a)

theorem Reads.ends (hx : w.Reads service x) {s : σ} (hs : w.valid s) :
    Ends service (fun _ t => w.valid t ∧ w.view t = w.view s) (w.Hidden s) x s :=
  .intro (fun _ _ => hx s hs) fun _ _ => .inr (hx s hs).2

theorem Reads.spares (hx : w.Reads service x) : w.Spares service x :=
  fun _ hs => (hx.ends hs).mono (fun _ _ _ => trivial) fun _ _ h => h

theorem Spares.throw (e : Error) :
    w.Spares service (MonadExcept.throw e : Action Call Reply α) := fun _ _ => .inr rfl

/-- A check that reads no state, before an action. -/
theorem Spares.lift_bind {y : Except Error α} (hf : ∀ a, y = .ok a → w.Spares service (f a)) :
    w.Spares service (liftM y >>= f) := by
  intro s hs
  have hcheck : Ends service (fun a t => y = .ok a ∧ t = s) (w.Hidden s) (liftM y) s :=
    .lift (fun a ha => ⟨ha, rfl⟩) fun _ _ => .inr rfl
  refine hcheck.bind fun a t ht => ?_
  obtain ⟨ha, rfl⟩ := ht
  exact hf a ha t hs

/-- An action that only reads, before one that leaves no trace. -/
theorem Reads.spares_bind (hx : w.Reads service x) (hf : ∀ a, w.Spares service (f a)) :
    w.Spares service (x >>= f) := by
  intro s hs
  refine (hx.ends hs).bind fun a t ht => ?_
  refine (hf a t ht.1).mono (fun _ _ h => h) fun e u hu => ?_
  exact hu.imp_right fun h => h.trans ht.2

/-- What is made of the answer of an action that leaves no trace. -/
theorem Spares.map (hx : w.Spares service x) (g : α → β) :
    w.Spares service (x >>= fun a => Pure.pure (g a)) :=
  fun s hs => (hx s hs).bind fun _ _ _ => trivial

/-- A record that has to be there: an action that leaves no trace when it fails or finds none. -/
theorem Spares.require {x : Action Call Reply (Option Object)}
    (hx : ∀ s, w.valid s →
      Ends service (fun found t => found = none → w.view t = w.view s) (w.Hidden s) x s)
    (oid : String) : w.Spares service (x >>= Storage.require oid) := by
  intro s hs
  refine (hx s hs).bind fun found t ht => ?_
  cases found with
  | none => exact .throw (.inr (ht rfl))
  | some o => exact .pure trivial

/-- The gate reads at most a password hash. -/
theorem reads_authorize {lookup : String → Program Call Reply (Except Error (Option String))}
    (h : ∀ user, w.Reads service (ExceptT.mk (lookup user))) (gate : Gate) (header : String) :
    w.Reads service (gate.authorize lookup header) := by
  intro s hs
  rw [eval_authorize_eq]
  cases gate.consulted? header with
  | none => exact ⟨hs, rfl⟩
  | some user => exact h user s hs

end Watch

/-! ### Operations -/

namespace Storage

variable {storage : Storage Call Reply} {w : Watch σ V} {gate : Gate} {op : Operation}

/-- The steps of a storage leave no trace when they fail, and those of a record none when they find
no record either. -/
structure StepsSpare (storage : Storage Call Reply) (service : Service σ Call Reply)
    (w : Watch σ V) : Prop where
  passwordHash : ∀ user, w.Reads service (ExceptT.mk (storage.passwordHash user))
  find : ∀ oid, w.Reads service (storage.find oid)
  register : ∀ r s, w.valid s → Ends service (fun found t => found = none → w.view t = w.view s)
    (w.Hidden s) (storage.register r) s
  commit : ∀ oid s, w.valid s → Ends service (fun found t => found = none → w.view t = w.view s)
    (w.Hidden s) (storage.commit oid) s
  insertUser : ∀ name hash, w.Spares service (storage.insertUser name hash)
  deleteUser : ∀ name, w.Spares service (storage.deleteUser name)
  userNames : w.Reads service storage.userNames
  ensureProject : ∀ name, w.Spares service (storage.ensureProject name)
  projects : w.Reads service storage.projects
  objects : w.Reads service storage.objects

/-- Listing the objects leaves no trace at all. -/
theorem StepsSpare.reads_listing (h : storage.StepsSpare service w) (gate : Gate) :
    w.Reads service (storage.run gate .objects) := h.objects.map Answer.objects

/-- An operation that is not a closing leaves no trace when it fails. -/
theorem StepsSpare.run (h : storage.StepsSpare service w) (hop : op ≠ .close) :
    w.Spares service (storage.run gate op) := by
  have hpass : ∀ r : Request, w.Reads service (storage.authorize gate r) := fun r =>
    Watch.reads_authorize h.passwordHash gate r.authorization
  cases op with
  | get r =>
    refine .map ((hpass r).spares_bind fun _ => (h.find r.oid).spares_bind fun found => ?_) _
    cases found with
    | none => exact .throw _
    | some o =>
      refine Watch.Reads.spares_bind (.pure o) fun o => ?_
      by_cases ho : o.existing
      · rw [if_pos ho]
        exact Watch.Reads.spares (.pure o)
      · rw [if_neg ho]
        exact .throw _
  | getPending r =>
    refine .map ((hpass r).spares_bind fun _ => (h.find r.oid).spares_bind fun found => ?_) _
    cases found with
    | none => exact .throw _
    | some o => exact Watch.Reads.spares (.pure o)
  | put r =>
    refine .map ((hpass r).spares_bind fun _ => .lift_bind fun _ _ => ?_) _
    exact .require (h.register r) r.oid
  | commit r => exact .map ((hpass r).spares_bind fun _ => .require (h.commit r.oid) r.oid) _
  | addUser name password salt =>
    refine .map (.lift_bind fun _ _ => .lift_bind fun _ _ => ?_) _
    refine (h.passwordHash name).spares_bind fun found => ?_
    cases found with
    | some hash => exact Watch.Reads.spares (.pure ())
    | none => exact h.insertUser name _
  | deleteUser name => exact .map (.lift_bind fun _ _ => h.deleteUser name) _
  | users => exact .map (.lift_bind fun _ _ => (h.userNames.map _).spares) _
  | addProject name => exact .map (.lift_bind fun _ _ => h.ensureProject name) _
  | projects => exact .map h.projects.spares _
  | objects => exact .map h.objects.spares _
  | close => exact absurd rfl hop

/-- **An operation other than a closing that fails leaves what is watched as it was**, unless the
error is excused. -/
theorem StepsSpare.perform (h : storage.StepsSpare service w) (hop : op ≠ .close) {s : σ}
    (hs : w.valid s) {e : Error} (he : (storage.perform gate service s op).1 = .error e)
    (hunexcused : ¬ w.excused e) :
    w.view (storage.perform gate service s op).2 = w.view s := by
  have hend : Ends service (fun _ _ => True) (w.Hidden s) (storage.run gate op) s := h.run hop s hs
  exact (hend.error he).resolve_left hunexcused

end Storage

end Depot.Registry
