import Depot.Proofs.Registry.Evaluation

/-!
# Storage that does the same over two services

Where each step of a storage comes to the same over two services from related states, and relates
the states after it again, so does each operation, and a sequence of them has the same outcomes over
both.

Headlines
* **`Matches.bind`**: actions that match one after another match.
* **`Storage.StepsMatch.perform`**: operations match if the steps do.
* **`Storage.StepsMatch.performAll`**: so a sequence of operations has the same outcomes, and
  **`performAll_related`** leaves related states.
-/

namespace Depot.Registry

open Credential (Gate)

variable {Call σ τ α β : Type} {Reply : Call → Type} {service : Service σ Call Reply}
  {service' : Service τ Call Reply} {R : σ → τ → Prop}

/-- Two actions, each over a service of its own, come to the same from two states and leave related
states. -/
structure Matches (service : Service σ Call Reply) (service' : Service τ Call Reply)
    (R : σ → τ → Prop) (x y : Action Call Reply α) (s : σ) (t : τ) : Prop where
  outcome : (eval service x s).1 = (eval service' y t).1
  related : R (eval service x s).2 (eval service' y t).2

/-- Two outcomes are results that are alike, or one error. -/
def AlikeOutcome {α' : Type} (P : α → α' → Prop) : Except Error α → Except Error α' → Prop
  | .ok a, .ok b => P a b
  | .error e, .error e' => e = e'
  | _, _ => False

namespace Matches

variable {s : σ} {t : τ}

/-- What has come to a result without a call matches from related states. -/
theorem lift (h : R s t) (r : Except Error α) :
    Matches service service' R (liftM r) (liftM r) s t := ⟨rfl, h⟩

theorem pure (h : R s t) (a : α) :
    Matches service service' R (Pure.pure a) (Pure.pure a) s t := ⟨rfl, h⟩

/-- Actions match one after another if the results of the first ones are alike and what follows
matches for such results. -/
theorem bind_of_alike {α' : Type} {P : α → α' → Prop} {x : Action Call Reply α}
    {y : Action Call Reply α'} {f : α → Action Call Reply β} {g : α' → Action Call Reply β}
    (halike : AlikeOutcome P (eval service x s).1 (eval service' y t).1)
    (hrelated : R (eval service x s).2 (eval service' y t).2)
    (hf : ∀ a b s' t', P a b → R s' t' → eval service' y t = (.ok b, t') →
      Matches service service' R (f a) (g b) s' t') :
    Matches service service' R (x >>= f) (y >>= g) s t := by
  rcases hx : eval service x s with ⟨a | a, s'⟩ <;>
    rcases hy : eval service' y t with ⟨b | b, t'⟩ <;>
    rw [hx, hy] at halike hrelated
  · obtain rfl : a = b := halike
    constructor
    · rw [eval_bind_of_error hx, eval_bind_of_error hy]
    · rw [eval_bind_of_error hx, eval_bind_of_error hy]
      exact hrelated
  · exact halike.elim
  · exact halike.elim
  · obtain ⟨houtcome, hafter⟩ := hf a b s' t' halike hrelated hy
    constructor
    · rw [eval_bind_of_ok hx, eval_bind_of_ok hy]
      exact houtcome
    · rw [eval_bind_of_ok hx, eval_bind_of_ok hy]
      exact hafter

/-- Actions match if their results are alike and only equal results are. -/
theorem of_alike {P : α → α → Prop} {x y : Action Call Reply α}
    (halike : AlikeOutcome P (eval service x s).1 (eval service' y t).1)
    (hrelated : R (eval service x s).2 (eval service' y t).2) (hexact : ∀ a b, P a b → a = b) :
    Matches service service' R x y s t := by
  refine ⟨?_, hrelated⟩
  cases hx : (eval service x s).1 <;> cases hy : (eval service' y t).1 <;> rw [hx, hy] at halike
  · exact congrArg Except.error halike
  · exact halike.elim
  · exact halike.elim
  · exact congrArg Except.ok (hexact _ _ halike)

/-- **Actions that match one after another match.** What follows need match only for a result that
the first one comes to. -/
theorem bind {x y : Action Call Reply α} {f g : α → Action Call Reply β}
    (h : Matches service service' R x y s t)
    (hf : ∀ a s' t', R s' t' → eval service' y t = (.ok a, t') →
      Matches service service' R (f a) (g a) s' t') :
    Matches service service' R (x >>= f) (y >>= g) s t := by
  refine bind_of_alike (P := Eq) ?_ h.related fun a b s' t' hab hR hy => ?_
  · rw [h.outcome]
    cases (eval service' y t).1 <;> rfl
  · rw [hab]
    exact hf b s' t' hR hy

theorem congr_right {x y y' : Action Call Reply α} (h : Matches service service' R x y s t)
    (hy : eval service' y t = eval service' y' t) : Matches service service' R x y' s t :=
  ⟨hy ▸ h.outcome, hy ▸ h.related⟩

theorem map {x y : Action Call Reply α} (h : Matches service service' R x y s t) (f : α → β) :
    Matches service service' R (x >>= fun a => Pure.pure (f a)) (y >>= fun a => Pure.pure (f a))
      s t :=
  h.bind fun a _ _ hR _ => pure hR (f a)

theorem require (h : R s t) (oid : String) (found : Option Object) :
    Matches service service' R (Storage.require oid found) (Storage.require oid found) s t := by
  cases found with
  | none => exact lift h (.error (.notFound (.object oid)))
  | some o => exact pure h o

end Matches

namespace Storage

/-- Every step matches from related states. -/
structure StepsMatch (storage : Storage Call Reply) (service : Service σ Call Reply)
    (service' : Service τ Call Reply) (R : σ → τ → Prop) : Prop where
  passwordHash : ∀ user s t, R s t →
    Matches service service' R (ExceptT.mk (storage.passwordHash user))
      (ExceptT.mk (storage.passwordHash user)) s t
  find : ∀ oid s t, R s t → Matches service service' R (storage.find oid) (storage.find oid) s t
  register : ∀ r s t, R s t →
    Matches service service' R (storage.register r) (storage.register r) s t
  commit : ∀ oid s t, R s t →
    Matches service service' R (storage.commit oid) (storage.commit oid) s t
  insertUser : ∀ name hash s t, R s t →
    Matches service service' R (storage.insertUser name hash) (storage.insertUser name hash) s t
  deleteUser : ∀ name s t, R s t →
    Matches service service' R (storage.deleteUser name) (storage.deleteUser name) s t
  userNames : ∀ s t, R s t → Matches service service' R storage.userNames storage.userNames s t
  ensureProject : ∀ name s t, R s t →
    Matches service service' R (storage.ensureProject name) (storage.ensureProject name) s t
  projects : ∀ s t, R s t → Matches service service' R storage.projects storage.projects s t
  objects : ∀ s t, R s t → Matches service service' R storage.objects storage.objects s t
  close : ∀ s t, R s t → Matches service service' R storage.close storage.close s t

/-- The outcomes of operations one after another, and the state after them. -/
def performAll (storage : Storage Call Reply) (gate : Gate) (service : Service σ Call Reply) :
    List Operation → σ → List Outcome × σ
  | [], s => ([], s)
  | op :: rest, s =>
    let (outcome, s) := storage.perform gate service s op
    let (outcomes, s) := performAll storage gate service rest s
    (outcome :: outcomes, s)

variable {storage : Storage Call Reply} {s : σ} {t : τ}

/-- Letting a caller through matches if the look-ups of password hashes do. -/
theorem StepsMatch.authorize (h : storage.StepsMatch service service' R) (hR : R s t) (gate : Gate)
    (r : Request) :
    Matches service service' R (storage.authorize gate r) (storage.authorize gate r) s t := by
  have hlookup : (fun user => (Program.run service (storage.passwordHash user) s).1) =
      fun user => (Program.run service' (storage.passwordHash user) t).1 :=
    funext fun user => (h.passwordHash user s t hR).outcome
  constructor
  · unfold Storage.authorize
    rw [eval_authorize_eq, eval_authorize_eq]
    show (gate.ruling _ r.authorization).mapError _ = (gate.ruling _ r.authorization).mapError _
    rw [hlookup]
  · unfold Storage.authorize
    rw [eval_authorize_eq, eval_authorize_eq]
    cases gate.consulted? r.authorization with
    | none => exact hR
    | some user => exact (h.passwordHash user s t hR).related

/-- **Operations match if the steps do.** -/
theorem StepsMatch.perform (h : storage.StepsMatch service service' R) (hR : R s t) (gate : Gate)
    (op : Operation) :
    (storage.perform gate service s op).1 = (storage.perform gate service' t op).1 ∧
      R (storage.perform gate service s op).2 (storage.perform gate service' t op).2 := by
  have hrun : Matches service service' R (storage.run gate op) (storage.run gate op) s t := by
    cases op with
    | get r =>
      refine ((h.authorize hR gate r).bind fun _ s t hR _ => ?_).map _
      refine (h.find r.oid s t hR).bind fun found s t hR _ => ?_
      refine (Matches.require hR r.oid found).bind fun o s t hR _ => ?_
      by_cases ho : o.existing
      · rw [if_pos ho]
        exact .pure hR o
      · rw [if_neg ho]
        exact .lift hR (.error (.notFound (.pending r.oid)))
    | getPending r =>
      refine ((h.authorize hR gate r).bind fun _ s t hR _ => ?_).map _
      exact (h.find r.oid s t hR).bind fun found s t hR _ => .require hR r.oid found
    | put r =>
      refine ((h.authorize hR gate r).bind fun _ s t hR _ => ?_).map _
      refine (Matches.lift hR r.validate).bind fun _ s t hR _ => ?_
      exact (h.register r s t hR).bind fun found s t hR _ => .require hR r.oid found
    | commit r =>
      refine ((h.authorize hR gate r).bind fun _ s t hR _ => ?_).map _
      exact (h.commit r.oid s t hR).bind fun found s t hR _ => .require hR r.oid found
    | addUser name password salt =>
      refine ((Matches.lift hR gate.requireAccounts).bind fun _ s t hR _ => ?_).map _
      refine (Matches.lift hR (requireName "user" name)).bind fun _ s t hR _ => ?_
      refine (h.passwordHash name s t hR).bind fun found s t hR _ => ?_
      cases found with
      | some hash => exact .pure hR ()
      | none => exact h.insertUser name _ s t hR
    | deleteUser name =>
      exact ((Matches.lift hR gate.requireAccounts).bind fun _ s t hR _ =>
        h.deleteUser name s t hR).map _
    | users =>
      exact ((Matches.lift hR gate.requireAccounts).bind fun _ s t hR _ =>
        (h.userNames s t hR).map _).map _
    | addProject name =>
      exact ((Matches.lift hR (requireName "project" name)).bind fun _ s t hR _ =>
        h.ensureProject name s t hR).map _
    | projects => exact (h.projects s t hR).map _
    | objects => exact (h.objects s t hR).map _
    | close => exact (h.close s t hR).map _
  exact ⟨hrun.outcome, hrun.related⟩

/-- **A sequence of operations has the same outcomes over both services.** -/
theorem StepsMatch.performAll (h : storage.StepsMatch service service' R) (gate : Gate)
    (ops : List Operation) {s : σ} {t : τ} (hR : R s t) :
    (storage.performAll gate service ops s).1 = (storage.performAll gate service' ops t).1 := by
  induction ops generalizing s t with
  | nil => rfl
  | cons op rest ih =>
    obtain ⟨houtcome, hrelated⟩ := h.perform hR gate op
    exact (List.cons_eq_cons).mpr ⟨houtcome, ih hrelated⟩

/-- The states after it are related again. -/
theorem StepsMatch.performAll_related (h : storage.StepsMatch service service' R) (gate : Gate)
    (ops : List Operation) {s : σ} {t : τ} (hR : R s t) :
    R (storage.performAll gate service ops s).2 (storage.performAll gate service' ops t).2 := by
  induction ops generalizing s t with
  | nil => exact hR
  | cons op rest ih => exact ih (h.perform hR gate op).2

end Storage

end Depot.Registry
