import Depot.Proofs.Interleaving
import Depot.Registry.Storage

/-!
# Operations by the steps of storage

An operation of a registry is put together from the steps of its storage: the gate's look-up, a step
or two, and the check that there is a record. What its steps do by themselves therefore tells what
the operation does beside others, over storage of any kind and with calls that fail.

Headlines
* **`Storage.StepsOwn.run_makes`**: an operation makes no other calls than the steps that it takes;
  `Storage.run_makes` is the case of steps of which less has to be told apart.
* **`Storage.run_keeps`**: what the steps promise of the objects that they find, the operation
  promises of its answer, from its end on.
-/

namespace Depot.Registry

open Credential (Gate)

variable {σ ε Call : Type} {Reply : Call → Type} {α β γ : Type}

/-! ### The calls of an operation -/

section Makes

variable {P : Call → Prop} {gate : Gate} {op : Operation} {storage : Storage Call Reply}

theorem makes_lift (x : Except Error β) : (liftM x : Action Call Reply β).run.Makes P := trivial

theorem makes_bind {x : Action Call Reply β} {f : β → Action Call Reply γ} (hx : x.run.Makes P)
    (hf : ∀ b, (f b).run.Makes P) : (x >>= f).run.Makes P :=
  Program.Makes.bind_action hx hf

theorem makes_map {x : Action Call Reply β} (hx : x.run.Makes P) (f : β → γ) :
    (x >>= fun b => pure (f b)).run.Makes P :=
  makes_bind hx fun _ => trivial

theorem makes_require {x : Action Call Reply (Option Object)} (hx : x.run.Makes P)
    (oid : String) : (x >>= Storage.require oid).run.Makes P := by
  refine makes_bind hx fun found => ?_
  cases found with
  | none => trivial
  | some o => trivial

/-- The gate makes no other calls than the look-up of a password hash. -/
theorem makes_authorize {lookup : String → Program Call Reply (Except Error (Option String))}
    (h : ∀ user, (lookup user).Makes P) (header : String) :
    (gate.authorize lookup header).run.Makes P := by
  have hcheck : (gate.check lookup header).Makes P := by
    unfold Gate.check
    cases gate with
    | everyone => trivial
    | external accepts => trivial
    | internal =>
      cases Credential.parseBasic header with
      | error why => trivial
      | ok login => exact (h login.user).bind fun _ => trivial
  exact hcheck.bind fun _ => trivial

namespace Storage

/-- The steps that an operation takes, with what it gives them, make only calls of a kind. -/
structure StepsOwn (storage : Storage Call Reply) (op : Operation) (P : Call → Prop) : Prop where
  passwordHash : ∀ user, (storage.passwordHash user).Makes P
  find : ∀ oid, (storage.find oid).run.Makes P
  register : ∀ r, op = .put r → (storage.register r).run.Makes P
  commit : ∀ r, op = .commit r → (storage.commit r.oid).run.Makes P
  insertUser : ∀ name password salt, op = .addUser name password salt →
    (storage.insertUser name (Credential.Password.hash salt password)).run.Makes P
  deleteUser : ∀ name, op = .deleteUser name → (storage.deleteUser name).run.Makes P
  userNames : storage.userNames.run.Makes P
  ensureProject : ∀ name, op = .addProject name → (storage.ensureProject name).run.Makes P
  projects : storage.projects.run.Makes P
  objects : storage.objects.run.Makes P
  close : op = .close → storage.close.run.Makes P

/-- **An operation makes no other calls than the steps that it takes.** -/
theorem StepsOwn.run_makes (h : storage.StepsOwn op P) : (storage.run gate op).run.Makes P := by
  have hpass : ∀ r : Request, (storage.authorize gate r).run.Makes P := fun r =>
    makes_authorize h.passwordHash r.authorization
  cases op with
  | get r =>
    refine makes_map (makes_bind (hpass r) fun _ => ?_) _
    refine makes_bind (h.find r.oid) fun found => ?_
    refine makes_bind (?_ : (require r.oid found).run.Makes P) fun o => ?_
    · cases found with
      | none => trivial
      | some o => trivial
    · split
      · trivial
      · trivial
  | getPending r =>
    exact makes_map (makes_bind (hpass r) fun _ => makes_require (h.find r.oid) r.oid) _
  | put r =>
    refine makes_map (makes_bind (hpass r) fun _ => makes_bind (makes_lift _) fun _ => ?_) _
    exact makes_require (h.register r rfl) r.oid
  | commit r =>
    exact makes_map (makes_bind (hpass r) fun _ => makes_require (h.commit r rfl) r.oid) _
  | addUser name password salt =>
    refine makes_map (makes_bind (makes_lift _) fun _ => makes_bind (makes_lift _) fun _ => ?_) _
    refine makes_bind (x := ExceptT.mk (storage.passwordHash name)) (h.passwordHash name)
      fun found => ?_
    cases found with
    | some hash => trivial
    | none => exact h.insertUser name password salt rfl
  | deleteUser name =>
    exact makes_map (makes_bind (makes_lift _) fun _ => h.deleteUser name rfl) _
  | users => exact makes_map (makes_bind (makes_lift _) fun _ => makes_map h.userNames _) _
  | addProject name =>
    exact makes_map (makes_bind (makes_lift _) fun _ => h.ensureProject name rfl) _
  | projects => exact makes_map h.projects _
  | objects => exact makes_map h.objects _
  | close => exact makes_map (h.close rfl) _

/-- The steps that an operation takes make only calls of a kind, whatever accounts and projects they
are given and whether or not the operation is a closing. -/
structure StepsMake (storage : Storage Call Reply) (op : Operation) (P : Call → Prop) : Prop where
  passwordHash : ∀ user, (storage.passwordHash user).Makes P
  find : ∀ oid, (storage.find oid).run.Makes P
  register : ∀ r, op = .put r → (storage.register r).run.Makes P
  commit : ∀ r, op = .commit r → (storage.commit r.oid).run.Makes P
  insertUser : ∀ name hash, (storage.insertUser name hash).run.Makes P
  deleteUser : ∀ name, (storage.deleteUser name).run.Makes P
  userNames : storage.userNames.run.Makes P
  ensureProject : ∀ name, (storage.ensureProject name).run.Makes P
  projects : storage.projects.run.Makes P
  objects : storage.objects.run.Makes P
  close : storage.close.run.Makes P

theorem StepsMake.own (h : storage.StepsMake op P) : storage.StepsOwn op P where
  passwordHash := h.passwordHash
  find := h.find
  register := h.register
  commit := h.commit
  insertUser name _ _ _ := h.insertUser name _
  deleteUser name _ := h.deleteUser name
  userNames := h.userNames
  ensureProject name _ := h.ensureProject name
  projects := h.projects
  objects := h.objects
  close _ := h.close

theorem run_makes (h : storage.StepsMake op P) : (storage.run gate op).run.Makes P :=
  h.own.run_makes

end Storage

end Makes

/-! ### Safety of an action -/

/-- An action is safe, and what it promises of an answer holds from then on. Nothing is promised of
an error. -/
structure Sure {ι : Type} (m : Protocol ι σ ε Call Reply α) (g : Regime σ) (i : ι)
    (post : β → σ → Prop) (x : Action Call Reply β) (s : σ) : Prop where
  /-- It is safe as a program. -/
  safe : Safe m g i (fun r t => ∀ b, r = .ok b → post b t) x.run s

namespace Sure

variable {ι : Type} {m : Protocol ι σ ε Call Reply α} {g : Regime σ} {i : ι} {s : σ}
  {post : β → σ → Prop} {post' : γ → σ → Prop}

theorem pure {b : β} (h : ∀ t, g.valid t → g.grows s t → post b t) :
    Sure m g i post (Pure.pure b) s :=
  ⟨fun t hv ht _ hb => Except.ok.inj hb ▸ h t hv ht⟩

/-- What has ended with an error promises nothing. -/
theorem safe_error (e : Error) :
    Safe m g i (fun (r : Except Error β) t => ∀ b, r = .ok b → post b t) (.done (.error e)) s :=
  fun _ _ _ _ hb => absurd hb (by simp)

theorem throw (e : Error) : Sure m g i post (MonadExcept.throw e) s := ⟨safe_error e⟩

theorem lift (x : Except Error β) : Sure m g i (fun _ _ => True) (liftM x) s :=
  ⟨fun _ _ _ _ _ => trivial⟩

theorem weaken {x : Action Call Reply β} {post' : β → σ → Prop} (h : Sure m g i post x s)
    (hpost : ∀ b t, g.valid t → post b t → post' b t) : Sure m g i post' x s :=
  ⟨Safe.weaken h.safe fun _ t hv hr b hb => hpost b t hv (hr b hb)⟩

/-- What an action leaves has grown from where it began. -/
theorem remember {x : Action Call Reply β} (h : Sure m g i post x s) :
    Sure m g i (fun b t => post b t ∧ g.grows s t) x s :=
  ⟨Safe.weaken (Safe.remember h.safe) fun _ _ _ hr b hb => ⟨hr.1 b hb, hr.2⟩⟩

/-- An action and what follows it: its promise holds from every state in which that can begin. -/
theorem bind {x : Action Call Reply β} {f : β → Action Call Reply γ} (h : Sure m g i post x s)
    (hf : ∀ b t, g.valid t → g.grows s t → (∀ u, g.valid u → g.grows t u → post b u) →
      Sure m g i post' (f b) t) : Sure m g i post' (x >>= f) s := by
  refine ⟨Safe.bind (Safe.lasting h.safe) fun r t hv ht hr => ?_⟩
  cases r with
  | ok b => exact (hf b t hv ht fun u hu hg => hr u hu hg b rfl).safe
  | error e => exact safe_error e

/-- An action of whose answer nothing needs to be known. -/
theorem before {x : Action Call Reply β} {f : β → Action Call Reply γ} (h : Sure m g i post x s)
    (hf : ∀ b t, Sure m g i post' (f b) t) : Sure m g i post' (x >>= f) s :=
  bind h fun b t _ _ _ => hf b t

/-- An action and what is made of its answer. -/
theorem map {x : Action Call Reply β} {f : β → γ} (h : Sure m g i post x s)
    (hf : ∀ b t, post b t → post' (f b) t) :
    Sure m g i post' (x >>= fun b => Pure.pure (f b)) s :=
  bind h fun b _ _ _ hb => pure fun u hu hg => hf b u (hb u hu hg)

/-- An action of which nothing is promised, and what is made of its answer. -/
theorem silent {x : Action Call Reply β} {f : β → γ} (h : Sure m g i post x s) :
    Sure m g i (fun _ _ => True) (x >>= fun b => Pure.pure (f b)) s :=
  h.map fun _ _ _ => trivial

/-- A record that an action has found and that has to be there. -/
theorem require {x : Action Call Reply (Option Object)} {post : Object → σ → Prop}
    (h : Sure m g i (fun found t => ∀ o, found = some o → post o t) x s) (oid : String) :
    Sure m g i post (x >>= Storage.require oid) s := by
  refine bind h fun found t _ _ hfound => ?_
  cases found with
  | none => exact throw _
  | some o => exact pure fun u hu hg => hfound u hu hg o rfl

/-- An action is safe if calls of the kind that it makes always are. -/
theorem of_makes {P : Call → Prop}
    (hstep : ∀ c t, P c → g.valid t → g.valid (m.serve i t c).2 ∧ g.grows t (m.serve i t c).2)
    {x : Action Call Reply β} (hx : x.run.Makes P) : Sure m g i (fun _ _ => True) x s :=
  ⟨Safe.weaken (Safe.of_makes hstep hx) fun _ _ _ _ _ _ => trivial⟩

theorem authorize {gate : Gate}
    {lookup : String → Program Call Reply (Except Error (Option String))}
    (h : ∀ user t, Safe m g i (fun _ _ => True) (lookup user) t) (header : String) :
    Sure m g i (fun _ _ => True) (gate.authorize lookup header) s := by
  have hcheck : Safe m g i (fun _ _ => True) (gate.check lookup header) s := by
    unfold Gate.check
    cases gate with
    | everyone => exact fun _ _ _ => trivial
    | external accepts => exact fun _ _ _ => trivial
    | internal =>
      cases Credential.parseBasic header with
      | error why => exact fun _ _ _ => trivial
      | ok login => exact Safe.bind (h login.user s) fun _ _ _ _ _ _ _ _ => trivial
  exact ⟨Safe.bind hcheck fun _ _ _ _ _ _ _ _ _ _ => trivial⟩

end Sure

/-! ### What an operation promises -/

/-- What steps promise of the objects that they find, in the state where they end and from then
on. -/
structure Promise (σ : Type) where
  /-- Of the object that a look-up of an id finds. -/
  found : String → Object → σ → Prop := fun _ _ _ => True
  /-- Of the object that a registration finds or makes. -/
  registered : Request → Object → σ → Prop := fun _ _ _ => True
  /-- Of the object that a commitment finds. -/
  committed : Request → Object → σ → Prop := fun _ _ _ => True
  /-- Of a list of the committed objects. -/
  listed : List Object → σ → Prop := fun _ _ => True

/-- What an operation then promises of its answer. -/
def Promise.Kept (p : Promise σ) : Operation → Answer → σ → Prop
  | .get r, a, s => ∃ o, a = .object o ∧ o.existing = true ∧ p.found r.oid o s
  | .getPending r, a, s => ∃ o, a = .object o ∧ p.found r.oid o s
  | .put r, a, s => ∃ o, a = .object o ∧ p.registered r o s
  | .commit r, a, s => ∃ o, a = .object o ∧ p.committed r o s
  | .objects, a, s => ∃ os, a = .objects os ∧ p.listed os s
  | _, _, _ => True

namespace Storage

variable {m : Protocol Operation σ ε Call Reply α} {g : Regime σ} {op : Operation} {gate : Gate}
  {p : Promise σ} {storage : Storage Call Reply}

/-- The steps that an operation takes are safe and keep their promise. -/
structure StepsKeep (storage : Storage Call Reply) (m : Protocol Operation σ ε Call Reply α)
    (g : Regime σ) (op : Operation) (p : Promise σ) : Prop where
  passwordHash : ∀ user s, Safe m g op (fun _ _ => True) (storage.passwordHash user) s
  find : ∀ oid s, Sure m g op (fun found t => ∀ o, found = some o → p.found oid o t)
    (storage.find oid) s
  register : ∀ r s, op = .put r →
    Sure m g op (fun found t => ∀ o, found = some o → p.registered r o t) (storage.register r) s
  commit : ∀ r s, op = .commit r →
    Sure m g op (fun found t => ∀ o, found = some o → p.committed r o t) (storage.commit r.oid) s
  insertUser : ∀ name hash s, Sure m g op (fun _ _ => True) (storage.insertUser name hash) s
  deleteUser : ∀ name s, Sure m g op (fun _ _ => True) (storage.deleteUser name) s
  userNames : ∀ s, Sure m g op (fun _ _ => True) storage.userNames s
  ensureProject : ∀ name s, Sure m g op (fun _ _ => True) (storage.ensureProject name) s
  projects : ∀ s, Sure m g op (fun _ _ => True) storage.projects s
  objects : ∀ s, op = .objects → Sure m g op p.listed storage.objects s
  close : ∀ s, Sure m g op (fun _ _ => True) storage.close s

/-- Steps are safe if calls of the kind that they make always are. -/
theorem StepsMake.keep {P : Call → Prop} (h : storage.StepsMake op P)
    (hstep : ∀ c t, P c → g.valid t → g.valid (m.serve op t c).2 ∧ g.grows t (m.serve op t c).2) :
    storage.StepsKeep m g op {} where
  passwordHash user _ := Safe.of_makes hstep (h.passwordHash user)
  find oid _ := (Sure.of_makes hstep (h.find oid)).weaken fun _ _ _ _ _ _ => trivial
  register r _ hop := (Sure.of_makes hstep (h.register r hop)).weaken fun _ _ _ _ _ _ => trivial
  commit r _ hop := (Sure.of_makes hstep (h.commit r hop)).weaken fun _ _ _ _ _ _ => trivial
  insertUser name hash _ := Sure.of_makes hstep (h.insertUser name hash)
  deleteUser name _ := Sure.of_makes hstep (h.deleteUser name)
  userNames _ := Sure.of_makes hstep h.userNames
  ensureProject name _ := Sure.of_makes hstep (h.ensureProject name)
  projects _ := Sure.of_makes hstep h.projects
  objects _ _ := Sure.of_makes hstep h.objects
  close _ := Sure.of_makes hstep h.close

/-- **An operation keeps what its steps promise.** -/
theorem run_keeps (h : storage.StepsKeep m g op p) (s : σ) :
    Sure m g op (p.Kept op) (storage.run gate op) s := by
  have hpass : ∀ (r : Request) s, Sure m g op (fun _ _ => True) (storage.authorize gate r) s :=
    fun r _ => Sure.authorize h.passwordHash r.authorization
  cases op with
  | get r =>
    have hget : Sure m g (.get r) (fun o t => o.existing = true ∧ p.found r.oid o t)
        (storage.get gate r) s := by
      refine Sure.before (hpass r s) fun _ t => ?_
      refine Sure.bind (h.find r.oid t) fun found u _ _ hfound => ?_
      cases found with
      | none => exact Sure.throw _
      | some o =>
        have hrequire : Sure m g (.get r) (fun o' _ => o' = o) (require r.oid (some o)) u :=
          Sure.pure fun _ _ _ => rfl
        refine Sure.bind hrequire fun o' v hv hgv ho => ?_
        obtain rfl := ho v hv (g.refl v)
        split
        · rename_i hex
          exact Sure.pure fun x hx hgx => ⟨hex, hfound x hx (g.trans hgv hgx) o' rfl⟩
        · exact Sure.throw _
    exact Sure.map hget fun o _ ho => ⟨o, rfl, ho⟩
  | getPending r =>
    refine Sure.map (Sure.before (hpass r s) fun _ t => ?_) fun o _ ho => ⟨o, rfl, ho⟩
    exact Sure.require (h.find r.oid t) r.oid
  | put r =>
    refine Sure.map (Sure.before (hpass r s) fun _ t => ?_) fun o _ ho => ⟨o, rfl, ho⟩
    refine Sure.before (Sure.lift r.validate) fun _ u => ?_
    exact Sure.require (h.register r u rfl) r.oid
  | commit r =>
    refine Sure.map (Sure.before (hpass r s) fun _ t => ?_) fun o _ ho => ⟨o, rfl, ho⟩
    exact Sure.require (h.commit r t rfl) r.oid
  | addUser name password salt =>
    have hadd : Sure m g (.addUser name password salt) (fun _ _ => True)
        (storage.addUser gate name password salt) s := by
      refine Sure.before (Sure.lift _) fun _ _ => Sure.before (Sure.lift _) fun _ t => ?_
      have hfind : Sure m g (.addUser name password salt) (fun _ _ => True)
          (ExceptT.mk (storage.passwordHash name)) t :=
        ⟨(h.passwordHash name t).weaken fun _ _ _ _ _ _ => trivial⟩
      refine Sure.before hfind fun found u => ?_
      cases found with
      | some hash => exact Sure.pure fun _ _ _ => trivial
      | none => exact h.insertUser name _ u
    exact Sure.silent hadd
  | deleteUser name =>
    exact Sure.silent (Sure.before (Sure.lift _) fun _ t => h.deleteUser name t)
  | users =>
    exact Sure.silent (Sure.before (Sure.lift _) fun _ t => Sure.silent (h.userNames t))
  | addProject name =>
    exact Sure.silent (Sure.before (Sure.lift _) fun _ t => h.ensureProject name t)
  | projects => exact Sure.silent (h.projects s)
  | objects => exact Sure.map (h.objects s rfl) fun os _ hos => ⟨os, rfl, hos⟩
  | close => exact Sure.silent (h.close s)

end Storage

end Depot.Registry
