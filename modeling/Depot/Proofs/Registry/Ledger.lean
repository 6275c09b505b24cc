import Depot.Proofs.Registry.Evaluation
import Depot.Proofs.Registry.Listing
import Depot.Proofs.Table

/-!
# The ledger

What a registry is, whatever keeps it: a record for each object, the names of the projects, and the
users with their password hashes. An operation is performed on the ledger in one piece. A kind of
storage implements the ledger if its steps do to what it keeps what the ledger's do to the ledger;
then all its operations answer as the ledger's do.

Headlines
* **`Implements.perform`**: an operation over storage that implements the ledger has the outcome of
  the ledger's operation, and what is kept then tells of the ledger after it.
-/

namespace Depot

namespace Registry

open Credential (Gate)

/-- The names of a set and of a list. -/
theorem contains_foldl_add (names : List String) (s : Names) (x : String) :
    (names.foldl Names.add s).contains x = true ↔ x ∈ names ∨ s.contains x = true := by
  induction names generalizing s with
  | nil => simp
  | cons name names ih =>
    rw [List.foldl_cons, ih, Names.contains_add, Bool.or_eq_true, beq_iff_eq, List.mem_cons]
    tauto

/-- What is recorded of an object. -/
structure Entry where
  /-- The length of its content. -/
  size : Int
  /-- The repository that it was registered with; empty for none. -/
  repo : String
  /-- Whether it is committed. -/
  existing : Bool
deriving DecidableEq, Repr

namespace Entry

/-- The projects of an object. -/
def projects (e : Entry) : List String := Request.projects { repo := e.repo }

theorem ascending_projects (e : Entry) : Ascending e.projects := by
  unfold Entry.projects Request.projects
  split
  · exact List.Pairwise.nil
  · exact List.pairwise_singleton _ _

/-- The object of an entry. -/
def object (oid : String) (e : Entry) : Object := ⟨oid, e.size, e.projects, e.existing⟩

end Entry

/-- A record for each object, the names of the projects, and the users. Every project of a record is
one of the projects. -/
structure Ledger where
  /-- The records by the ids of their objects. -/
  records : Table String Entry := ∅
  /-- The names of the projects. -/
  projects : Names := ∅
  /-- The users with their password hashes. -/
  users : Table String String := ∅
  /-- The projects of a record are there. -/
  listed : ∀ {oid e}, records.get? oid = some e → ∀ name ∈ e.projects,
    projects.contains name = true

namespace Ledger

/-- The ledger of a new registry. -/
def empty : Ledger where
  listed h := absurd h (by simp [EmptyCollection.emptyCollection])

/-- The record of an object. -/
def find (l : Ledger) (oid : String) : Option Object := (l.records.get? oid).map (Entry.object oid)

theorem find_of_some {l : Ledger} {oid : String} {e : Entry} (h : l.records.get? oid = some e) :
    l.find oid = some (e.object oid) := by
  unfold find
  rw [h]
  rfl

theorem find_of_none {l : Ledger} {oid : String} (h : l.records.get? oid = none) :
    l.find oid = none := by
  unfold find
  rw [h]
  rfl

/-- Records a pending object and its project, unless there is a record. -/
def register (l : Ledger) (r : Request) : Ledger :=
  if l.records.contains r.oid then l
  else
    { records := l.records.insert r.oid ⟨r.size, r.repo, false⟩
      projects := r.projects.foldl Names.add l.projects
      users := l.users
      listed := by
        intro oid e he name hname
        rw [contains_foldl_add]
        rw [Table.get?_insert] at he
        split at he
        · cases he
          exact Or.inl hname
        · exact Or.inr (l.listed he name hname) }

/-- Marks a recorded object as committed. -/
def commit (l : Ledger) (oid : String) : Ledger :=
  { l with
    records := l.records.modify oid fun e => { e with existing := true }
    listed := by
      intro x e he name hname
      rw [Table.get?_modify] at he
      split at he
      · obtain ⟨e', he', rfl⟩ := Option.map_eq_some_iff.mp he
        exact l.listed he' name hname
      · exact l.listed he name hname }

/-- Without a record there is nothing to mark. -/
theorem commit_of_none {l : Ledger} {oid : String} (h : l.records.get? oid = none) :
    l.commit oid = l := by
  have hsame : (l.records.modify oid fun e => { e with existing := true }) = l.records := by
    unfold Table.modify
    rw [h]
  obtain ⟨records, projects, users, listed⟩ := l
  simpa [commit] using hsame

section

variable {l : Ledger} {r : Request} (h : l.records.get? r.oid = none)
include h

theorem records_register :
    (l.register r).records = l.records.insert r.oid ⟨r.size, r.repo, false⟩ := by
  unfold register
  rw [Table.contains_eq_false.mpr h]
  rfl

theorem projects_register : (l.register r).projects = r.projects.foldl Names.add l.projects := by
  unfold register
  rw [Table.contains_eq_false.mpr h]
  rfl

theorem users_register : (l.register r).users = l.users := by
  unfold register
  rw [Table.contains_eq_false.mpr h]
  rfl

/-- What is registered is found. -/
theorem find_register : (l.register r).find r.oid = some r.pendingObject := by
  have he : (l.register r).records.get? r.oid = some ⟨r.size, r.repo, false⟩ := by
    rw [records_register h, Table.get?_insert, if_pos rfl]
  rw [find_of_some he]
  rfl

end

/-- Where there is a record a registration changes nothing. -/
theorem register_of_some {l : Ledger} {r : Request} {e : Entry}
    (h : l.records.get? r.oid = some e) : l.register r = l := by
  unfold register
  exact if_pos (Table.contains_iff.mpr ⟨e, h⟩)

/-- Adds a project unless there is one of that name. -/
def addProject (l : Ledger) (name : String) : Ledger :=
  { l with
    projects := l.projects.add name
    listed := by
      intro oid e he x hx
      rw [Names.contains_add, Bool.or_eq_true]
      exact Or.inr (l.listed he x hx) }

/-- Adds a user unless there is one of that name. -/
def addUser (l : Ledger) (name hash : String) : Ledger :=
  { l with users := if l.users.contains name then l.users else l.users.insert name hash }

/-- Deletes a user. -/
def deleteUser (l : Ledger) (name : String) : Ledger :=
  { l with users := l.users.erase name }

/-- The committed objects of a project. -/
def oidsOf (l : Ledger) (name : String) : List String :=
  (l.records.entries.filter fun e => e.2.existing && e.2.projects.contains name).map Prod.fst

theorem ascending_oidsOf (l : Ledger) (name : String) : Ascending (l.oidsOf name) :=
  Table.ascending_filter _ _

theorem mem_oidsOf {l : Ledger} {name oid : String} :
    oid ∈ l.oidsOf name ↔
      ∃ e, l.records.get? oid = some e ∧ e.existing = true ∧ name ∈ e.projects := by
  unfold oidsOf
  rw [Table.mem_filter_keys]
  simp only [Bool.and_eq_true, List.contains_iff_mem]

/-- A project that is not there has no objects. -/
theorem oidsOf_of_not_contains {l : Ledger} {name : String}
    (h : l.projects.contains name = false) : l.oidsOf name = [] := by
  refine List.eq_nil_iff_forall_not_mem.mpr fun oid hoid => ?_
  obtain ⟨e, he, -, hname⟩ := mem_oidsOf.mp hoid
  rw [l.listed he name hname] at h
  exact absurd h (by simp)

/-- What is registered is not committed yet. -/
theorem oidsOf_register {l : Ledger} {r : Request} (h : l.records.get? r.oid = none)
    (name : String) : (l.register r).oidsOf name = l.oidsOf name := by
  refine (ascending_oidsOf _ name).ext (ascending_oidsOf l name) fun oid => ?_
  rw [mem_oidsOf, mem_oidsOf, records_register h, Table.get?_insert]
  split
  · rename_i hoid
    rw [hoid, h]
    simp
  · rfl

/-- The record of a committed object. -/
theorem get?_commit {l : Ledger} {oid : String} {e : Entry} (he : l.records.get? oid = some e)
    (x : String) : (l.commit oid).records.get? x =
      if x = oid then some { e with existing := true } else l.records.get? x := by
  unfold commit
  rw [Table.get?_modify]
  split
  · rename_i hx
    rw [hx, he]
    rfl
  · rfl

/-- What is committed joins the objects of its projects. -/
theorem oidsOf_commit {l : Ledger} {oid : String} {e : Entry} (he : l.records.get? oid = some e)
    (name : String) : (l.commit oid).oidsOf name =
      if name ∈ e.projects then (insertOid (l.oidsOf name) oid).2 else l.oidsOf name := by
  obtain ⟨hascending, hmem⟩ := insertOid_spec (ascending_oidsOf l name) oid
  split
  · rename_i hname
    refine (ascending_oidsOf _ name).ext hascending fun x => ?_
    rw [hmem, mem_oidsOf, mem_oidsOf, get?_commit he]
    split
    · rename_i hx
      exact iff_of_true ⟨_, rfl, rfl, hname⟩ (Or.inl hx)
    · rename_i hx
      rw [or_iff_right hx]
  · rename_i hname
    refine (ascending_oidsOf _ name).ext (ascending_oidsOf l name) fun x => ?_
    rw [mem_oidsOf, mem_oidsOf, get?_commit he]
    split
    · rename_i hx
      rw [hx, he]
      constructor
      · rintro ⟨e', he', -, hin⟩
        cases he'
        exact absurd hin hname
      · rintro ⟨e', he', -, hin⟩
        cases he'
        exact absurd hin hname
    · rfl

/-- The projects with their committed objects. -/
def projectList (l : Ledger) : List Project :=
  l.projects.toList.map fun name => ⟨name, l.oidsOf name⟩

/-- The committed objects. -/
def objectList (l : Ledger) : List Object :=
  (l.records.entries.filter fun e => e.2.existing).map fun e => e.2.object e.1

/-- Whether the caller with a request may pass. -/
def passes (l : Ledger) (gate : Gate) (r : Request) : Except Error Unit :=
  (gate.verdict l.users.get? r.authorization).mapError .auth

/-- A record that has to be there. -/
def demand (l : Ledger) (oid : String) : Except Error Object :=
  match l.find oid with
  | some o => .ok o
  | none => .error (.notFound (.object oid))

/-- The outcome of what is allowed or not, and the ledger after it. -/
def allowed (l : Ledger) (may : Except Error Unit) (outcome : Outcome × Ledger) :
    Outcome × Ledger :=
  match may with
  | .ok () => outcome
  | .error e => (.error e, l)

/-- The outcome of an operation, and the ledger after it. -/
def perform (gate : Gate) (l : Ledger) : Operation → Outcome × Ledger
  | .get r => l.allowed (l.passes gate r)
      ((do
        let o ← l.demand r.oid
        if o.existing then .ok (.object o) else .error (.notFound (.pending r.oid))), l)
  | .getPending r => l.allowed (l.passes gate r) ((l.demand r.oid).map .object, l)
  | .put r => l.allowed (l.passes gate r) <| l.allowed r.validate
      (((l.register r).demand r.oid).map .object, l.register r)
  | .commit r => l.allowed (l.passes gate r)
      (((l.commit r.oid).demand r.oid).map .object, l.commit r.oid)
  | .addUser name password salt =>
    l.allowed gate.requireAccounts <| l.allowed (requireName "user" name)
      (.ok .unit, l.addUser name (Credential.Password.hash salt password))
  | .deleteUser name => l.allowed gate.requireAccounts (.ok .unit, l.deleteUser name)
  | .users => l.allowed gate.requireAccounts (.ok (.users (l.users.keys.map User.mk)), l)
  | .addProject name => l.allowed (requireName "project" name) (.ok .unit, l.addProject name)
  | .projects => (.ok (.projects l.projectList), l)
  | .objects => (.ok (.objects l.objectList), l)
  | .close => (.ok .unit, l)

/-- The outcomes of operations one after another. -/
def performAll (gate : Gate) : Ledger → List Operation → List Outcome
  | _, [] => []
  | l, op :: rest => (l.perform gate op).1 :: performAll gate (l.perform gate op).2 rest

end Ledger

/-! ### Storage that implements the ledger -/

variable {Call σ α β : Type} {Reply : Call → Type} {service : Service σ Call Reply}

/-- An action succeeds with an answer and leaves a state of which something holds. -/
def Yields (service : Service σ Call Reply) (x : Action Call Reply α) (s : σ) (a : α)
    (post : σ → Prop) : Prop :=
  ∃ s', eval service x s = (.ok a, s') ∧ post s'

/-- The steps of storage do to what it keeps what those of the ledger do to the ledger: whenever
`keeps l s` tells that `s` keeps the ledger `l`, and `s` is ready for it. Of registrations this is
asked only where storage takes the request. -/
structure Implements (storage : Storage Call Reply) (service : Service σ Call Reply)
    (ready : σ → Prop) (takes : Request → Prop) (keeps : Ledger → σ → Prop) : Prop where
  passwordHash : ∀ {l s}, keeps l s → ∀ user,
    Program.run service (storage.passwordHash user) s = (.ok (l.users.get? user), s)
  find : ∀ {l s}, keeps l s → ready s → ∀ oid,
    eval service (storage.find oid) s = (.ok (l.find oid), s)
  register : ∀ {l s}, keeps l s → ready s → ∀ r, takes r →
    Yields service (storage.register r) s ((l.register r).find r.oid) (keeps (l.register r))
  commit : ∀ {l s}, keeps l s → ready s → ∀ oid,
    Yields service (storage.commit oid) s ((l.commit oid).find oid) (keeps (l.commit oid))
  insertUser : ∀ {l s}, keeps l s → ∀ name hash, l.users.get? name = none →
    Yields service (storage.insertUser name hash) s () (keeps (l.addUser name hash))
  deleteUser : ∀ {l s}, keeps l s → ∀ name,
    Yields service (storage.deleteUser name) s () (keeps (l.deleteUser name))
  userNames : ∀ {l s}, keeps l s →
    eval service storage.userNames s = (.ok l.users.keys, s)
  ensureProject : ∀ {l s}, keeps l s → ∀ name,
    Yields service (storage.ensureProject name) s () (keeps (l.addProject name))
  projects : ∀ {l s}, keeps l s → ready s →
    eval service storage.projects s = (.ok l.projectList, s)
  objects : ∀ {l s}, keeps l s → ready s →
    eval service storage.objects s = (.ok l.objectList, s)

/-- What comes of an action is what comes of the ledger. -/
def Agrees (keeps : Ledger → σ → Prop) (expected : Outcome × Ledger) (found : Outcome × σ) : Prop :=
  found.1 = expected.1 ∧ keeps expected.2 found.2

section

variable {keeps : Ledger → σ → Prop} {l : Ledger} {s : σ}

/-- A check before an action that changes nothing itself. -/
theorem agrees_allowed {may : Except Error Unit} {x : Action Call Reply Unit}
    {f : Unit → Action Call Reply Answer} {expected : Outcome × Ledger} (hl : keeps l s)
    (hx : eval service x s = (may, s))
    (hf : may = .ok () → Agrees keeps expected (eval service (f ()) s)) :
    Agrees keeps (l.allowed may expected) (eval service (x >>= f) s) := by
  cases may with
  | ok u =>
    rw [eval_bind_of_ok hx]
    exact hf rfl
  | error e =>
    rw [eval_bind_of_error hx]
    exact ⟨rfl, hl⟩

theorem agrees_of_yields {x : Action Call Reply α} {f : α → Action Call Reply Answer}
    {a : α} {outcome : Outcome} {l' : Ledger} (h : Yields service x s a (keeps l'))
    (hf : ∀ s', eval service (f a) s' = (outcome, s')) :
    Agrees keeps (outcome, l') (eval service (x >>= f) s) := by
  obtain ⟨s', hx, hl⟩ := h
  rw [eval_bind_of_ok hx, hf]
  exact ⟨rfl, hl⟩

theorem eval_require (l : Ledger) (oid : String) (s : σ) :
    eval service (Storage.require oid (l.find oid) : Action Call Reply Object) s =
      (l.demand oid, s) := by
  unfold Storage.require Ledger.demand
  cases l.find oid <;> rfl

/-- A step that gives a record, which has to be there. -/
theorem agrees_demand {x : Action Call Reply (Option Object)} {l' : Ledger} {oid : String}
    (h : Yields service x s (l'.find oid) (keeps l')) :
    Agrees keeps ((l'.demand oid).map .object, l')
      (eval service ((x >>= fun found => Storage.require oid found) >>= fun o =>
        pure (.object o)) s) := by
  obtain ⟨s', hx, hl'⟩ := h
  rw [bind_assoc, eval_bind_of_ok hx, eval_bind, eval_require]
  cases l'.demand oid <;> exact ⟨rfl, hl'⟩

/-- A record that has to be there and to be committed. -/
theorem agrees_committed (hl : keeps l s) (may : Except Error Object) (oid : String) :
    Agrees keeps
      ((do
        let o ← may
        if o.existing then .ok (.object o) else .error (.notFound (.pending oid))), l)
      (eval service ((liftM may >>= fun o =>
        if o.existing then return o else throw (.notFound (.pending oid))) >>= fun o =>
          (pure (.object o) : Action Call Reply Answer)) s) := by
  cases may with
  | error e => exact ⟨rfl, hl⟩
  | ok o =>
    show Agrees keeps (if o.existing = true then .ok (.object o)
      else .error (.notFound (.pending oid)), l)
      (eval service ((if o.existing = true then pure o else throw (.notFound (.pending oid)))
        >>= fun o => pure (.object o)) s)
    by_cases ho : o.existing = true
    · rw [if_pos ho, if_pos ho]
      exact ⟨rfl, hl⟩
    · rw [if_neg ho, if_neg ho]
      exact ⟨rfl, hl⟩

end

/-- **An operation over storage that implements the ledger agrees with the ledger's.** -/
theorem Implements.perform {storage : Storage Call Reply} {ready : σ → Prop}
    {takes : Request → Prop} {keeps : Ledger → σ → Prop}
    (h : Implements storage service ready takes keeps) (gate : Gate) {l : Ledger} {s : σ}
    (hl : keeps l s) (hs : ready s) {op : Operation} (hop : op ≠ .close)
    (htakes : ∀ r, op = .put r → takes r) :
    Agrees keeps (l.perform gate op) (storage.perform gate service s op) := by
  have hpass : ∀ r : Request, eval service (storage.authorize gate r) s = (l.passes gate r, s) :=
    fun r => eval_authorize (h.passwordHash hl) gate r.authorization
  have hfind : ∀ oid, Yields service (storage.find oid) s (l.find oid) (keeps l) :=
    fun oid => ⟨s, h.find hl hs oid, hl⟩
  cases op with
  | get r =>
    show Agrees _ _ (eval service (storage.get gate r >>= _) s)
    unfold Storage.get
    rw [bind_assoc]
    refine agrees_allowed hl (hpass r) fun _ => ?_
    have hrequire : eval service (storage.find r.oid >>= fun found =>
        Storage.require r.oid found >>= fun o =>
          if o.existing then return o else throw (.notFound (.pending r.oid))) s =
        eval service (liftM (l.demand r.oid) >>= fun o =>
          if o.existing then return o else throw (.notFound (.pending r.oid))) s := by
      rw [eval_bind_of_ok (h.find hl hs r.oid), eval_bind, eval_require, eval_bind, eval_lift]
    rw [eval_bind, hrequire, ← eval_bind]
    exact agrees_committed hl (l.demand r.oid) r.oid
  | getPending r =>
    show Agrees _ _ (eval service (storage.getPending gate r >>= _) s)
    unfold Storage.getPending
    rw [bind_assoc]
    exact agrees_allowed hl (hpass r) fun _ => agrees_demand (hfind r.oid)
  | put r =>
    show Agrees _ _ (eval service (storage.put gate r >>= _) s)
    unfold Storage.put
    rw [bind_assoc]
    refine agrees_allowed hl (hpass r) fun _ => ?_
    rw [bind_assoc]
    exact agrees_allowed hl (eval_lift r.validate s) fun _ =>
      agrees_demand (h.register hl hs r (htakes r rfl))
  | commit r =>
    show Agrees _ _ (eval service (storage.commitObject gate r >>= _) s)
    unfold Storage.commitObject
    rw [bind_assoc]
    exact agrees_allowed hl (hpass r) fun _ => agrees_demand (h.commit hl hs r.oid)
  | addUser name password salt =>
    show Agrees _ _ (eval service (storage.addUser gate name password salt >>= _) s)
    unfold Storage.addUser
    rw [bind_assoc]
    refine agrees_allowed hl (eval_lift gate.requireAccounts s) fun _ => ?_
    rw [bind_assoc]
    refine agrees_allowed hl (eval_lift (requireName "user" name) s) fun _ => ?_
    have hread : eval service (ExceptT.mk (storage.passwordHash name)) s =
        (.ok (l.users.get? name), s) := h.passwordHash hl name
    rw [bind_assoc, eval_bind_of_ok hread]
    cases hname : l.users.get? name with
    | some hash =>
      refine ⟨rfl, ?_⟩
      have hsame : l.addUser name (Credential.Password.hash salt password) = l := by
        unfold Ledger.addUser Table.contains
        rw [hname]
        rfl
      rw [hsame]
      exact hl
    | none => exact agrees_of_yields (h.insertUser hl name _ hname) fun _ => rfl
  | deleteUser name =>
    show Agrees _ _ (eval service (storage.removeUser gate name >>= _) s)
    unfold Storage.removeUser
    rw [bind_assoc]
    refine agrees_allowed hl (eval_lift gate.requireAccounts s) fun _ => ?_
    exact agrees_of_yields (h.deleteUser hl name) fun _ => rfl
  | users =>
    show Agrees _ _ (eval service (storage.users gate >>= _) s)
    unfold Storage.users
    rw [bind_assoc]
    refine agrees_allowed hl (eval_lift gate.requireAccounts s) fun _ => ?_
    rw [bind_assoc, eval_bind_of_ok (h.userNames hl)]
    exact ⟨rfl, hl⟩
  | addProject name =>
    show Agrees _ _ (eval service (storage.addProject name >>= _) s)
    unfold Storage.addProject
    rw [bind_assoc]
    refine agrees_allowed hl (eval_lift (requireName "project" name) s) fun _ => ?_
    exact agrees_of_yields (h.ensureProject hl name) fun _ => rfl
  | projects =>
    show Agrees _ _ (eval service (storage.projects >>= _) s)
    rw [eval_bind_of_ok (h.projects hl hs)]
    exact ⟨rfl, hl⟩
  | objects =>
    show Agrees _ _ (eval service (storage.objects >>= _) s)
    rw [eval_bind_of_ok (h.objects hl hs)]
    exact ⟨rfl, hl⟩
  | close => exact absurd rfl hop

end Registry

end Depot
