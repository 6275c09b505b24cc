import Depot.Proofs.Registry.Ledger
import Depot.Proofs.Registry.Record
import Depot.Proofs.Transactions

/-!
# An embedded database keeps the ledger

Embedded tables tell of a ledger by a stored record for each object and one for each project, which
lists the committed objects of that project. A stored record is read back if it takes less than four
gibibytes, beyond which its lengths are not written in full.

Headlines
* **`implements`**: the transactions of an open embedded database implement the ledger while its
  records can be read back and the sizes that are registered have 64 bits.
-/

namespace Depot.Embedded

open Registry (Entry Implements Ledger Object Project Request Yields eval eval_bind_of_ok insertOid)

/-- A stored record is short enough to be read back. -/
def Short (b : Bytes) : Prop := b.length < 256 ^ 4

instance (b : Bytes) : Decidable (Short b) := inferInstanceAs (Decidable (b.length < 256 ^ 4))

/-- All stored records are short enough to be read back. -/
structure Room (t : Tables) : Prop where
  objects : ∀ {oid b}, t.objects.get? oid = some b → Short b
  projects : ∀ {name b}, t.projects.get? name = some b → Short b

instance (t : Tables) : Decidable (Room t) :=
  decidable_of_iff ((∀ e ∈ t.objects.entries, Short e.2) ∧ ∀ e ∈ t.projects.entries, Short e.2)
    ⟨fun h => ⟨fun hget => h.1 _ (Table.get?_eq_some_iff.mp hget),
      fun hget => h.2 _ (Table.get?_eq_some_iff.mp hget)⟩,
    fun h => ⟨fun _ he => h.objects (Table.get?_eq_some_iff.mpr he),
      fun _ he => h.projects (Table.get?_eq_some_iff.mpr he)⟩⟩

/-- The stored record of an object. -/
def objectRecord (oid : String) (e : Entry) : Bytes := (e.object oid).encode

/-- The stored record of a project with objects. -/
def projectRecord (name : String) (oids : List String) : Bytes := (⟨name, oids⟩ : Project).encode

/-- The tables tell of a ledger. -/
structure Tells (l : Ledger) (t : Tables) : Prop where
  users : t.users = l.users
  objects : t.objects = l.records.mapEntries objectRecord
  projects : t.projects = l.projects.mapEntries fun name _ => projectRecord name (l.oidsOf name)
  sized : ∀ {oid e}, l.records.get? oid = some e → Text.fitsInt64 e.size = true

/-- An open database whose tables tell of a ledger. -/
def Keeps (l : Ledger) (d : Database) : Prop := d.closed = false ∧ Tells l d.tables

section

variable {l : Ledger} {t : Tables}

theorem Tells.object (h : Tells l t) (oid : String) :
    t.objects.get? oid = (l.records.get? oid).map (objectRecord oid) := by
  rw [h.objects, Table.get?_mapEntries]

theorem Tells.project (h : Tells l t) (name : String) :
    t.projects.get? name =
      (l.projects.get? name).map fun _ => projectRecord name (l.oidsOf name) := by
  rw [h.projects, Table.get?_mapEntries]

/-! ### Reading -/

/-- The record of an object is read back. -/
theorem Tells.readObject (h : Tells l t) (hroom : Room t) {oid : String} {e : Entry}
    (he : l.records.get? oid = some e) :
    readObject (objectRecord oid e) = .ok (e.object oid) := by
  have hget : t.objects.get? oid = some (objectRecord oid e) := by
    rw [h.object, he]
    rfl
  have hdecode : Object.decode? (objectRecord oid e) = some (e.object oid) :=
    Object.decode?_encode (h.sized he) (hroom.objects hget)
  unfold Embedded.readObject
  rw [hdecode]

/-- The record of a project is read back. -/
theorem readProject_projectRecord {name : String} {oids : List String}
    (h : Short (projectRecord name oids)) :
    readProject (projectRecord name oids) = .ok ⟨name, oids⟩ := by
  have hdecode : Project.decode? (projectRecord name oids) = some ⟨name, oids⟩ :=
    Project.decode?_encode h
  unfold readProject
  rw [hdecode]

theorem Tells.short_project (h : Tells l t) (hroom : Room t) {name : String}
    (hname : l.projects.contains name = true) : Short (projectRecord name (l.oidsOf name)) := by
  obtain ⟨u, hu⟩ := Table.contains_iff.mp hname
  have hget : t.projects.get? name = some (projectRecord name (l.oidsOf name)) := by
    rw [h.project, hu]
    rfl
  exact hroom.projects hget

/-- A look-up finds the record. -/
theorem Tells.found (h : Tells l t) (hroom : Room t) (oid : String) :
    t.findObject oid = .ok (l.find oid) := by
  unfold Tables.findObject Ledger.find
  rw [h.object]
  cases he : l.records.get? oid with
  | none => rfl
  | some e =>
    show (Embedded.readObject (objectRecord oid e)).map some = _
    rw [h.readObject hroom he]
    rfl

end

/-- Reading the stored forms of what can be read back. -/
theorem mapM_map_ok {α β γ ε : Type} {read : β → Except ε γ} {store : α → β} {f : α → γ}
    {l : List α} (h : ∀ a ∈ l, read (store a) = .ok (f a)) :
    (l.map store).mapM read = .ok (l.map f) := by
  induction l with
  | nil => rfl
  | cons a l ih =>
    rw [List.map_cons, List.mapM_cons, h a List.mem_cons_self,
      ih fun b hb => h b (List.mem_cons_of_mem a hb)]
    rfl

/-! ### Projects -/

section

variable {t : Tables}

/-- Making a project changes only the projects, and those only if it was not there. -/
theorem ensureProject_spec (t : Tables) (name : String) :
    (t.ensureProject name).objects = t.objects ∧ (t.ensureProject name).users = t.users ∧
      ∀ x, (t.ensureProject name).projects.get? x =
        if x = name ∧ t.projects.get? x = none then some (projectRecord x [])
        else t.projects.get? x := by
  unfold Tables.ensureProject
  split
  · rename_i hthere
    refine ⟨rfl, rfl, fun x => (if_neg ?_).symm⟩
    rintro ⟨rfl, hnone⟩
    rw [Table.contains_eq_false.mpr hnone] at hthere
    exact absurd hthere (by simp)
  · rename_i hnew
    have hnone : t.projects.get? name = none :=
      Table.contains_eq_false.mp (Bool.eq_false_of_not_eq_true hnew)
    refine ⟨rfl, rfl, fun x => ?_⟩
    rw [Table.get?_insert]
    by_cases hx : x = name
    · subst hx
      rw [if_pos rfl, if_pos ⟨rfl, hnone⟩]
      rfl
    · rw [if_neg hx, if_neg fun hk => hx hk.1]

/-- Making projects one after another. -/
theorem foldl_ensureProject (names : List String) (t : Tables) :
    (names.foldl Tables.ensureProject t).objects = t.objects ∧
      (names.foldl Tables.ensureProject t).users = t.users ∧
      ∀ x, (names.foldl Tables.ensureProject t).projects.get? x =
        if x ∈ names ∧ t.projects.get? x = none then some (projectRecord x [])
        else t.projects.get? x := by
  induction names generalizing t with
  | nil => exact ⟨rfl, rfl, by simp⟩
  | cons name names ih =>
    obtain ⟨hobjects, husers, hprojects⟩ := ensureProject_spec t name
    obtain ⟨hobjects', husers', hprojects'⟩ := ih (t.ensureProject name)
    refine ⟨hobjects'.trans hobjects, husers'.trans husers, fun x => ?_⟩
    rw [List.foldl_cons, hprojects', hprojects]
    by_cases hx : x = name
    · subst hx
      cases hget : t.projects.get? x <;> simp
    · simp [hx]

/-- Listing an object under a project whose record can be read. -/
theorem enlist_eval {projects : Table String Bytes} {oid name : String} {oids : List String}
    (hget : projects.get? name = some (projectRecord name oids))
    (hshort : Short (projectRecord name oids)) :
    Tables.enlist oid projects name =
      .ok (projects.insert name (projectRecord name (insertOid oids oid).2)) := by
  unfold Tables.enlist
  rw [hget]
  show (readProject (projectRecord name oids)).bind _ = _
  rw [readProject_projectRecord hshort]
  rfl

/-- Listing an object under projects one after another. -/
theorem foldlM_enlist (oid : String) {names : List String} (hnodup : names.Nodup)
    {projects : Table String Bytes} {oids : String → List String}
    (hnames : ∀ name ∈ names, projects.get? name = some (projectRecord name (oids name)) ∧
      Short (projectRecord name (oids name))) :
    ∃ after, names.foldlM (Tables.enlist oid) projects = .ok after ∧
      ∀ x, after.get? x =
        if x ∈ names then some (projectRecord x (insertOid (oids x) oid).2)
        else projects.get? x := by
  induction names generalizing projects with
  | nil => exact ⟨projects, rfl, by simp⟩
  | cons name names ih =>
    obtain ⟨hfresh, hnodup⟩ := List.nodup_cons.mp hnodup
    obtain ⟨hget, hshort⟩ := hnames name List.mem_cons_self
    have hrest : ∀ x ∈ names,
        (projects.insert name (projectRecord name (insertOid (oids name) oid).2)).get? x =
          some (projectRecord x (oids x)) ∧ Short (projectRecord x (oids x)) := by
      intro x hx
      obtain ⟨hgetx, hshortx⟩ := hnames x (List.mem_cons_of_mem name hx)
      have hne : x ≠ name := fun he => hfresh (he ▸ hx)
      exact ⟨by rw [Table.get?_insert, if_neg hne, hgetx], hshortx⟩
    obtain ⟨after, hafter, hview⟩ := ih hnodup hrest
    refine ⟨after, ?_, fun x => ?_⟩
    · rw [List.foldlM_cons, enlist_eval hget hshort]
      exact hafter
    · rw [hview, Table.get?_insert]
      by_cases hx : x = name
      · subst hx
        rw [if_neg hfresh, if_pos rfl, if_pos List.mem_cons_self]
      · simp [hx]

end

/-! ### Changes -/

section

variable {l : Ledger} {t : Tables}

/-- A registration of an object without a record. -/
theorem Tells.register_new (h : Tells l t) {r : Request} (hnone : l.records.get? r.oid = none)
    (hsize : Text.fitsInt64 r.size = true) :
    ∃ u, t.register r.pendingObject = .ok (r.pendingObject, u) ∧ Tells (l.register r) u := by
  have hfind : t.findObject r.oid = .ok none := by
    unfold Tables.findObject
    rw [h.object, hnone]
    rfl
  obtain ⟨hobjects, husers, hprojects⟩ := foldl_ensureProject r.projects
    { t with objects := t.objects.insert r.oid r.pendingObject.encode }
  refine ⟨r.projects.foldl Tables.ensureProject
    { t with objects := t.objects.insert r.oid r.pendingObject.encode }, ?_, ?_, ?_, ?_, ?_⟩
  · unfold Tables.register
    show (t.findObject r.oid).bind _ = _
    rw [hfind]
    rfl
  · rw [husers, Ledger.users_register hnone, h.users]
  · rw [hobjects, Ledger.records_register hnone, Table.mapEntries_insert, ← h.objects]
    rfl
  · rw [Table.eq_mapEntries_iff]
    intro name
    rw [hprojects, Ledger.oidsOf_register hnone, h.project, Ledger.projects_register hnone]
    have hboth := Registry.contains_foldl_add r.projects l.projects name
    cases hget : l.projects.get? name with
    | none =>
      rw [Ledger.oidsOf_of_not_contains (Table.contains_eq_false.mpr hget)]
      rw [Table.contains_eq_false.mpr hget, or_iff_left (by simp)] at hboth
      by_cases hname : name ∈ r.projects
      · obtain ⟨u, hu⟩ := Table.contains_iff.mp (hboth.mpr hname)
        rw [if_pos ⟨hname, rfl⟩, hu, Option.map_some]
      · rw [if_neg fun hk => hname hk.1,
          Table.contains_eq_false.mp (Bool.eq_false_of_not_eq_true fun hin => hname (hboth.mp hin)),
          Option.map_none]
    | some u =>
      obtain ⟨u', hu'⟩ := Table.contains_iff.mp
        (hboth.mpr (Or.inr (Table.contains_iff.mpr ⟨u, hget⟩)))
      rw [if_neg fun hk => absurd hk.2 (by simp), hu', Option.map_some]
  · intro oid e he
    rw [Ledger.records_register hnone, Table.get?_insert] at he
    split at he
    · cases he
      exact hsize
    · exact h.sized he

theorem Tells.register (h : Tells l t) (hroom : Room t) {r : Request}
    (hsize : Text.fitsInt64 r.size = true) :
    ∃ o u, t.register r.pendingObject = .ok (o, u) ∧ (l.register r).find r.oid = some o ∧
      Tells (l.register r) u := by
  cases he : l.records.get? r.oid with
  | none =>
    obtain ⟨u, hu, htells⟩ := h.register_new he hsize
    exact ⟨_, u, hu, Ledger.find_register he, htells⟩
  | some e =>
    have hfind := Ledger.find_of_some he
    refine ⟨e.object r.oid, t, ?_, ?_, ?_⟩
    · unfold Tables.register
      show (t.findObject r.oid).bind _ = _
      rw [h.found hroom, hfind]
      rfl
    · rw [Ledger.register_of_some he, hfind]
    · rw [Ledger.register_of_some he]
      exact h

/-- A commitment of an object with a record. -/
theorem Tells.commit_known (h : Tells l t) (hroom : Room t) {oid : String} {e : Entry}
    (he : l.records.get? oid = some e) :
    ∃ u, t.commit oid = .ok ((l.commit oid).find oid, u) ∧ Tells (l.commit oid) u := by
  have hfind := Ledger.find_of_some he
  have hfind' : (l.commit oid).find oid = some (Entry.object oid { e with existing := true }) :=
    Ledger.find_of_some (by rw [Ledger.get?_commit he, if_pos rfl])
  have hnames : ∀ name ∈ e.projects,
      t.projects.get? name = some (projectRecord name (l.oidsOf name)) ∧
        Short (projectRecord name (l.oidsOf name)) := by
    intro name hname
    have hthere := l.listed he name hname
    obtain ⟨u, hu⟩ := Table.contains_iff.mp hthere
    exact ⟨by rw [h.project, hu]; rfl, h.short_project hroom hthere⟩
  obtain ⟨after, hafter, hview⟩ := foldlM_enlist oid e.ascending_projects.nodup hnames
  refine ⟨{ t with
    objects := t.objects.insert oid (objectRecord oid { e with existing := true })
    projects := after }, ?_, h.users, ?_, ?_, ?_⟩
  · unfold Tables.commit
    show (t.findObject oid).bind _ = _
    rw [h.found hroom, hfind, hfind']
    show (e.projects.foldlM (Tables.enlist oid) t.projects).bind _ = _
    rw [hafter]
    rfl
  · rw [Table.eq_mapEntries_iff]
    intro x
    rw [Table.get?_insert, Ledger.get?_commit he, h.object]
    split
    · rename_i hx
      rw [hx]
      rfl
    · rfl
  · rw [Table.eq_mapEntries_iff]
    intro name
    rw [hview, Ledger.oidsOf_commit he, h.project]
    show _ = (l.projects.get? name).map _
    split
    · rename_i hname
      obtain ⟨u, hu⟩ := Table.contains_iff.mp (l.listed he name hname)
      rw [hu]
      rfl
    · rfl
  · intro x e' he'
    rw [Ledger.get?_commit he] at he'
    have hsize := h.sized he
    split at he'
    · cases he'
      exact hsize
    · exact h.sized he'

theorem Tells.commit (h : Tells l t) (hroom : Room t) (oid : String) :
    ∃ u, t.commit oid = .ok ((l.commit oid).find oid, u) ∧ Tells (l.commit oid) u := by
  cases he : l.records.get? oid with
  | some e => exact h.commit_known hroom he
  | none =>
    rw [Ledger.commit_of_none he]
    refine ⟨t, ?_, h⟩
    unfold Tables.commit
    show (t.findObject oid).bind _ = _
    rw [h.found hroom, Ledger.find_of_none he]
    rfl

theorem Tells.addUser (h : Tells l t) (name hash : String) :
    Tells (l.addUser name hash) (t.insertUser name hash) := by
  have hboth : (t.insertUser name hash).users = (l.addUser name hash).users ∧
      t.insertUser name hash = { t with users := (t.insertUser name hash).users } := by
    unfold Ledger.addUser Tables.insertUser
    rw [h.users]
    split
    · exact ⟨h.users, rfl⟩
    · exact ⟨rfl, rfl⟩
  rw [hboth.2]
  exact ⟨hboth.1, h.objects, h.projects, h.sized⟩

theorem Tells.deleteUser (h : Tells l t) (name : String) :
    Tells (l.deleteUser name) (t.deleteUser name) := by
  refine ⟨?_, h.objects, h.projects, h.sized⟩
  unfold Ledger.deleteUser Tables.deleteUser
  rw [h.users]

theorem Tells.addProject (h : Tells l t) (name : String) :
    Tells (l.addProject name) (t.ensureProject name) := by
  obtain ⟨hobjects, husers, hprojects⟩ := ensureProject_spec t name
  refine ⟨husers.trans h.users, hobjects.trans h.objects, ?_, h.sized⟩
  rw [Table.eq_mapEntries_iff]
  intro x
  have hview : (l.addProject name).projects.get? x =
      if x = name then some () else l.projects.get? x := Table.get?_insert _ _ _ _
  rw [hprojects, hview, h.project]
  show _ = Option.map (fun _ => projectRecord x (l.oidsOf x)) _
  cases hget : l.projects.get? x with
  | none =>
    rw [Ledger.oidsOf_of_not_contains (Table.contains_eq_false.mpr hget)]
    by_cases hx : x = name
    · rw [if_pos ⟨hx, rfl⟩, if_pos hx, Option.map_some]
    · rw [if_neg fun hk => hx hk.1, if_neg hx]
  | some u =>
    rw [if_neg fun hk => absurd hk.2 (by simp)]
    split <;> rfl

/-! ### Listings -/

theorem Tells.allProjects (h : Tells l t) (hroom : Room t) :
    t.allProjects = .ok l.projectList := by
  have hlist : l.projectList =
      l.projects.entries.map fun e => ⟨e.1, l.oidsOf e.1⟩ := by
    unfold Ledger.projectList Names.toList Table.keys
    rw [List.map_map]
    rfl
  unfold Tables.allProjects
  rw [h.projects, Table.values_mapEntries, hlist]
  apply mapM_map_ok
  intro e he
  have hthere : l.projects.contains e.1 = true :=
    Table.contains_iff.mpr ⟨e.2, Table.get?_eq_some_iff.mpr he⟩
  exact readProject_projectRecord (h.short_project hroom hthere)

theorem Tells.allObjects (h : Tells l t) (hroom : Room t) :
    t.allObjects = .ok (l.records.entries.map fun e => e.2.object e.1) := by
  unfold Tables.allObjects
  rw [h.objects, Table.values_mapEntries]
  apply mapM_map_ok
  intro e he
  exact h.readObject hroom (Table.get?_eq_some_iff.mpr he)

/-- The committed objects among all of them. -/
theorem filter_existing (l : Ledger) :
    (l.records.entries.map fun e => e.2.object e.1).filter Object.existing = l.objectList := by
  rw [List.filter_map]
  rfl

end

/-! ### Transactions -/

/-- A transaction on an open database that succeeds. -/
theorem transaction_eval {d : Database} (hopen : d.closed = false) {c : Call} (hc : c ≠ .close)
    {a : c.Answer} {t : Tables} (h : d.tables.transact c = .ok (a, t)) :
    eval Database.step (transaction c) d = (.ok a, { d with tables := t }) :=
  Database.step_of_ok hopen hc h

theorem yields_transaction {d : Database} (hopen : d.closed = false) {c : Call} (hc : c ≠ .close)
    {a : c.Answer} {t : Tables} (ha : d.tables.transact c = .ok (a, t)) {l' : Ledger}
    (h : Tells l' t) : Yields Database.step (transaction c) d a (Keeps l') :=
  ⟨{ d with tables := t }, transaction_eval hopen hc ha, hopen, h⟩

/-- **The transactions of an open embedded database implement the ledger**, while there is room and
sizes have 64 bits. -/
theorem implements : Implements storage Database.step (fun d => Room d.tables)
    (fun r => Text.fitsInt64 r.size = true) Keeps where
  passwordHash {l d} h user := by
    show eval Database.step (transaction (.passwordHash user)) d = _
    rw [← h.2.users]
    exact transaction_eval h.1 (by simp) rfl
  find {l d} h hroom oid := by
    show eval Database.step (transaction (.findObject oid)) d = _
    refine transaction_eval h.1 (by simp) ?_
    show (d.tables.findObject oid).map _ = _
    rw [h.2.found hroom]
    rfl
  register {l d} h hroom r hsize := by
    obtain ⟨o, u, hu, hfind, htells⟩ := h.2.register hroom hsize
    refine ⟨{ d with tables := u }, ?_, h.1, htells⟩
    show eval Database.step (transaction (.register r.pendingObject) >>= fun o => pure (some o)) d =
      _
    rw [eval_bind_of_ok (transaction_eval (c := .register r.pendingObject) h.1 (by simp) hu),
      hfind]
    rfl
  commit h hroom oid := by
    obtain ⟨u, hu, htells⟩ := h.2.commit hroom oid
    exact yields_transaction (c := .commit oid) h.1 (by simp) hu htells
  insertUser h name hash _ := yields_transaction h.1 (by simp) rfl (h.2.addUser name hash)
  deleteUser h name := yields_transaction h.1 (by simp) rfl (h.2.deleteUser name)
  userNames {l d} h := by
    show eval Database.step (transaction .userNames) d = _
    rw [← h.2.users]
    exact transaction_eval h.1 (by simp) rfl
  ensureProject h name := yields_transaction h.1 (by simp) rfl (h.2.addProject name)
  projects {l d} h hroom := by
    show eval Database.step (transaction .allProjects) d = _
    refine transaction_eval h.1 (by simp) ?_
    show d.tables.allProjects.map _ = _
    rw [h.2.allProjects hroom]
    rfl
  objects {l d} h hroom := by
    have hall : eval Database.step (transaction .allObjects) d =
        (.ok (l.records.entries.map fun e => e.2.object e.1), d) := by
      refine transaction_eval h.1 (by simp) ?_
      show d.tables.allObjects.map _ = _
      rw [h.2.allObjects hroom]
      rfl
    show eval Database.step (transaction .allObjects >>= fun os =>
      pure (os.filter Object.existing)) d = _
    rw [eval_bind_of_ok hall, filter_existing]
    rfl

/-- The tables of a new database tell of the empty ledger. -/
theorem tells_empty : Tells Ledger.empty {} :=
  ⟨rfl, rfl, rfl, fun h => absurd h (by simp [Ledger.empty, EmptyCollection.emptyCollection])⟩

end Depot.Embedded
