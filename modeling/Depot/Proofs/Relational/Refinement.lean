import Depot.Proofs.Registry.Ledger
import Depot.Proofs.Transactions
import Mathlib.Data.List.Nodup

/-!
# A relational database keeps the ledger

Relational tables tell of a ledger by the rows of its objects, by its projects under numbers of
their own, and by the joining table, which has a row for each project of each record.

Headlines
* **`implements`**: the transactions of an open relational database implement the ledger.
-/

namespace Depot.Relational

open Registry (Entry Implements Ledger Object Project Request Yields eval eval_bind_of_ok
  ascending_sortNames foldl_insert_spec mem_sortNames sortNames)

/-! ### Numbers of projects -/

/-- Different projects have different numbers, and the next number is new. -/
structure Numbered (t : Tables) : Prop where
  below : ∀ {name id}, t.projects.get? name = some id → id < t.nextProject
  distinct : ∀ {name name' id}, t.projects.get? name = some id →
    t.projects.get? name' = some id → name = name'

section

variable {t : Tables}

/-- The name of a number is the project that has it. -/
theorem Numbered.projectName?_iff (h : Numbered t) {id : Nat} {name : String} :
    t.projectName? id = some name ↔ t.projects.get? name = some id := by
  unfold Tables.projectName?
  rw [Option.map_eq_some_iff]
  constructor
  · rintro ⟨⟨name', id'⟩, hfind, rfl⟩
    have hid : id' = id := by simpa using List.find?_some hfind
    rw [← hid]
    exact Table.get?_eq_some_iff.mpr (List.mem_of_find?_eq_some hfind)
  · intro hget
    cases hfind : t.projects.entries.find? fun e => e.2 == id with
    | none =>
      have hnone := List.find?_eq_none.mp hfind (name, id) (Table.get?_eq_some_iff.mp hget)
      exact absurd (beq_self_eq_true id) hnone
    | some e =>
      obtain ⟨name', id'⟩ := e
      have hid : id' = id := by simpa using List.find?_some hfind
      have hget' : t.projects.get? name' = some id' :=
        Table.get?_eq_some_iff.mpr (List.mem_of_find?_eq_some hfind)
      rw [hid] at hget'
      exact ⟨_, rfl, h.distinct hget' hget⟩

theorem get?_insertProject {name x : String} :
    (t.insertProject name).projects.get? x =
      if x = name ∧ t.projects.get? name = none then some t.nextProject
      else t.projects.get? x := by
  unfold Tables.insertProject
  cases hname : t.projects.get? name with
  | some id =>
    rw [if_pos (Table.contains_iff.mpr ⟨id, hname⟩)]
    simp
  | none =>
    rw [if_neg (by rw [Table.contains_eq_false.mpr hname]; simp), Table.get?_insert]
    simp

/-- A project that is added takes the next number. -/
theorem Numbered.insertProject (h : Numbered t) (name : String) :
    Numbered (t.insertProject name) := by
  have hnext : t.nextProject ≤ (t.insertProject name).nextProject ∧
      (t.projects.get? name = none → t.nextProject < (t.insertProject name).nextProject) := by
    unfold Tables.insertProject
    cases hname : t.projects.get? name with
    | some id =>
      rw [if_pos (Table.contains_iff.mpr ⟨id, hname⟩)]
      exact ⟨Nat.le_refl _, fun hn => absurd hn (by simp)⟩
    | none =>
      rw [if_neg (by rw [Table.contains_eq_false.mpr hname]; simp)]
      exact ⟨Nat.le_succ _, fun _ => Nat.lt_succ_self _⟩
  refine ⟨fun {x id} hx => ?_, fun {x y id} hx hy => ?_⟩
  · rw [get?_insertProject] at hx
    split at hx
    · rename_i hnew
      cases hx
      exact hnext.2 hnew.2
    · exact Nat.lt_of_lt_of_le (h.below hx) hnext.1
  · rw [get?_insertProject] at hx hy
    split at hx <;> split at hy
    · rename_i hxn hyn
      rw [hxn.1, hyn.1]
    · cases hx
      exact absurd (h.below hy) (Nat.lt_irrefl _)
    · cases hy
      exact absurd (h.below hx) (Nat.lt_irrefl _)
    · exact h.distinct hx hy

theorem contains_insertProject {name x : String} :
    (t.insertProject name).projects.contains x = true ↔
      x = name ∨ t.projects.contains x = true := by
  unfold Table.contains
  rw [get?_insertProject]
  by_cases hx : x = name
  · subst hx
    cases hget : t.projects.get? x <;> simp
  · simp [hx]

/-- A project that is there keeps its number. -/
theorem get?_insertProject_of_contains {name x : String} (h : t.projects.contains x = true) :
    (t.insertProject name).projects.get? x = t.projects.get? x := by
  rw [get?_insertProject, if_neg]
  rintro ⟨rfl, hnone⟩
  rw [Table.contains_eq_false.mpr hnone] at h
  exact absurd h (by simp)

end

/-! ### The ledger in tables -/

/-- The row of a record. -/
def rowOf (e : Entry) : OidEntry := ⟨e.size, !e.existing⟩

/-- The tables tell of a ledger. -/
structure Tells (l : Ledger) (t : Tables) : Prop where
  users : t.users = l.users
  rows : t.oids = l.records.mapEntries fun _ => rowOf
  project : ∀ name, t.projects.contains name = true ↔ l.projects.contains name = true
  numbered : Numbered t
  maps : ∀ oid id, (oid, id) ∈ t.maps ↔ ∃ e name, l.records.get? oid = some e ∧
    name ∈ e.projects ∧ t.projects.get? name = some id
  nodup : t.maps.Nodup

/-- An open database whose tables tell of a ledger. -/
def Keeps (l : Ledger) (d : Database) : Prop := d.closed = false ∧ Tells l d.tables

variable {l : Ledger} {t : Tables}

theorem Tells.row (h : Tells l t) (oid : String) :
    t.oids.get? oid = (l.records.get? oid).map rowOf := by
  rw [h.rows, Table.get?_mapEntries]

/-- Which names the joining table gives for an object. -/
theorem Tells.joined (h : Tells l t) {oid name : String} :
    (∃ id, (oid, id) ∈ t.maps ∧ t.projects.get? name = some id) ↔
      ∃ e, l.records.get? oid = some e ∧ name ∈ e.projects := by
  constructor
  · rintro ⟨id, hmem, hget⟩
    obtain ⟨e, name', he, hname', hget'⟩ := (h.maps oid id).mp hmem
    obtain rfl := h.numbered.distinct hget hget'
    exact ⟨e, he, hname'⟩
  · rintro ⟨e, he, hname⟩
    obtain ⟨id, hget⟩ := Table.contains_iff.mp ((h.project name).mpr (l.listed he name hname))
    exact ⟨id, (h.maps oid id).mpr ⟨e, name, he, hname, hget⟩, hget⟩

/-- The projects of an object are those of its record. -/
theorem Tells.projectsOf (h : Tells l t) {oid : String} {e : Entry}
    (he : l.records.get? oid = some e) : t.projectsOf oid = e.projects := by
  unfold Tables.projectsOf
  have hids : ((t.maps.filter fun m => m.1 == oid).map Prod.snd).Nodup := by
    refine List.Nodup.map_on ?_ (h.nodup.filter _)
    rintro ⟨x, id⟩ hx ⟨y, id'⟩ hy hid
    have hxo : x = oid := by simpa using (List.mem_filter.mp hx).2
    have hyo : y = oid := by simpa using (List.mem_filter.mp hy).2
    rw [hxo, hyo, show id = id' from hid]
  have hnames : ((t.maps.filter fun m => m.1 == oid).filterMap fun m =>
      t.projectName? m.2).Nodup := by
    show (List.filterMap (t.projectName? ∘ Prod.snd) _).Nodup
    rw [← List.filterMap_map]
    refine hids.filterMap fun id id' name hid hid' => ?_
    rw [Option.mem_def, h.numbered.projectName?_iff] at hid hid'
    exact Option.some.inj (hid.symm.trans hid')
  refine (ascending_sortNames hnames).ext e.ascending_projects fun name => ?_
  rw [mem_sortNames, List.mem_filterMap]
  constructor
  · rintro ⟨⟨x, id⟩, hrow, hname⟩
    obtain ⟨hmem, hx⟩ := List.mem_filter.mp hrow
    rw [show x = oid by simpa using hx] at hmem
    obtain ⟨e', he', hin⟩ := h.joined.mp ⟨id, hmem, h.numbered.projectName?_iff.mp hname⟩
    obtain rfl := Option.some.inj (he.symm.trans he')
    exact hin
  · intro hin
    obtain ⟨id, hmem, hget⟩ := h.joined.mpr ⟨e, he, hin⟩
    exact ⟨(oid, id), List.mem_filter.mpr ⟨hmem, beq_self_eq_true oid⟩,
      h.numbered.projectName?_iff.mpr hget⟩

/-- A look-up finds the record. -/
theorem Tells.found (h : Tells l t) (oid : String) : t.findObject oid = l.find oid := by
  unfold Tables.findObject Ledger.find
  rw [h.row]
  cases he : l.records.get? oid with
  | none => rfl
  | some e =>
    rw [Option.map_some, Option.map_some, Option.map_some, h.projectsOf he]
    simp [rowOf, Entry.object]

/-! ### Joining -/

/-- What it means for tables that an object is joined to projects. -/
structure Joins (oid : String) (names : List String) (t u : Tables) : Prop where
  users : u.users = t.users
  oids : u.oids = t.oids
  project : ∀ x, u.projects.contains x = true ↔ x ∈ names ∨ t.projects.contains x = true
  kept : ∀ {x id}, t.projects.get? x = some id → u.projects.get? x = some id
  numbered : Numbered u
  maps : ∀ x id, (x, id) ∈ u.maps ↔
    (x, id) ∈ t.maps ∨ x = oid ∧ ∃ name ∈ names, u.projects.get? name = some id
  nodup : u.maps.Nodup

theorem Joins.refl {oid : String} (hnumbered : Numbered t) (hnodup : t.maps.Nodup) :
    Joins oid [] t t :=
  ⟨rfl, rfl, by simp, id, hnumbered, by simp, hnodup⟩

theorem Joins.trans {oid : String} {names names' : List String} {u v : Tables}
    (h : Joins oid names t u) (h' : Joins oid names' u v) : Joins oid (names ++ names') t v := by
  -- the number of a project that was joined before
  have hnumber : ∀ {name id}, name ∈ names →
      (u.projects.get? name = some id ↔ v.projects.get? name = some id) := by
    intro name id hname
    obtain ⟨id', hid'⟩ := Table.contains_iff.mp ((h.project name).mpr (Or.inl hname))
    rw [hid', h'.kept hid']
  refine ⟨h'.users.trans h.users, h'.oids.trans h.oids, fun x => ?_, fun hx => h'.kept (h.kept hx),
    h'.numbered, fun x id => ?_, h'.nodup⟩
  · rw [h'.project, h.project, List.mem_append]
    tauto
  · rw [h'.maps, h.maps, or_assoc, ← and_or_left]
    refine or_congr_right (and_congr_right fun _ => ?_)
    constructor
    · rintro (⟨name, hname, hid⟩ | ⟨name, hname, hid⟩)
      · exact ⟨name, List.mem_append_left _ hname, (hnumber hname).mp hid⟩
      · exact ⟨name, List.mem_append_right _ hname, hid⟩
    · rintro ⟨name, hname, hid⟩
      rcases List.mem_append.mp hname with hname | hname
      · exact Or.inl ⟨name, hname, (hnumber hname).mpr hid⟩
      · exact Or.inr ⟨name, hname, hid⟩

/-- The rows of the joining table after an object is added to a project. -/
theorem mem_insertMap {oid x : String} {id i : Nat} :
    (x, i) ∈ (t.insertMap oid id).maps ↔ (x, i) ∈ t.maps ∨ x = oid ∧ i = id := by
  unfold Tables.insertMap
  split
  · rename_i hin
    refine (or_iff_left_of_imp ?_).symm
    rintro ⟨rfl, rfl⟩
    exact List.contains_iff_mem.mp hin
  · rw [List.mem_append, List.mem_singleton, Prod.mk.injEq]

theorem nodup_insertMap {oid : String} {id : Nat} (h : t.maps.Nodup) :
    (t.insertMap oid id).maps.Nodup := by
  unfold Tables.insertMap
  split
  · exact h
  · rename_i hout
    refine h.append (List.nodup_singleton _) (List.disjoint_singleton.mpr fun hin => hout ?_)
    exact List.contains_iff_mem.mpr hin

/-- An object that is added to a project changes only the joining table. -/
theorem insertMap_eq (oid : String) (id : Nat) :
    t.insertMap oid id = { t with maps := (t.insertMap oid id).maps } := by
  unfold Tables.insertMap
  split <;> rfl

/-- A project that is added changes only the projects. -/
theorem insertProject_eq (name : String) :
    t.insertProject name = { t with
      projects := (t.insertProject name).projects
      nextProject := (t.insertProject name).nextProject } := by
  unfold Tables.insertProject
  split <;> rfl

/-- Joining an object to one project. -/
theorem joins_join (oid name : String) (hnumbered : Numbered t) (hnodup : t.maps.Nodup) :
    Joins oid [name] t (t.join oid name) := by
  obtain ⟨id, hid⟩ : ∃ id, (t.insertProject name).projects.get? name = some id :=
    Table.contains_iff.mp (contains_insertProject.mpr (Or.inl rfl))
  have hmaps : (t.insertProject name).maps = t.maps := by rw [insertProject_eq]
  have hjoin : t.join oid name = { t.insertProject name with
      maps := ((t.insertProject name).insertMap oid id).maps } := by
    rw [← insertMap_eq]
    unfold Tables.join
    simp only [hid]
  rw [hjoin]
  refine ⟨?_, ?_, fun x => ?_, fun {x i} hx => ?_, ?_, fun x i => ?_, ?_⟩
  · rw [insertProject_eq]
  · rw [insertProject_eq]
  · rw [contains_insertProject, List.mem_singleton]
  · rw [get?_insertProject_of_contains (Table.contains_iff.mpr ⟨i, hx⟩), hx]
  · have hn := hnumbered.insertProject name
    exact ⟨hn.below, hn.distinct⟩
  · rw [mem_insertMap, hmaps]
    simp only [List.mem_singleton, exists_eq_left, hid, Option.some.injEq]
    rw [@eq_comm _ i id]
  · exact nodup_insertMap (hmaps ▸ hnodup)

/-- Joining an object to projects one after another. -/
theorem joins_foldl (oid : String) (names : List String) {t : Tables} (hnumbered : Numbered t)
    (hnodup : t.maps.Nodup) : Joins oid names t (names.foldl (Tables.join oid) t) := by
  induction names generalizing t with
  | nil => exact Joins.refl hnumbered hnodup
  | cons name names ih =>
    have hfirst := joins_join oid name hnumbered hnodup
    exact hfirst.trans (ih hfirst.numbered hfirst.nodup)

/-! ### Changes -/

/-- A registration of an object without a record. -/
theorem Tells.register_new (h : Tells l t) {r : Request} (hnone : l.records.get? r.oid = none) :
    Tells (l.register r) (t.register r.pendingObject) := by
  have hrow : t.oids.contains r.oid = false := by
    rw [Table.contains_eq_false, h.row, hnone]
    rfl
  have hget : ∀ x, (l.register r).records.get? x =
      if x = r.oid then some ⟨r.size, r.repo, false⟩ else l.records.get? x := fun x => by
    rw [Ledger.records_register hnone, Table.get?_insert]
  have hregister : t.register r.pendingObject = r.projects.foldl (Tables.join r.oid)
      { t with oids := t.oids.insert r.oid ⟨r.size, true⟩ } := by
    unfold Tables.register Request.pendingObject
    rw [hrow]
    rfl
  have hj := joins_foldl r.oid r.projects
    (t := { t with oids := t.oids.insert r.oid ⟨r.size, true⟩ })
    ⟨h.numbered.below, h.numbered.distinct⟩ h.nodup
  rw [hregister]
  generalize r.projects.foldl _ _ = u at hj
  refine ⟨?_, ?_, fun name => ?_, hj.numbered, fun x id => ?_, hj.nodup⟩
  · rw [hj.users, Ledger.users_register hnone, h.users]
  · rw [hj.oids, Table.eq_mapEntries_iff]
    intro x
    rw [Table.get?_insert, hget, h.row]
    split <;> rfl
  · rw [hj.project, Ledger.projects_register hnone, Registry.contains_foldl_add, h.project]
  · rw [hj.maps, h.maps, hget]
    by_cases hx : x = r.oid
    · subst hx
      rw [if_pos rfl]
      constructor
      · rintro (⟨e, name, he, -⟩ | ⟨-, name, hname, hid⟩)
        · exact absurd (hnone.symm.trans he) (by simp)
        · exact ⟨_, name, rfl, hname, hid⟩
      · rintro ⟨e, name, he, hname, hid⟩
        cases he
        exact Or.inr ⟨rfl, name, hname, hid⟩
    · rw [if_neg hx, or_iff_left fun hk => hx hk.1]
      refine exists_congr fun e => exists_congr fun name => and_congr_right fun he =>
        and_congr_right fun hname => ?_
      obtain ⟨id', hid'⟩ := Table.contains_iff.mp ((h.project name).mpr (l.listed he name hname))
      rw [hid', hj.kept hid']

theorem Tells.register (h : Tells l t) (r : Request) :
    Tells (l.register r) (t.register r.pendingObject) := by
  cases he : l.records.get? r.oid with
  | none => exact h.register_new he
  | some e =>
    have hrow : t.oids.contains r.oid = true := by
      rw [Table.contains_iff, h.row, he]
      exact ⟨_, rfl⟩
    have hsame : t.register r.pendingObject = t := if_pos hrow
    rw [Ledger.register_of_some he, hsame]
    exact h

theorem Tells.commit (h : Tells l t) (oid : String) :
    Tells (l.commit oid) (t.clearPending oid) := by
  refine ⟨h.users, ?_, h.project, ⟨h.numbered.below, h.numbered.distinct⟩, fun x id => ?_, h.nodup⟩
  · unfold Tables.clearPending Ledger.commit
    rw [Table.eq_mapEntries_iff]
    intro x
    rw [Table.get?_modify, Table.get?_modify, h.row]
    split
    · cases l.records.get? x <;> rfl
    · rfl
  · unfold Tables.clearPending Ledger.commit
    rw [h.maps, Table.get?_modify]
    split
    · -- a commitment leaves the projects of a record as they are
      constructor
      · rintro ⟨e, name, he, hname, hid⟩
        exact ⟨{ e with existing := true }, name, by rw [he]; rfl, hname, hid⟩
      · rintro ⟨e', name, he', hname, hid⟩
        obtain ⟨e, he, rfl⟩ := Option.map_eq_some_iff.mp he'
        exact ⟨e, name, he, hname, hid⟩
    · rfl

theorem Tells.addUser (h : Tells l t) (name hash : String) :
    Tells (l.addUser name hash) (t.insertUser name hash) := by
  have hboth : (t.insertUser name hash).users = (l.addUser name hash).users ∧
      t.insertUser name hash = { t with users := (t.insertUser name hash).users } := by
    unfold Ledger.addUser Tables.insertUser
    rw [h.users]
    split
    · exact ⟨h.users, rfl⟩
    · exact ⟨rfl, rfl⟩
  rw [hboth.2]
  exact ⟨hboth.1, h.rows, h.project, ⟨h.numbered.below, h.numbered.distinct⟩, h.maps, h.nodup⟩

theorem Tells.deleteUser (h : Tells l t) (name : String) :
    Tells (l.deleteUser name) (t.deleteUser name) := by
  refine ⟨?_, h.rows, h.project, ⟨h.numbered.below, h.numbered.distinct⟩, h.maps, h.nodup⟩
  unfold Ledger.deleteUser Tables.deleteUser
  rw [h.users]

theorem Tells.addProject (h : Tells l t) (name : String) :
    Tells (l.addProject name) (t.insertProject name) := by
  have hmaps : (t.insertProject name).maps = t.maps := by rw [insertProject_eq]
  refine ⟨?_, ?_, fun x => ?_, h.numbered.insertProject name, fun x id => ?_, hmaps ▸ h.nodup⟩
  · rw [insertProject_eq]
    exact h.users
  · rw [insertProject_eq]
    exact h.rows
  · unfold Ledger.addProject
    rw [contains_insertProject, h.project, Names.contains_add, Bool.or_eq_true, beq_iff_eq]
  · rw [hmaps, h.maps]
    refine exists_congr fun e => exists_congr fun x => and_congr_right fun he =>
      and_congr_right fun hx => ?_
    rw [get?_insertProject_of_contains ((h.project x).mpr (l.listed he x hx))]

/-! ### Listings -/

/-- A row of the join: a committed object and one of its projects. -/
theorem Tells.mem_committedMembership (h : Tells l t) {name oid : String} :
    (name, oid) ∈ t.committedMembership ↔
      ∃ e, l.records.get? oid = some e ∧ e.existing = true ∧ name ∈ e.projects := by
  unfold Tables.committedMembership
  rw [List.mem_filterMap]
  constructor
  · rintro ⟨⟨x, id⟩, hmem, hrow⟩
    obtain ⟨name', hname, hrow⟩ := Option.bind_eq_some_iff.mp hrow
    obtain ⟨entry, hentry, hrow⟩ := Option.bind_eq_some_iff.mp hrow
    split at hrow
    · exact absurd hrow (by simp)
    · rename_i hpending
      cases hrow
      rw [h.row] at hentry
      obtain ⟨e, he, rfl⟩ := Option.map_eq_some_iff.mp hentry
      obtain ⟨e', he', hin⟩ := h.joined.mp ⟨id, hmem, h.numbered.projectName?_iff.mp hname⟩
      obtain rfl := Option.some.inj (he.symm.trans he')
      exact ⟨e, he, by simpa [rowOf] using hpending, hin⟩
  · rintro ⟨e, he, hexisting, hin⟩
    obtain ⟨id, hmem, hget⟩ := h.joined.mpr ⟨e, he, hin⟩
    refine ⟨(oid, id), hmem, ?_⟩
    have hrow : t.oids.get? oid = some (rowOf e) := by rw [h.row, he]; rfl
    rw [h.numbered.projectName?_iff.mpr hget, hrow]
    simp [rowOf, hexisting]

/-- No row of the join occurs twice. -/
theorem Tells.nodup_committedMembership (h : Tells l t) : t.committedMembership.Nodup := by
  -- a row tells its object, and its project's number by the name
  have hrow : ∀ (m : String × Nat) (name oid : String),
      ((t.projectName? m.2).bind fun name => (t.oids.get? m.1).bind fun entry =>
        if entry.pending then none else some (name, m.1)) = some (name, oid) →
      m.1 = oid ∧ t.projects.get? name = some m.2 := by
    intro m name oid hm
    obtain ⟨name', hname, hm⟩ := Option.bind_eq_some_iff.mp hm
    obtain ⟨entry, -, hm⟩ := Option.bind_eq_some_iff.mp hm
    split at hm
    · exact absurd hm (by simp)
    · cases hm
      exact ⟨rfl, h.numbered.projectName?_iff.mp hname⟩
  refine h.nodup.filterMap ?_
  rintro ⟨x, id⟩ ⟨y, id'⟩ ⟨name, oid⟩ hm hm'
  obtain ⟨rfl, hid⟩ := hrow _ _ _ hm
  obtain ⟨hxy, hid'⟩ := hrow _ _ _ hm'
  obtain rfl := Option.some.inj (hid.symm.trans hid')
  exact Prod.ext hxy.symm rfl

/-- Rows that are listed under projects one after another. -/
theorem get?_foldl_enlist (rows : List (String × String)) (projects : Table String Project)
    (name : String) :
    (rows.foldl enlist projects).get? name = (projects.get? name).map fun p =>
      ((rows.filter fun row => row.1 == name).map Prod.snd).foldl Project.insert p := by
  induction rows generalizing projects with
  | nil => simp
  | cons row rows ih =>
    rw [List.foldl_cons, ih, enlist, Table.get?_modify, List.filter_cons]
    by_cases hrow : name = row.1
    · subst hrow
      simp [Function.comp_def]
    · have hrow' : (row.1 == name) = false := beq_eq_false_iff_ne.mpr fun he => hrow he.symm
      rw [if_neg hrow, hrow']
      rfl

/-- The objects that the rows list under a project are those of the ledger's project. -/
theorem Tells.enlisted (h : Tells l t) (name : String) :
    ((t.committedMembership.filter fun row => row.1 == name).map Prod.snd).foldl Project.insert
      (Project.empty name) = ⟨name, l.oidsOf name⟩ := by
  obtain ⟨hname, hascending, hmem⟩ := foldl_insert_spec
    ((t.committedMembership.filter fun row => row.1 == name).map Prod.snd)
    (p := Project.empty name) List.Pairwise.nil
  generalize List.foldl _ _ _ = p at hname hascending hmem
  have hoids : p.oids = l.oidsOf name := by
    refine hascending.ext (l.ascending_oidsOf name) fun oid => ?_
    rw [hmem, or_iff_left (by simp [Project.empty]), Ledger.mem_oidsOf]
    simp only [List.mem_map, List.mem_filter, beq_iff_eq]
    constructor
    · rintro ⟨⟨name', oid'⟩, ⟨hrow, rfl⟩, rfl⟩
      exact h.mem_committedMembership.mp hrow
    · intro hrow
      exact ⟨(name, oid), ⟨h.mem_committedMembership.mpr hrow, rfl⟩, rfl⟩
  rw [← hoids]
  exact congrArg (fun n => (⟨n, p.oids⟩ : Project)) hname

/-- Projects of some names are put together with the objects that the ledger lists for them. -/
theorem Tells.assembled (h : Tells l t) {α : Type} (names : Table String α) :
    assembleProjects names.keys t.committedMembership =
      names.keys.map fun name => ⟨name, l.oidsOf name⟩ := by
  have htable : t.committedMembership.foldl enlist
      (Table.ofList (names.keys.map fun name => (name, Project.empty name))) =
        names.mapEntries fun name _ => ⟨name, l.oidsOf name⟩ := by
    rw [Table.eq_mapEntries_iff]
    intro name
    have hkey : name ∈ names.keys ↔ names.contains name = true := Table.mem_keys_iff
    rw [get?_foldl_enlist, Table.get?_ofList_map]
    cases hget : names.get? name with
    | none =>
      rw [if_neg (by rw [hkey, Table.contains_eq_false.mpr hget]; simp)]
      rfl
    | some a =>
      rw [if_pos (hkey.mpr (Table.contains_iff.mpr ⟨a, hget⟩)), Option.map_some, h.enlisted]
      rfl
  unfold assembleProjects
  show (List.foldl enlist _ _).values = _
  rw [htable, Table.values_mapEntries, Table.keys, List.map_map]
  rfl

/-- The names of the projects are those of the ledger. -/
theorem Tells.keys (h : Tells l t) : t.projects.keys = l.projects.toList := by
  refine t.projects.keys_ascending.ext l.projects.keys_ascending fun name => ?_
  exact Table.mem_keys_iff.trans ((h.project name).trans Table.mem_keys_iff.symm)

/-- The listing of projects is that of the ledger. -/
theorem Tells.projectList (h : Tells l t) :
    assembleProjects t.projects.keys t.committedMembership = l.projectList := by
  rw [h.assembled, h.keys]
  rfl

/-- The projects that the rows list for a committed object are those of its record. -/
theorem Tells.listedFor (h : Tells l t) {oid : String} {e : Entry}
    (he : l.records.get? oid = some e) (hexisting : e.existing = true) :
    sortNames ((t.committedMembership.filter fun row => row.2 == oid).map Prod.fst) =
      e.projects := by
  have hnodup : ((t.committedMembership.filter fun row => row.2 == oid).map Prod.fst).Nodup := by
    refine List.Nodup.map_on ?_ (h.nodup_committedMembership.filter _)
    rintro ⟨name, x⟩ hx ⟨name', y⟩ hy hname
    have hxo : x = oid := by simpa using (List.mem_filter.mp hx).2
    have hyo : y = oid := by simpa using (List.mem_filter.mp hy).2
    rw [hxo, hyo, show name = name' from hname]
  refine (ascending_sortNames hnodup).ext e.ascending_projects fun name => ?_
  rw [mem_sortNames]
  simp only [List.mem_map, List.mem_filter, beq_iff_eq]
  constructor
  · rintro ⟨⟨name', x⟩, ⟨hrow, rfl⟩, rfl⟩
    obtain ⟨e', he', -, hin⟩ := h.mem_committedMembership.mp hrow
    obtain rfl := Option.some.inj (he.symm.trans he')
    exact hin
  · intro hin
    exact ⟨(name, oid), ⟨h.mem_committedMembership.mpr ⟨e, he, hexisting, hin⟩, rfl⟩, rfl⟩

/-- Committed objects are put together with the projects of their records, also if the rows of the
join are read when the ledger is another one: one in which they are still committed and have their
projects. -/
theorem Tells.assembledObjects (h : Tells l t) {l' : Ledger} {t' : Tables} (h' : Tells l' t')
    (hkept : ∀ {oid e}, l.records.get? oid = some e → e.existing = true →
      ∃ e', l'.records.get? oid = some e' ∧ e'.existing = true ∧ e'.projects = e.projects) :
    assembleObjects t.committedObjects t'.committedMembership = l.objectList := by
  have hentries : t.oids.entries = l.records.entries.map fun e => (e.1, rowOf e.2) := by
    rw [h.rows]
    rfl
  have hcommitted : (fun e : String × OidEntry => !e.2.pending) ∘
      (fun e : String × Entry => (e.1, rowOf e.2)) = fun e => e.2.existing := by
    funext e
    simp [rowOf]
  unfold assembleObjects Tables.committedObjects Ledger.objectList
  rw [hentries, List.filter_map, hcommitted, List.map_map, List.map_map]
  refine List.map_congr_left fun e he => ?_
  obtain ⟨hmem, hexisting⟩ := List.mem_filter.mp he
  obtain ⟨e', he', hexisting', hprojects⟩ := hkept (Table.get?_eq_some_iff.mpr hmem) hexisting
  show (⟨e.1, e.2.size, sortNames _, true⟩ : Object) = _
  rw [h'.listedFor he' hexisting', hprojects, ← hexisting]
  rfl

/-- The listing of objects is that of the ledger. -/
theorem Tells.objectList (h : Tells l t) :
    assembleObjects t.committedObjects t.committedMembership = l.objectList :=
  h.assembledObjects h fun he hexisting => ⟨_, he, hexisting, rfl⟩

/-! ### Transactions -/

/-- A transaction over open connections. -/
theorem transaction_eval {d : Database} (hopen : d.closed = false) {c : Call} (hc : c ≠ .close) :
    eval Database.step (transaction c) d =
      (.ok (d.tables.transact c).1, { d with tables := (d.tables.transact c).2 }) :=
  Database.step_of_open hopen hc

/-- A query leaves the database as it is. -/
theorem query_eval {d : Database} (hopen : d.closed = false) {c : Call} (hc : c ≠ .close)
    (hquery : (d.tables.transact c).2 = d.tables) :
    eval Database.step (transaction c) d = (.ok (d.tables.transact c).1, d) := by
  rw [transaction_eval hopen hc, hquery]

theorem yields_transaction {d : Database} (hopen : d.closed = false) {c : Call} (hc : c ≠ .close)
    {a : c.Answer} (ha : (d.tables.transact c).1 = a) {l' : Ledger}
    (h : Tells l' (d.tables.transact c).2) :
    Yields Database.step (transaction c) d a (Keeps l') := by
  refine ⟨{ d with tables := (d.tables.transact c).2 }, ?_, hopen, h⟩
  rw [transaction_eval hopen hc, ha]

/-- **The transactions of an open relational database implement the ledger.** -/
theorem implements : Implements storage Database.step (fun _ => True) (fun _ => True) Keeps where
  passwordHash {l d} h user := by
    show eval Database.step (transaction (.passwordHash user)) d = _
    rw [query_eval h.1 (by simp) rfl, ← h.2.users]
    rfl
  find {l d} h _ oid := by
    show eval Database.step (transaction (.findObject oid)) d = _
    rw [query_eval h.1 (by simp) rfl, ← h.2.found]
    rfl
  register h _ r _ := yields_transaction (c := .register r.pendingObject) h.1 (by simp)
    ((h.2.register r).found r.oid) (h.2.register r)
  commit h _ oid := yields_transaction (c := .commit oid) h.1 (by simp)
    ((h.2.commit oid).found oid) (h.2.commit oid)
  insertUser h name hash _ := yields_transaction h.1 (by simp) rfl (h.2.addUser name hash)
  deleteUser h name := yields_transaction h.1 (by simp) rfl (h.2.deleteUser name)
  userNames {l d} h := by
    show eval Database.step (transaction .userNames) d = _
    rw [query_eval h.1 (by simp) rfl, ← h.2.users]
    rfl
  ensureProject h name := yields_transaction h.1 (by simp) rfl (h.2.addProject name)
  projects {l d} h _ := by
    show eval Database.step (transaction .projectNames >>= fun names =>
      transaction .committedMembership >>= fun rows => pure (assembleProjects names rows)) d = _
    rw [eval_bind_of_ok (query_eval h.1 (by simp) rfl),
      eval_bind_of_ok (query_eval h.1 (by simp) rfl), ← h.2.projectList]
    rfl
  objects {l d} h _ := by
    show eval Database.step (transaction .committedObjects >>= fun found =>
      transaction .committedMembership >>= fun rows => pure (assembleObjects found rows)) d = _
    rw [eval_bind_of_ok (query_eval h.1 (by simp) rfl),
      eval_bind_of_ok (query_eval h.1 (by simp) rfl), ← h.2.objectList]
    rfl

/-- The tables of a new database tell of the empty ledger. -/
theorem tells_empty : Tells Ledger.empty {} :=
  ⟨rfl, rfl, fun _ => Iff.rfl, ⟨fun h => absurd h (by simp [EmptyCollection.emptyCollection]),
    fun h => absurd h (by simp [EmptyCollection.emptyCollection])⟩,
    fun _ _ => by simp [Ledger.empty, EmptyCollection.emptyCollection], List.nodup_nil⟩

end Depot.Relational
