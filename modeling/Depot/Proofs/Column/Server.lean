import Depot.Proofs.Agreement
import Depot.Proofs.Column.Order
import Depot.Proofs.Column.Query
import Mathlib.Data.List.Forall2

/-!
# Servers of a column store

What a server has to do with the statements that it is sent to be the store that tables in memory
are: conditional writes say whether they took effect, an insertion of a key keeps the values that
there are, a set without members is no value, rows come in any order. A row that was never inserted
is there only as long as it has a value; no call leaves one behind, since objects are added only to
projects that have been inserted.

Headlines
* **`Stores.executes`**, **`Stores.read`**: what a statement leaves and what its answer is read as,
  by the tables that the rows store.
* **`mirrors`**: a connection to a server mirrors the tables.
* **`outcomes_over_server`**: over a connection to a server operations have the outcomes that they
  have over column tables in memory.
-/

namespace Depot

namespace Names

/-- Listing a set and making a set of the list gives it back. -/
theorem ofList_toList (s : Names) : Names.ofList s.toList = s := by
  refine ext_contains fun x => ?_
  rw [Bool.eq_iff_iff, ← mem_toList (s := s)]
  refine (Registry.contains_foldl_add ..).trans (or_iff_left ?_)
  simp [Table.contains]

theorem eq_empty_of_isEmpty {s : Names} (h : s.toList.isEmpty = true) : s = ∅ := by
  rw [← ofList_toList s, List.isEmpty_iff.mp h]
  rfl

end Names

namespace Column

open Credential (Gate)
open Registry (Error Operation eval sortNames)

/-! ### What statements mean -/

/-- What a server holds: the rows that are there, and which rows stay without a value. -/
structure Keyspace where
  /-- The rows. -/
  rows : Rows := {}
  /-- The rows that stay, since they have been inserted. -/
  lasting : TableName → String → Prop := fun _ _ => False

/-- An answer is what a statement asks for: the rows that are meant in some order, or first of all
whether a conditional statement took effect. -/
def Rows.Meant (r : Rows) : Statement → Result → Prop
  | .select columns t filter, answer =>
    ∃ rows, answer = .rows rows ∧ rows.Perm (r.select columns t filter)
  | .insert t key _ true, answer =>
    ∃ rest, answer = .rows [some (.flag !(r.get t).contains key) :: rest]
  | .update t _ _ key true, answer =>
    ∃ rest, answer = .rows [some (.flag ((r.get t).contains key)) :: rest]
  | .delete t key, answer =>
    ∃ rest, answer = .rows [some (.flag ((r.get t).contains key)) :: rest]
  | _, _ => True

/-- A statement makes of a keyspace what it means: each row is what the statement makes of it, but
that one without a value may be gone unless it has been inserted. -/
structure Keyspace.Executes (k : Keyspace) (s : Statement) (k' : Keyspace) : Prop where
  rows : ∀ t key, (k'.rows.get t).get? key = ((k.rows.execute s).2.get t).get? key ∨
    ((k'.rows.get t).get? key = none ∧ ((k.rows.execute s).2.get t).get? key = some ∅ ∧
      ¬ k'.lasting t key)
  inserted : ∀ t key fields ifAbsent, s = .insert t key fields ifAbsent →
    (ifAbsent = true → (k.rows.get t).contains key = false) → k'.lasting t key
  lasting : ∀ t key, k.lasting t key → s ≠ .delete t key → k'.lasting t key

/-- A server answers each statement of a call by what it means, and makes that of its keyspace. -/
def Serves {σ : Type} (service : Service σ Ask Ask.Reply) (shows : σ → Keyspace → Prop) : Prop :=
  ∀ (c : Call) (s : Statement), c.statement? = some s → ∀ n k, shows n k →
    ∃ answer n' k', eval service c.asked n = (.ok answer, n') ∧ k.rows.Meant s answer ∧
      k.Executes s k' ∧ shows n' k'

/-! ### Tables as rows -/

/-- The values of the row of an object. -/
def oidCells (e : OidEntry) : Row :=
  ((∅ : Row).insert "size" (.int e.size)).insert "pending" (.flag e.pending)

/-- The values of the row of a project. -/
def projectCells (s : Members) : Row :=
  Rows.putMembers (Rows.putMembers ∅ "oids" s.committed) "pending" s.pending

/-- The values of the row of a user. -/
def userCells (hash : String) : Row := (∅ : Row).insert "password" (.text hash)

/-- The rows store tables. -/
structure Encodes (t : Tables) (r : Rows) : Prop where
  oids : r.oids = t.oids.mapEntries fun _ => oidCells
  projects : r.projects = t.projects.mapEntries fun _ => projectCells
  users : r.users = t.users.mapEntries fun _ => userCells

/-- A keyspace stores tables, and the rows of all projects have been inserted. -/
structure Stores (t : Tables) (k : Keyspace) : Prop where
  encodes : Encodes t k.rows
  lasting : ∀ name, t.projects.contains name = true → k.lasting .projects name

section

@[simp] theorem get?_putMembers (row : Row) (column : String) (ms : Names) (x : String) :
    (Rows.putMembers row column ms).get? x =
      if x = column then (if ms.toList.isEmpty then none else some (.set ms.toList))
      else row.get? x := by
  unfold Rows.putMembers
  by_cases h : ms.toList.isEmpty
  · simp [h]
  · simp [h]

/-- A set of a project is the value of a column, unless it has no members. -/
theorem get?_projectCells (s : Members) (m : Membership) :
    (projectCells s).get? m.column =
      if (s.get m).toList.isEmpty then none else some (.set (s.get m).toList) := by
  unfold projectCells
  cases m with
  | pending => exact (get?_putMembers ..).trans (if_pos rfl)
  | committed =>
    refine (get?_putMembers ..).trans ((if_neg (by decide)).trans ?_)
    exact (get?_putMembers ..).trans (if_pos rfl)

/-- The members of the set in that column are those of the project's set. -/
theorem members_projectCells (s : Members) (m : Membership) :
    Rows.members (projectCells s) m.column = s.get m := by
  unfold Rows.members
  rw [get?_projectCells]
  by_cases h : (s.get m).toList.isEmpty
  · rw [if_pos h, Names.eq_empty_of_isEmpty h]
  · rw [if_neg h]
    exact Names.ofList_toList _

/-- A row of the table of projects is read as it is in the tables. -/
theorem projectRowOf_cells (name : String) (s : Members) :
    projectRowOf (["name", "oids", "pending"].map (Rows.cell .projects name (projectCells s))) =
      .ok (Tables.projectRow (name, s)) := by
  have hset : ∀ m : Membership, optionalCell setCell ((projectCells s).get? m.column) =
      .ok (if (s.get m).toList.isEmpty then none else some (s.get m).toList) := by
    intro m
    rw [get?_projectCells]
    split <;> rfl
  have hlist : ∀ m : Membership,
      (if (s.get m).toList.isEmpty then none else some (s.get m).toList : Option _).getD [] =
        (s.get m).toList := by
    intro m
    split
    · next h => exact (List.isEmpty_iff.mp h).symm
    · rfl
  show (optionalCell setCell ((projectCells s).get? Membership.committed.column) >>= fun oids =>
    optionalCell setCell ((projectCells s).get? Membership.pending.column) >>= fun pending =>
      pure (ProjectRow.mk name (oids.getD []) (pending.getD []))) = _
  rw [hset, hset]
  show Except.ok (ProjectRow.mk name (Option.getD _ []) (Option.getD _ [])) = _
  rw [hlist, hlist]
  rfl

/-- A row of the table of objects is read as it is in the tables. -/
theorem oidRowOf_cells (oid : String) (e : OidEntry) :
    oidRowOf (["oid", "size", "pending"].map (Rows.cell .oids oid (oidCells e))) =
      .ok (Tables.oidRow (oid, e)) := rfl

/-! ### What answers are read as -/

/-- Reading rows one by one, whatever their order. -/
theorem mapM_perm {α β : Type} {read : Cells → Except Error β} {rows : List Cells} {l : List α}
    {cells : α → Cells} {value : α → β} (h : rows.Perm (l.map cells))
    (hread : ∀ a, read (cells a) = .ok (value a)) :
    ∃ values, rows.mapM read = .ok values ∧ values.Perm (l.map value) := by
  have hrel : List.Forall₂ (fun row b => read row = .ok b) (l.map cells) (l.map value) := by
    rw [List.forall₂_map_left_iff, List.forall₂_map_right_iff]
    exact List.forall₂_same.mpr fun a _ => hread a
  obtain ⟨values, hvalues, hperm⟩ := List.perm_comp_forall₂ h hrel
  refine ⟨values, ?_, hperm⟩
  clear hrel hperm h
  induction hvalues with
  | nil => rfl
  | cons hrow _ ih =>
    rw [List.mapM_cons, hrow, ih]
    rfl

variable {t : Tables} {r : Rows}

theorem Encodes.oid (h : Encodes t r) (oid : String) :
    r.oids.get? oid = (t.oids.get? oid).map oidCells := by
  rw [h.oids, Table.get?_mapEntries]

theorem Encodes.project (h : Encodes t r) (name : String) :
    r.projects.get? name = (t.projects.get? name).map projectCells := by
  rw [h.projects, Table.get?_mapEntries]

theorem Encodes.user (h : Encodes t r) (name : String) :
    r.users.get? name = (t.users.get? name).map userCells := by
  rw [h.users, Table.get?_mapEntries]

theorem Encodes.contains_oid (h : Encodes t r) (oid : String) :
    r.oids.contains oid = t.oids.contains oid := by
  rw [h.oids, Table.contains_mapEntries]

theorem Encodes.contains_user (h : Encodes t r) (name : String) :
    r.users.contains name = t.users.contains name := by
  rw [h.users, Table.contains_mapEntries]

/-- The rows of a key are one or none, which have one order. -/
theorem rows_of_key {columns : List String} {name : TableName} {key : String} {answer : Result}
    (h : r.Meant (.select columns name (.key key)) answer) :
    answer = .rows (((r.get name).get? key).map fun row =>
      columns.map (Rows.cell name key row)).toList := by
  obtain ⟨rows, rfl, hrows⟩ := h
  rw [Rows.select_key] at hrows
  refine congrArg Result.rows ?_
  cases hrow : (r.get name).get? key with
  | none =>
    rw [hrow] at hrows
    exact List.perm_nil.mp hrows
  | some row =>
    rw [hrow] at hrows
    exact List.perm_singleton.mp hrows

/-- Without a condition all rows are meant. -/
theorem select_all (columns : List String) (name : TableName) :
    r.select columns name .all =
      (r.get name).entries.map fun e => columns.map (Rows.cell name e.1 e.2) := by
  show ((r.get name).entries.filter fun _ => true).map _ = _
  rw [List.filter_true]

/-- The names of the projects whose set has a member. -/
theorem Encodes.select_contains (h : Encodes t r) (oid : String) (m : Membership) :
    r.select ["name"] .projects (.contains m.column oid) =
      (t.answer (.projectsWithOid oid m)).1.map fun name => [some (.text name)] := by
  show (r.projects.entries.filter _).map _ = ((t.projects.entries.filter _).map Prod.fst).map _
  rw [h.projects]
  unfold Table.mapEntries
  rw [List.filter_map, List.map_map, List.map_map]
  have hfilter : ∀ e : String × Members,
      Rows.selects (.contains m.column oid) e.1 (projectCells e.2) = (e.2.get m).contains oid := by
    intro e
    show (Rows.members (projectCells e.2) m.column).contains oid = _
    rw [members_projectCells]
  simp only [Function.comp_def, hfilter]
  rfl

/-- **The answer to the statement of a call is read as what the call answers on the tables**, up to
order. -/
theorem Encodes.read (h : Encodes t r) {c : Call} {s : Statement} (hs : c.statement? = some s)
    {answer : Result} (hanswer : r.Meant s answer) :
    ∃ a, c.read answer = .ok a ∧ Alike c a (t.answer c).1 := by
  cases c with
  | findOid oid =>
    obtain rfl := Option.some.inj hs
    refine ⟨(t.answer (.findOid oid)).1, ?_, rfl⟩
    rw [rows_of_key hanswer, show (r.get .oids).get? oid = _ from h.oid oid]
    show firstOf oidRowOf _ = .ok ((t.oids.get? oid).map _)
    cases t.oids.get? oid with
    | none => rfl
    | some e => rfl
  | findUser name =>
    obtain rfl := Option.some.inj hs
    refine ⟨(t.answer (.findUser name)).1, ?_, rfl⟩
    rw [rows_of_key hanswer, show (r.get .users).get? name = _ from h.user name]
    show _ = Except.ok (t.users.get? name)
    cases t.users.get? name with
    | none => rfl
    | some hash => rfl
  | allOids =>
    obtain rfl := Option.some.inj hs
    obtain ⟨rows, rfl, hrows⟩ := hanswer
    rw [select_all, show r.get .oids = _ from h.oids, Table.entries_mapEntries, List.map_map]
      at hrows
    exact mapM_perm hrows fun e => oidRowOf_cells e.1 e.2
  | allProjects =>
    obtain rfl := Option.some.inj hs
    obtain ⟨rows, rfl, hrows⟩ := hanswer
    rw [select_all, show r.get .projects = _ from h.projects, Table.entries_mapEntries,
      List.map_map] at hrows
    obtain ⟨values, hvalues, hperm⟩ := mapM_perm hrows fun e => projectRowOf_cells e.1 e.2
    exact ⟨values, hvalues, hperm.map _⟩
  | allUsers =>
    obtain rfl := Option.some.inj hs
    obtain ⟨rows, rfl, hrows⟩ := hanswer
    rw [select_all, show r.get .users = _ from h.users, Table.entries_mapEntries, List.map_map]
      at hrows
    have hread : ∀ e : String × String, nameOf [some (.text e.1)] = .ok e.1 := fun _ => rfl
    exact mapM_perm hrows hread
  | projectsWithOid oid m =>
    obtain rfl := Option.some.inj hs
    obtain ⟨rows, rfl, hrows⟩ := hanswer
    rw [h.select_contains] at hrows
    have hread : ∀ name : String, nameOf [some (.text name)] = .ok (id name) := fun _ => rfl
    obtain ⟨values, hvalues, hperm⟩ := mapM_perm hrows hread
    exact ⟨values, hvalues, hperm.trans (.of_eq (List.map_id _))⟩
  | insertPendingOid oid size =>
    obtain rfl := Option.some.inj hs
    obtain ⟨rest, rfl⟩ := hanswer
    refine ⟨_, rfl, ?_⟩
    show (!r.oids.contains oid) = (if t.oids.contains oid then (false, t) else (true, _)).1
    rw [h.contains_oid]
    cases t.oids.contains oid <;> rfl
  | insertUserIfAbsent name hash =>
    obtain rfl := Option.some.inj hs
    obtain ⟨rest, rfl⟩ := hanswer
    refine ⟨_, rfl, ?_⟩
    show (!r.users.contains name) = (if t.users.contains name then (false, t) else (true, _)).1
    rw [h.contains_user]
    cases t.users.contains name <;> rfl
  | markOidCommitted oid =>
    obtain rfl := Option.some.inj hs
    obtain ⟨rest, rfl⟩ := hanswer
    exact ⟨(), rfl, rfl⟩
  | deleteUser name =>
    obtain rfl := Option.some.inj hs
    obtain ⟨rest, rfl⟩ := hanswer
    exact ⟨(), rfl, rfl⟩
  | ensureProject | addProjectOid | removePendingProjectOid => exact ⟨(), rfl, rfl⟩
  | close => exact nomatch hs

/-! ### What statements leave -/

theorem Encodes.contains_project (h : Encodes t r) (name : String) :
    r.projects.contains name = t.projects.contains name := by
  rw [h.projects, Table.contains_mapEntries]

/-- A row of an object whose flag is cleared. -/
theorem oidCells_clear (e : OidEntry) :
    (oidCells e).insert "pending" (.flag false) = oidCells { e with pending := false } := by
  apply Table.ext_get?
  intro x
  by_cases hx : x = "pending"
  · subst hx
    simp [oidCells]
  · simp [oidCells, hx]

theorem projectCells_empty : projectCells {} = ∅ := rfl

/-- A row of a project of which one set is replaced. -/
theorem putMembers_projectCells (s : Members) (m : Membership) (names : Names) :
    Rows.putMembers (projectCells s) m.column names = projectCells
      (match m with
        | .pending => { s with pending := names }
        | .committed => { s with committed := names }) := by
  apply Table.ext_get?
  intro x
  cases m with
  | pending => by_cases hx : x = "pending" <;> simp [projectCells, Membership.column, hx]
  | committed =>
    by_cases hx : x = "oids"
    · subst hx
      simp [projectCells, Membership.column]
    · simp [projectCells, Membership.column, hx]

/-- A row of a project whose set gains a member. -/
theorem projectCells_add (s : Members) (oid : String) (m : Membership) :
    Rows.change (projectCells s) m.column (.add oid) = projectCells (s.add oid m) := by
  show Rows.putMembers (projectCells s) m.column
    ((Rows.members (projectCells s) m.column).add oid) = _
  rw [members_projectCells, putMembers_projectCells]
  cases m <;> rfl

/-- A row of a project whose pending set loses a member. -/
theorem projectCells_remove (s : Members) (oid : String) :
    Rows.change (projectCells s) "pending" (.remove oid) =
      projectCells { s with pending := s.pending.erase oid } := by
  show Rows.putMembers (projectCells s) Membership.pending.column
    ((Rows.members (projectCells s) Membership.pending.column).erase oid) = _
  rw [members_projectCells, putMembers_projectCells]
  rfl

/-- A row of an object is written as it is in the tables. -/
theorem Encodes.putOid (h : Encodes t r) (oid : String) (e : OidEntry) :
    Encodes { t with oids := t.oids.insert oid e }
      (r.put .oids (r.oids.insert oid (oidCells e))) := by
  refine ⟨?_, h.projects, h.users⟩
  show r.oids.insert oid (oidCells e) = (t.oids.insert oid e).mapEntries _
  rw [Table.mapEntries_insert, ← h.oids]

/-- A row of a project is written as it is in the tables. -/
theorem Encodes.putProject (h : Encodes t r) (name : String) (s : Members) :
    Encodes { t with projects := t.projects.insert name s }
      (r.put .projects (r.projects.insert name (projectCells s))) := by
  refine ⟨h.oids, ?_, h.users⟩
  show r.projects.insert name (projectCells s) = (t.projects.insert name s).mapEntries _
  rw [Table.mapEntries_insert, ← h.projects]

/-- A row of a user is written as it is in the tables. -/
theorem Encodes.putUser (h : Encodes t r) (name hash : String) :
    Encodes { t with users := t.users.insert name hash }
      (r.put .users (r.users.insert name (userCells hash))) := by
  refine ⟨h.oids, h.projects, ?_⟩
  show r.users.insert name (userCells hash) = (t.users.insert name hash).mapEntries _
  rw [Table.mapEntries_insert, ← h.users]

/-- The row of a project that may be there, as a statement finds it. -/
theorem Encodes.project_getD (h : Encodes t r) (name : String) :
    (r.projects.get? name).getD ∅ = projectCells (t.members name) := by
  rw [h.project]
  unfold Tables.members
  cases t.projects.get? name with
  | none => exact projectCells_empty.symm
  | some s => rfl

/-- **The statement of a call makes of the rows what the call makes of the tables.** -/
theorem Encodes.execute (h : Encodes t r) {c : Call} {s : Statement}
    (hs : c.statement? = some s) : Encodes (t.answer c).2 (r.execute s).2 := by
  cases c with
  | findOid | allOids | projectsWithOid | allProjects | findUser | allUsers =>
    obtain rfl := Option.some.inj hs
    exact h
  | insertPendingOid oid size =>
    obtain rfl := Option.some.inj hs
    show Encodes (if t.oids.contains oid then (false, t) else (true, _)).2
      (if r.oids.contains oid then (_, r) else (_, r.put .oids (r.oids.insert oid
        ((((r.oids.get? oid).getD ∅).insert "size" (.int size)).insert "pending" (.flag true))))).2
    rw [h.contains_oid, h.oid]
    cases hrow : t.oids.contains oid with
    | true => exact h
    | false =>
      rw [Table.contains_eq_false.mp hrow]
      exact h.putOid oid ⟨size, true⟩
  | insertUserIfAbsent name hash =>
    obtain rfl := Option.some.inj hs
    show Encodes (if t.users.contains name then (false, t) else (true, _)).2
      (if r.users.contains name then (_, r) else (_, r.put .users (r.users.insert name
        (((r.users.get? name).getD ∅).insert "password" (.text hash))))).2
    rw [h.contains_user, h.user]
    cases hrow : t.users.contains name with
    | true => exact h
    | false =>
      rw [Table.contains_eq_false.mp hrow]
      exact h.putUser name hash
  | markOidCommitted oid =>
    obtain rfl := Option.some.inj hs
    show Encodes { t with oids := t.oids.modify oid _ }
      (if r.oids.contains oid then (_, r.put .oids (r.oids.insert oid
        (((r.oids.get? oid).getD ∅).insert "pending" (.flag false)))) else (_, r)).2
    rw [h.contains_oid, h.oid]
    unfold Table.modify Table.contains
    cases t.oids.get? oid with
    | none => exact h
    | some e =>
      rw [Option.map_some, Option.getD_some, oidCells_clear]
      exact h.putOid oid { e with pending := false }
  | deleteUser name =>
    obtain rfl := Option.some.inj hs
    refine ⟨h.oids, h.projects, ?_⟩
    show r.users.erase name = (t.users.erase name).mapEntries _
    rw [Table.mapEntries_erase, h.users]
  | ensureProject name =>
    obtain rfl := Option.some.inj hs
    show Encodes _ (r.put .projects (r.projects.insert name ((r.projects.get? name).getD ∅)))
    rw [h.project_getD]
    exact h.putProject name (t.members name)
  | addProjectOid name oid m =>
    obtain rfl := Option.some.inj hs
    show Encodes _ (if r.projects.contains name || true then (_, r.put .projects
      (r.projects.insert name (Rows.change ((r.projects.get? name).getD ∅) m.column (.add oid))))
        else (_, r)).2
    rw [Bool.or_true, h.project_getD, projectCells_add]
    exact h.putProject name ((t.members name).add oid m)
  | removePendingProjectOid name oid =>
    obtain rfl := Option.some.inj hs
    show Encodes { t with projects := t.projects.modify name _ }
      (if r.projects.contains name || false then (_, r.put .projects (r.projects.insert name
        (Rows.change ((r.projects.get? name).getD ∅) "pending" (.remove oid)))) else (_, r)).2
    rw [h.contains_project, h.project]
    unfold Table.modify Table.contains
    cases t.projects.get? name with
    | none => exact h
    | some s =>
      rw [Option.map_some, Option.getD_some, projectCells_remove]
      exact h.putProject name { s with pending := s.pending.erase oid }
  | close => exact nomatch hs

variable {k k' : Keyspace}

/-- A row of a keyspace that has a value or lasts is what the statement makes of it. -/
theorem Keyspace.Executes.row {s : Statement} (h : k.Executes s k') (name : TableName)
    (key : String)
    (hstays : ((k.rows.execute s).2.get name).get? key = some ∅ → k'.lasting name key) :
    (k'.rows.get name).get? key = ((k.rows.execute s).2.get name).get? key :=
  (h.rows name key).resolve_right fun hgone => hgone.2.2 (hstays hgone.2.1)

theorem oidCells_ne_empty (e : OidEntry) : oidCells e ≠ ∅ := fun h => by
  have hvalue : (oidCells e).get? "pending" = none := by rw [h]; rfl
  simp [oidCells] at hvalue

theorem userCells_ne_empty (hash : String) : userCells hash ≠ ∅ := fun h => by
  have hvalue : (userCells hash).get? "password" = none := by rw [h]; rfl
  simp [userCells] at hvalue

/-- The projects after a call have been inserted. -/
theorem Stores.lasting_after (h : Stores t k) (hopen : t.closed = false) {c : Call}
    (hfits : Fits t c) {s : Statement} (hs : c.statement? = some s) (hk : k.Executes s k')
    {name : String} (hname : (t.answer c).2.projects.contains name = true) :
    k'.lasting .projects name := by
  have hkept : t.projects.contains name = true → k'.lasting .projects name := by
    intro hthere
    refine hk.lasting _ _ (h.lasting name hthere) ?_
    rintro rfl
    cases c <;> simp [Call.statement?] at hs
  rcases (project_answer_iff hopen).mp hname with (rfl | ⟨oid, m, rfl⟩) | hthere
  · exact hk.inserted .projects name [] false (Option.some.inj hs).symm (by simp)
  · exact hkept hfits
  · exact hkept hthere

/-- **What a statement of a call leaves stores the tables that the call leaves.** -/
theorem Stores.executes (h : Stores t k) (hopen : t.closed = false) {c : Call} (hfits : Fits t c)
    {s : Statement} (hs : c.statement? = some s) (hk : k.Executes s k') :
    Stores (t.answer c).2 k' := by
  have hrows := h.encodes.execute hs
  have hlasting : ∀ name, (t.answer c).2.projects.contains name = true →
      k'.lasting .projects name := fun name hname => h.lasting_after hopen hfits hs hk hname
  refine ⟨⟨?_, ?_, ?_⟩, hlasting⟩
  · rw [← hrows.oids]
    refine Table.ext_get? fun oid => hk.row .oids oid fun hempty => ?_
    obtain ⟨e, -, hcells⟩ := Option.map_eq_some_iff.mp ((hrows.oid oid).symm.trans hempty)
    exact absurd hcells (oidCells_ne_empty e)
  · rw [← hrows.projects]
    refine Table.ext_get? fun name => hk.row .projects name fun hempty => hlasting name ?_
    obtain ⟨s, hs, -⟩ := Option.map_eq_some_iff.mp ((hrows.project name).symm.trans hempty)
    exact Table.contains_iff.mpr ⟨s, hs⟩
  · rw [← hrows.users]
    refine Table.ext_get? fun name => hk.row .users name fun hempty => ?_
    obtain ⟨hash, -, hcells⟩ := Option.map_eq_some_iff.mp ((hrows.user name).symm.trans hempty)
    exact absurd hcells (userCells_ne_empty hash)

end

/-! ### Connections to a server -/

section

variable {σ : Type} {service : Service σ Ask Ask.Reply} {shows : σ → Keyspace → Prop}

/-- A connection goes with tables that its server stores, open or closed like them. -/
def Link.Shows (shows : σ → Keyspace → Prop) (n : Link σ) (t : Tables) : Prop :=
  n.closed = t.closed ∧ ∃ k, shows n.server k ∧ Stores t k

/-- **A connection to a server mirrors the tables.** -/
theorem mirrors (h : Serves service shows) : Mirrors (Link.step service) (Link.Shows shows) := by
  have hstep : ∀ {n : Link σ} {t : Tables} {c : Call}, Link.Shows shows n t → Fits t c →
      AlikeReply c (n.step service c).1 (t.step c).1 ∧
        Link.Shows shows (n.step service c).2 (t.step c).2 := by
    intro n t c ⟨hclosed, k, hk, hstores⟩ hfits
    by_cases hc : c = .close
    · subst hc
      have hclose : t.step .close = (.ok (), { t with closed := true }) := by
        unfold Tables.step
        cases t.closed <;> rfl
      rw [hclose]
      exact ⟨rfl, rfl, k, hk, ⟨hstores.encodes.oids, hstores.encodes.projects,
        hstores.encodes.users⟩, hstores.lasting⟩
    · cases hopen : t.closed with
      | true =>
        rw [Link.step_of_closed (hclosed.trans hopen) hc, Tables.step_of_closed hopen hc]
        exact ⟨rfl, hclosed, k, hk, hstores⟩
      | false =>
        rw [Link.step_of_open (hclosed.trans hopen) hc, Tables.step_of_open hopen]
        have hs : ∃ s, c.statement? = some s := by
          cases c <;> first | exact ⟨_, rfl⟩ | exact absurd rfl hc
        obtain ⟨s, hs⟩ := hs
        obtain ⟨answer, n', k', hanswer, hmeant, hexecutes, hk'⟩ := h c s hs n.server k hk
        obtain ⟨a, hread, halike⟩ := hstores.encodes.read hs hmeant
        rw [hanswer]
        constructor
        · show AlikeReply c (c.read answer) _
          rw [hread]
          exact halike
        · have hstays := Tables.closed_step (t := t) hc
          rw [Tables.step_of_open hopen] at hstays
          exact ⟨hclosed.trans hstays.symm, k', hk', hstores.executes hopen hfits hs hexecutes⟩
  exact ⟨fun hR hfits => (hstep hR hfits).1, fun hR hfits => (hstep hR hfits).2⟩

end

/-! ### A cluster in memory serves -/

/-- A cluster in memory answers what a statement means. -/
theorem Rows.meant_execute (r : Rows) (s : Statement) : r.Meant s (r.execute s).1 := by
  cases s with
  | select columns t filter => exact ⟨_, rfl, List.reverse_perm _⟩
  | delete t key => exact ⟨[], rfl⟩
  | insert t key fields ifAbsent =>
    cases ifAbsent with
    | false => trivial
    | true =>
      show ∃ rest, (if (r.get t).contains key then (applied false, r) else (applied true, _)).1 = _
      cases (r.get t).contains key <;> exact ⟨[], rfl⟩
  | update t column change key ifPresent =>
    cases ifPresent with
    | false => trivial
    | true =>
      show ∃ rest, (if (r.get t).contains key then (applied true, _) else (applied false, r)).1 = _
      cases (r.get t).contains key <;> exact ⟨[], rfl⟩
  | createKeyspace | use | createTable | createIndex => trivial

/-- A cluster in memory in which nothing goes wrong and whose answers are one page shows its rows,
each of which stays. -/
def Cluster.Shows (n : Cluster) (k : Keyspace) : Prop :=
  n.misanswers = [] ∧ n.pageRows = 0 ∧ k = ⟨n.rows, fun _ _ => True⟩

/-- Such a cluster serves. -/
theorem Cluster.serves : Serves Cluster.step Cluster.Shows := by
  rintro c s hs n k ⟨hplans, hpages, rfl⟩
  have hasked : ∃ n', eval Cluster.step c.asked n = (.ok (n.rows.execute s).1, n') ∧
      n'.misanswers = [] ∧ n'.pageRows = 0 ∧ n'.rows = (n.rows.execute s).2 := by
    unfold Call.asked
    rw [hs]
    show ∃ n', eval Cluster.step (if c.readsAll then executeAll s else Column.execute s) n = _ ∧ _
    have hstep := execute_of_unplanned hplans s
    cases c.readsAll with
    | true =>
      show ∃ n', Cluster.step n (.all s) = _ ∧ _
      unfold Cluster.step
      simp only [hstep]
      exact ⟨_, rfl, hplans, hpages, rfl⟩
    | false =>
      show ∃ n', ((n.execute s).1.map (firstPage (n.execute s).2.pageRows), (n.execute s).2) = _ ∧ _
      rw [hstep]
      refine ⟨_, Prod.ext ?_ rfl, hplans, hpages, rfl⟩
      show Except.ok (firstPage n.pageRows _) = Except.ok _
      rw [hpages]
      cases (n.rows.execute s).1 <;> rfl
  obtain ⟨n', hanswer, hplans', hpages', hrows'⟩ := hasked
  refine ⟨_, n', ⟨n'.rows, fun _ _ => True⟩, hanswer, Rows.meant_execute _ _, ⟨fun t key => ?_,
    fun _ _ _ _ _ _ => trivial, fun _ _ _ _ => trivial⟩, hplans', hpages', rfl⟩
  left
  rw [hrows']

end Column

namespace Backend

open Credential (Gate)
open Registry (Operation)

/-- Operations over column tables in memory, by the steps over the tables. -/
theorem performAll_column (gate : Gate) (ops : List Operation) {s : Column.Session}
    (h : s.script = {}) :
    (performAll gate ops (.column s)).1 =
      (Column.storage.performAll gate Column.Tables.step ops s.tables).1 := by
  induction ops generalizing s with
  | nil => rfl
  | cons op ops ih =>
    obtain ⟨houtcome, htables, hscript⟩ :=
      Column.run_unscripted (Column.storage.run gate op).run h
    refine List.cons_eq_cons.mpr ⟨houtcome, (ih hscript).trans ?_⟩
    rw [htables]

/-- Operations over a cluster in memory, by the calls over a connection to a server. -/
theorem performAll_cluster (gate : Gate) (ops : List Operation) (n : Column.Connection) :
    (performAll gate ops (.cluster n)).1 =
      (Column.storage.performAll gate (Column.Link.step Column.Cluster.step) ops n.link).1 := by
  induction ops generalizing n with
  | nil => rfl
  | cons op ops ih =>
    have hrun := Column.Connection.run_eq (Column.storage.run gate op).run n
    refine List.cons_eq_cons.mpr ⟨congrArg Prod.fst hrun, (ih _).trans ?_⟩
    exact congrArg (fun n : Column.Connection =>
      (Column.storage.performAll gate (Column.Link.step Column.Cluster.step) ops n.link).1)
      (congrArg Prod.snd hrun)

/-- **Over a connection to a server operations have the outcomes that they have over column tables
in memory**, if the server answers each statement that it is sent by what it means and holds no rows
at first. It can tell the statements of all calls by their texts and the values that are sent with
them. -/
theorem outcomes_over_server {σ : Type} {service : Service σ Column.Ask Column.Ask.Reply}
    {shows : σ → Column.Keyspace → Prop} (h : Column.Serves service shows) {server : σ}
    {k : Column.Keyspace} (hk : shows server k) (hempty : k.rows = {}) (gate : Gate)
    (ops : List Operation) :
    (Column.storage.performAll gate (Column.Link.step service) ops ⟨server, false⟩).1 =
        (performAll gate ops (.column {})).1 ∧
      ∀ (c c' : Column.Call) (s s' : Column.Statement), c.statement? = some s →
        c'.statement? = some s' → s.text = s'.text → s.values = s'.values → c = c' := by
  refine ⟨?_, fun c c' s s' hs hs' htext hvalues => Column.Call.eq_of_text hs hs' htext hvalues⟩
  have hstores : Column.Stores {} k := by
    refine ⟨?_, fun name hname => nomatch (show false = true from hname)⟩
    rw [hempty]
    exact ⟨rfl, rfl, rfl⟩
  rw [performAll_column gate ops rfl]
  exact (Column.mirrors h).stepsMatch.performAll gate ops ⟨rfl, k, hk, hstores⟩

/-- A visit to a new cluster in memory, which is left closed, goes as one to new column tables. -/
theorem visit_over_cluster :
    Column.Serves Column.Cluster.step Column.Cluster.Shows ∧
      Column.Cluster.Shows {} ⟨{}, fun _ _ => True⟩ ∧
      (performAll .everyone (visit ++ [.close, .objects]) (.cluster ⟨{}, false⟩)).1 =
        (performAll .everyone (visit ++ [.close, .objects]) (.column {})).1 := by
  have hshows : Column.Cluster.Shows {} ⟨{}, fun _ _ => True⟩ := ⟨rfl, rfl, rfl⟩
  refine ⟨Column.Cluster.serves, hshows, ?_⟩
  rw [performAll_cluster]
  exact (outcomes_over_server Column.Cluster.serves hshows rfl .everyone _).1

end Backend

end Depot
