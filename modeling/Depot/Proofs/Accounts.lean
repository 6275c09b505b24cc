import Depot.Proofs.Column.Lifecycle
import Depot.Proofs.Column.Server
import Depot.Proofs.Embedded.Lifecycle
import Depot.Proofs.Gate
import Depot.Proofs.Registry.Accounts
import Depot.Proofs.Traceless

/-!
# Accounts over every kind of storage

Each kind of storage has one call that inserts a password hash unless there is one, and one that
deletes it; no other call touches the users. So additions and deletions may go on side by side over
each of them, a call at a time: who is first since the last deletion has the account.

Headlines
* **`users_transact`**, **`users_answer`**: what a call makes of the users.
* **`keeps_accounts`**: each kind of storage keeps accounts.
* **`account_of_first_addition`**: the entry of a user in every run over every kind of storage.
-/

namespace Depot

open Registry

/-! ### Transactions -/

namespace Embedded

/-- The edit that a transaction makes. -/
def Call.edit? : Call → Option Edit
  | .insertUser name hash => some (.add name hash)
  | .deleteUser name => some (.remove name)
  | _ => none

/-- The accounts of an open database. -/
def accounts : AccountTable Database Call where
  valid d := d.closed = false
  entry d user := d.tables.users.get? user
  edit? := Call.edit?
  close := .close

/-- A transaction makes of the users what its edit does. -/
theorem users_transact {t u : Tables} {c : Call} {a : c.Answer} (h : t.transact c = .ok (a, u)) :
    u.users = c.edit?.elim t.users (Edit.onTable t.users) := by
  cases c with
  | passwordHash | userNames | close =>
    cases h
    rfl
  | findObject oid | allProjects | allObjects =>
    rw [tables_of_map h]
    rfl
  | insertUser name hash =>
    cases h
    simp only [Call.edit?, Option.elim, Edit.onTable, Tables.insertUser]
    split <;> rfl
  | deleteUser name =>
    cases h
    rfl
  | insertProject name =>
    cases h
    exact (ensureProject_spec t name).2.1
  | register o =>
    rcases Tables.register_cases h with ⟨-, rfl⟩ | ⟨-, -, rfl⟩
    · rfl
    · exact (foldl_ensureProject ..).2.1
  | commit oid =>
    rcases Tables.commit_cases h with ⟨-, rfl⟩ | ⟨_, _, -, -, -, rfl⟩
    · rfl
    · rfl

/-- An edit does not fail over an open database. -/
theorem step_of_edit {d : Database} (hopen : d.closed = false) {c : Call} {e : Edit}
    (he : c.edit? = some e) : ∃ a, (d.step c).1 = .ok a := by
  cases c with
  | insertUser name hash =>
    exact ⟨(), congrArg Prod.fst (Database.step_of_ok hopen (c := .insertUser name hash) nofun rfl)⟩
  | deleteUser name =>
    exact ⟨(), congrArg Prod.fst (Database.step_of_ok hopen (c := .deleteUser name) nofun rfl)⟩
  | passwordHash | findObject | register | commit | userNames | insertProject | allProjects
  | allObjects | close => exact nomatch he

/-- Only the addition and the deletion of an account edit the accounts. -/
theorem steps_own {op : Operation} (hop : op ≠ .close) : storage.StepsOwn op (accounts.Owns op) :=
  have hnone : ∀ c : Call, c ≠ .close → c.edit? = none → accounts.Owns op c :=
    fun _ hc he => AccountTable.owns_of_none (a := accounts) hc he
  { passwordHash user := Program.makes_perform (hnone (.passwordHash user) nofun rfl)
    find oid := makes_transaction (hnone (.findObject oid) nofun rfl)
    register r _ := makes_map (makes_transaction (hnone (.register r.pendingObject) nofun rfl)) _
    commit r _ := makes_transaction (hnone (.commit r.oid) nofun rfl)
    insertUser _ password salt hadd :=
      makes_transaction (AccountTable.owns_of_edit nofun rfl ⟨password, salt, hadd, rfl⟩)
    deleteUser _ hdelete := makes_transaction (AccountTable.owns_of_edit nofun rfl hdelete)
    userNames := makes_transaction (hnone .userNames nofun rfl)
    ensureProject name _ := makes_transaction (hnone (.insertProject name) nofun rfl)
    projects := makes_transaction (hnone .allProjects nofun rfl)
    objects := makes_map (makes_transaction (hnone .allObjects nofun rfl)) _
    close hclose := absurd hclose hop }

/-- **A database keeps its accounts.** -/
theorem keeps_accounts : accounts.Keeps storage Database.step where
  own := steps_own
  valid {d c} hopen hc := by
    rcases d.step_cases hc with ⟨e, -, hstep⟩ | ⟨a, t, -, hstep⟩
    · rw [hstep]
      exact hopen
    · rw [hstep]
      exact hopen
  entry {d c} hopen hc user := by
    rcases d.step_cases hc with ⟨e, -, hstep⟩ | ⟨a, t, htransact, hstep⟩
    · rw [hstep]
      cases he : c.edit? with
      | none => exact (congrArg (Option.elim · _ _) he).symm
      | some edit =>
        obtain ⟨a, ha⟩ := step_of_edit hopen he
        exact nomatch ha.symm.trans (congrArg Prod.fst hstep)
    · rw [hstep]
      refine (congrArg (Table.get? · user) (users_transact htransact)).trans ?_
      exact Edit.get?_elim_onTable d.tables.users c.edit? user
  lookup {d} hopen user := Backend.lookup_of_accounts (b := .embedded d) ⟨hopen, rfl⟩ user
  listed {d} hopen := by
    refine ⟨d.tables.users.keys, ?_, d.tables.users.keys_ascending, fun _ => Table.mem_keys_iff⟩
    exact congrArg Prod.fst (Database.step_of_ok hopen (c := .userNames) nofun rfl)

end Embedded

namespace Relational

/-- The edit that a transaction makes. -/
def Call.edit? : Call → Option Edit
  | .insertUser name hash => some (.add name hash)
  | .deleteUser name => some (.remove name)
  | _ => none

/-- The accounts of a database with open connections. -/
def accounts : AccountTable Database Call where
  valid d := d.closed = false
  entry d user := d.tables.users.get? user
  edit? := Call.edit?
  close := .close

/-- A transaction makes of the users what its edit does. -/
theorem users_transact (t : Tables) (c : Call) :
    (t.transact c).2.users = c.edit?.elim t.users (Edit.onTable t.users) := by
  cases c with
  | insertUser name hash =>
    simp only [Call.edit?, Option.elim, Edit.onTable, Tables.transact, Tables.insertUser]
    split <;> rfl
  | insertProject name =>
    change (t.insertProject name).users = t.users
    rw [insertProject_eq]
  | register o => exact users_register t o
  | passwordHash | findObject | commit | deleteUser | userNames | projectNames | committedObjects
  | committedMembership | close => rfl

/-- Only the addition and the deletion of an account edit the accounts. -/
theorem edits_own {op : Operation} (hop : op ≠ .close) : storage.StepsOwn op (accounts.Owns op) :=
  have hnone : ∀ c : Call, c ≠ .close → c.edit? = none → accounts.Owns op c :=
    fun _ hc he => AccountTable.owns_of_none (a := accounts) hc he
  { passwordHash user := Program.makes_perform (hnone (.passwordHash user) nofun rfl)
    find oid := makes_transaction (hnone (.findObject oid) nofun rfl)
    register r _ := makes_transaction (hnone (.register r.pendingObject) nofun rfl)
    commit r _ := makes_transaction (hnone (.commit r.oid) nofun rfl)
    insertUser _ password salt hadd :=
      makes_transaction (AccountTable.owns_of_edit nofun rfl ⟨password, salt, hadd, rfl⟩)
    deleteUser _ hdelete := makes_transaction (AccountTable.owns_of_edit nofun rfl hdelete)
    userNames := makes_transaction (hnone .userNames nofun rfl)
    ensureProject name _ := makes_transaction (hnone (.insertProject name) nofun rfl)
    projects := makes_bind (makes_transaction (hnone .projectNames nofun rfl)) fun _ =>
      makes_map (makes_transaction (hnone .committedMembership nofun rfl)) _
    objects := makes_bind (makes_transaction (hnone .committedObjects nofun rfl)) fun _ =>
      makes_map (makes_transaction (hnone .committedMembership nofun rfl)) _
    close hclose := absurd hclose hop }

/-- **A database keeps its accounts.** -/
theorem keeps_accounts : accounts.Keeps storage Database.step where
  own := edits_own
  valid {d c} hopen hc := by
    rw [Database.step_of_open hopen hc]
    exact hopen
  entry {d c} hopen hc user := by
    rw [Database.step_of_open hopen hc]
    refine (congrArg (Table.get? · user) (users_transact d.tables c)).trans ?_
    exact Edit.get?_elim_onTable d.tables.users c.edit? user
  lookup {d} hopen user := Backend.lookup_of_accounts (b := .relational d) ⟨hopen, rfl⟩ user
  listed {d} hopen := by
    refine ⟨d.tables.users.keys, ?_, d.tables.users.keys_ascending, fun _ => Table.mem_keys_iff⟩
    exact congrArg Prod.fst (Database.step_of_open hopen (c := .userNames) nofun)

end Relational

/-! ### Statements -/

namespace Column

/-- The edit that a statement makes. -/
def Call.edit? : Call → Option Edit
  | .insertUserIfAbsent name hash => some (.add name hash)
  | .deleteUser name => some (.remove name)
  | _ => none

/-- The accounts of open tables. -/
def accounts : AccountTable Tables Call where
  valid t := t.closed = false
  entry t user := t.users.get? user
  edit? := Call.edit?
  close := .close

/-- The password hash in the row of a user. -/
def hashCell (row : Row) : Option String := ((textCell (row.get? "password")).toOption)

/-- The accounts of an open connection to a cluster that answers right and whose rows store
tables. -/
def clusterAccounts : AccountTable Connection Call where
  valid n := n.closed = false ∧ n.cluster.misanswers = [] ∧ ∃ t, Encodes t n.cluster.rows
  entry n user := (n.cluster.rows.users.get? user).bind hashCell
  edit? := Call.edit?
  close := .close

/-- A statement makes of the users what its edit does. -/
theorem users_answer (t : Tables) (c : Call) :
    (t.answer c).2.users = c.edit?.elim t.users (Edit.onTable t.users) := by
  cases c with
  | insertUserIfAbsent name hash =>
    simp only [Call.edit?, Option.elim, Edit.onTable, Tables.answer]
    split <;> rfl
  | insertPendingOid oid size =>
    simp only [Call.edit?, Option.elim, Tables.answer]
    split <;> rfl
  | findOid | markOidCommitted | allOids | ensureProject | addProjectOid | removePendingProjectOid
  | projectsWithOid | allProjects | findUser | deleteUser | allUsers | close => rfl

/-- Only the addition and the deletion of an account edit the accounts. -/
theorem edits_own {op : Operation} (hop : op ≠ .close) : storage.StepsOwn op (accounts.Owns op) :=
  have hnone : ∀ c : Call, c ≠ .close → c.edit? = none → accounts.Owns op c :=
    fun _ hc he => AccountTable.owns_of_none (a := accounts) hc he
  have hrecords : ∀ {other : Operation} (c : Call), Records other c → accounts.Owns op c := by
    intro other c hc
    cases c with
    | findUser | insertUserIfAbsent | deleteUser | allUsers | close => exact hc.2.elim
    | findOid | insertPendingOid | markOidCommitted | allOids | ensureProject | addProjectOid
    | removePendingProjectOid | projectsWithOid | allProjects => exact hnone _ nofun rfl
  have hadds : ∀ name password salt, op = .addUser name password salt → accounts.Owns op
      (.insertUserIfAbsent name (Credential.Password.hash salt password)) :=
    fun _ password salt hadd => AccountTable.owns_of_edit nofun rfl ⟨password, salt, hadd, rfl⟩
  { passwordHash user := Program.makes_perform (hnone (.findUser user) nofun rfl)
    find oid := (makes_findObject oid).mono (@hrecords op)
    register r _ := (makes_register r).mono hrecords
    commit r _ := (makes_commit r).mono hrecords
    insertUser name password salt hadd := makes_map (makes_statement (hadds name password salt hadd)) _
    deleteUser _ hdelete := makes_statement (AccountTable.owns_of_edit nofun rfl hdelete)
    userNames := makes_map (makes_statement (hnone .allUsers nofun rfl)) _
    ensureProject name _ := makes_statement (hnone (.ensureProject name) nofun rfl)
    projects := makes_map (makes_statement (hnone .allProjects nofun rfl)) _
    objects := makes_bind (makes_statement (hnone .allProjects nofun rfl)) fun _ =>
      makes_map (makes_statement (hnone .allOids nofun rfl)) _
    close hclose := absurd hclose hop }

/-- **Column tables keep their accounts.** -/
theorem keeps_accounts : accounts.Keeps storage Tables.step where
  own := edits_own
  valid {t c} hopen hc := (Tables.closed_step hc).trans hopen
  entry {t c} hopen hc user := by
    rw [Tables.step_of_open hopen]
    refine (congrArg (Table.get? · user) (users_answer t c)).trans ?_
    exact Edit.get?_elim_onTable t.users c.edit? user
  lookup {t} hopen user := by
    change (t.step (.findUser user)).1 = _
    rw [Tables.step_of_open hopen]
    rfl
  listed {t} hopen := by
    refine ⟨t.users.keys, ?_, t.users.keys_ascending, fun _ => Table.mem_keys_iff⟩
    have hlist : eval Tables.step (statement .allUsers) t = (.ok t.users.keys, t) :=
      Tables.step_of_open hopen .allUsers
    refine (congrArg Prod.fst (eval_bind_of_ok hlist)).trans ?_
    exact congrArg Except.ok (sortNames_of_ascending t.users.keys_ascending)

/-! ### Statements on a cluster -/

/-- The hash in the row of a user is the one in the tables that the rows store. -/
theorem Encodes.hash {t : Tables} {r : Rows} (h : Encodes t r) (user : String) :
    (r.users.get? user).bind hashCell = t.users.get? user := by
  rw [h.user]
  cases t.users.get? user with
  | none => rfl
  | some hash => rfl

/-- A statement over an open connection to a cluster that answers right is executed and its answer
read. -/
theorem Connection.step_of_right {n : Connection} (hopen : n.closed = false)
    (hplans : n.cluster.misanswers = []) {c : Call} (hc : c ≠ .close) :
    ∃ st pageRows, c.statement? = some st ∧ (c.readsAll = true → pageRows = 0) ∧
      (n.step c).1 = c.read (Cluster.firstPage pageRows (n.cluster.rows.execute st).1) ∧
      (n.step c).2.closed = false ∧ (n.step c).2.cluster.misanswers = [] ∧
      (n.step c).2.cluster.rows = (n.cluster.rows.execute st).2 := by
  have hright : n.cluster.OnlyFails False := by
    intro m hm
    rw [hplans] at hm
    exact nomatch hm
  obtain ⟨st, hst, hright', hopen', ⟨hfalse, -⟩ | ⟨pageRows, hpages, hread, hrows⟩⟩ :=
    step_cases hopen hright hc
  · exact hfalse.elim
  · refine ⟨st, pageRows, hst, hpages, hread, hopen', ?_, hrows⟩
    exact List.eq_nil_iff_forall_not_mem.mpr fun m hm => (hright' m hm).2

/-- **A cluster keeps its accounts.** -/
theorem cluster_keeps_accounts : clusterAccounts.Keeps storage Connection.step where
  own := edits_own
  valid {n c} hn hc := by
    obtain ⟨hopen, hplans, t, ht⟩ := hn
    obtain ⟨st, -, hst, -, -, hopen', hplans', hrows⟩ := Connection.step_of_right hopen hplans hc
    exact ⟨hopen', hplans', (t.answer c).2, hrows ▸ ht.execute hst⟩
  entry {n c} hn hc user := by
    obtain ⟨hopen, hplans, t, ht⟩ := hn
    obtain ⟨st, -, hst, -, -, -, -, hrows⟩ := Connection.step_of_right hopen hplans hc
    have hafter : clusterAccounts.entry (n.step c).2 user = (t.answer c).2.users.get? user := by
      simp only [clusterAccounts, hrows]
      exact (ht.execute hst).hash user
    rw [hafter, users_answer, Edit.get?_elim_onTable, ← ht.hash]
    rfl
  lookup {n} hn user := by
    obtain ⟨hopen, hplans, t, ht⟩ := hn
    have haccounts : (Backend.cluster n).Accounts t.users := by
      refine ⟨hopen, hplans, fun name => ?_⟩
      rw [ht.user, Option.map_map]
      rfl
    exact (Backend.lookup_of_accounts haccounts user).trans (congrArg Except.ok (ht.hash user).symm)
  listed {n} hn := by
    obtain ⟨hopen, hplans, t, ht⟩ := hn
    obtain ⟨st, pageRows, hst, hpages, hread, -⟩ :=
      Connection.step_of_right hopen hplans (c := .allUsers) nofun
    obtain rfl := hpages rfl
    have hall : Cluster.firstPage 0 (n.cluster.rows.execute st).1 = (n.cluster.rows.execute st).1 := by
      cases (n.cluster.rows.execute st).1 with
      | nothing | entered | rows => rfl
    rw [hall] at hread
    obtain ⟨names, hnames, hperm⟩ := ht.read hst (n.cluster.rows.meant_execute st)
    have hlist : eval Connection.step (statement .allUsers) n =
        (.ok names, (n.step .allUsers).2) := Prod.ext (hread.trans hnames) rfl
    refine ⟨t.users.keys, ?_, t.users.keys_ascending, fun user => ?_⟩
    · refine (congrArg Prod.fst (eval_bind_of_ok hlist)).trans (congrArg Except.ok ?_)
      exact (sortNames_eq_of_perm hperm).trans (sortNames_of_ascending t.users.keys_ascending)
    · exact Table.mem_keys_iff.trans (by rw [← ht.hash]; rfl)

end Column

/-! ### Every kind of storage -/

/-- **The account of a name is that of the first addition since the last deletion.** Over every kind
of storage that is open and has no users at first, in every run that closes nothing, however the
look-ups, insertions and deletions of its operations come between each other and whichever of them
fail: the entry of a user is at each time the hash that the first addition has inserted since the
last deletion, and there is none otherwise; it is never overwritten. A header with credentials
passes the gate exactly when they belong to such an entry, and the listing of users has just the
names with one. -/
theorem account_of_first_addition {turns : List (Turn Operation Breakdown)}
    (hopen : .start .close ∉ turns) :
    (∀ d : Embedded.Database, d.closed = false → d.tables.users = ∅ →
      Accounting Embedded.accounts turns
        ((operations Embedded.storage .internal Embedded.Database.step).reached d turns)
        Embedded.storage Embedded.Database.step) ∧
    (∀ d : Relational.Database, d.closed = false → d.tables.users = ∅ →
      Accounting Relational.accounts turns
        ((operations Relational.storage .internal Relational.Database.step).reached d turns)
        Relational.storage Relational.Database.step) ∧
    (∀ t : Column.Tables, t.closed = false → t.users = ∅ →
      Accounting Column.accounts turns
        ((operations Column.storage .internal Column.Tables.step).reached t turns)
        Column.storage Column.Tables.step) ∧
    ∀ (n : Column.Connection) (t : Column.Tables), n.closed = false → n.cluster.misanswers = [] →
      Column.Encodes t n.cluster.rows → t.users = ∅ →
      Accounting Column.clusterAccounts turns
        ((operations Column.storage .internal Column.Connection.step).reached n turns)
        Column.storage Column.Connection.step := by
  have hnone : ∀ {users : Table String String}, users = ∅ → ∀ user, users.get? user = none := by
    rintro users rfl user
    rfl
  refine ⟨fun d hd husers => ?_, fun d hd husers => ?_, fun t ht husers => ?_,
    fun n t hn hplans ht husers => ?_⟩
  · exact Embedded.keeps_accounts.accounting hopen hd (hnone husers)
  · exact Relational.keeps_accounts.accounting hopen hd (hnone husers)
  · exact Column.keeps_accounts.accounting hopen ht (hnone husers)
  · exact Column.cluster_keeps_accounts.accounting hopen ⟨hn, hplans, t, ht⟩ fun user =>
      (ht.hash user).trans (hnone husers user)

/-- Two additions of one account that both find none, of which the one that was started later
inserts first; a deletion; and a third addition, whose confirmation is lost. -/
def rivalry : List (Turn Operation Breakdown) :=
  [.start (.addUser "ada" "early" [1]), .start (.addUser "ada" "late" [2]), .call 0 .answered,
    .call 1 .answered, .call 1 .answered, .call 0 .answered, .start (.deleteUser "ada"),
    .call 2 .answered, .start (.addUser "ada" "new" [3]), .call 3 .answered,
    .call 3 (.unconfirmed (.reported "timeout"))]

theorem rivalry_accounted :
    .start .close ∉ rivalry ∧
    (let after := (operations Embedded.storage .internal Embedded.Database.step).reached {} rivalry
    Accounting Embedded.accounts rivalry after Embedded.storage Embedded.Database.step ∧
      Embedded.accounts.entry (after 6).state "ada" =
        some (Credential.Password.hash [2] "late") ∧
      Embedded.accounts.entry (after 8).state "ada" = none ∧
      Embedded.accounts.entry (after 11).state "ada" =
        some (Credential.Password.hash [3] "new")) ∧
    Accounting Relational.accounts rivalry
      ((operations Relational.storage .internal Relational.Database.step).reached {} rivalry)
      Relational.storage Relational.Database.step ∧
    Accounting Column.accounts rivalry
      ((operations Column.storage .internal Column.Tables.step).reached {} rivalry)
      Column.storage Column.Tables.step ∧
    Accounting Column.clusterAccounts rivalry
      ((operations Column.storage .internal Column.Connection.step).reached ⟨{}, false⟩ rivalry)
      Column.storage Column.Connection.step := by
  have hopen : .start .close ∉ rivalry := by simp [rivalry]
  obtain ⟨hembedded, hrelational, hcolumn, hcluster⟩ := account_of_first_addition hopen
  exact ⟨hopen, ⟨hembedded {} rfl rfl, rfl, rfl, rfl⟩, hrelational {} rfl rfl, hcolumn {} rfl rfl,
    hcluster ⟨{}, false⟩ {} rfl rfl ⟨rfl, rfl, rfl⟩ rfl⟩

end Depot
