import Depot.Backend
import Depot.Proofs.Column.Query
import Depot.Proofs.Registry.Gate
import Depot.Proofs.Table
import Depot.Proofs.Transactions

/-!
# The gate of a backend

Over storage of every kind an operation on an object first passes the gate, and what it then reads
or writes never fails with a refusal. A refused call is answered the same whatever it asks for and
whatever objects and projects there are, and leaves nothing behind but the look-up of a password
hash.

Headlines
* **`Backend.perform_eq_auth_iff`**, **`Backend.perform_of_refused`**: the ruling of the gate is the
  answer to a refused caller, and all that comes of the call.
* **`Backend.lookup_of_accounts`**: looking up a password hash gives what the table of users holds.
* **`Backend.gate_decides`**: the gate alone decides on the caller of an operation on an object.
-/

namespace Depot

open Credential (Gate)
open Registry (Error Object Operation Refusal RefusesNone Request Storage Unrefused)

/-! ### Errors of each kind of storage -/

namespace Embedded

variable (t : Tables)

theorem unrefused_readObject (b : Bytes) : Unrefused (readObject b) := by
  unfold readObject
  split
  · exact .ok _
  · exact .error rfl

theorem unrefused_readProject (b : Bytes) : Unrefused (readProject b) := by
  unfold readProject
  split
  · exact .ok _
  · exact .error rfl

theorem unrefused_findObject (oid : String) : Unrefused (t.findObject oid) := by
  unfold Tables.findObject
  split
  · exact (unrefused_readObject _).map some
  · exact .ok none

theorem unrefused_register (o : Object) : Unrefused (t.register o) := by
  refine (unrefused_findObject t o.oid).bind fun found => ?_
  cases found with
  | some stored => exact .ok _
  | none => exact .ok _

theorem unrefused_enlist (oid : String) (projects : Table String Bytes) (name : String) :
    Unrefused (Tables.enlist oid projects name) := by
  unfold Tables.enlist
  cases projects.get? name with
  | some b => exact (unrefused_readProject b).bind fun p => .ok _
  | none => exact .ok _

theorem unrefused_commit (oid : String) : Unrefused (t.commit oid) := by
  refine (unrefused_findObject t oid).bind fun found => ?_
  cases found with
  | none => exact .ok _
  | some stored => exact (Unrefused.foldlM (unrefused_enlist oid) _ _).bind fun projects => .ok _

/-- No transaction fails with a refusal. -/
theorem unrefused_transact (c : Call) : Unrefused (t.transact c) := by
  cases c with
  | findObject oid => exact (unrefused_findObject t oid).map _
  | register o => exact unrefused_register t o
  | commit oid => exact unrefused_commit t oid
  | allProjects => exact (Unrefused.mapM unrefused_readProject _).map _
  | allObjects => exact (Unrefused.mapM unrefused_readObject _).map _
  | passwordHash | insertUser | deleteUser | userNames | insertProject | close => exact .ok _

theorem refusesNone_transaction (c : Call) : RefusesNone Database.step (transaction c) := by
  intro d e he
  change (d.step c).1 = .error e at he
  by_cases hc : c = .close
  · subst hc
    exact nomatch he
  · rcases d.step_cases hc with ⟨e', hcause, hstep⟩ | ⟨a, t, -, hstep⟩
    · obtain rfl := Except.error.inj (he.symm.trans (congrArg Prod.fst hstep))
      rcases hcause with rfl | htransact
      · rfl
      · exact unrefused_transact d.tables c _ htransact
    · exact nomatch he.symm.trans (congrArg Prod.fst hstep)

/-- The steps over an embedded database refuse no caller. -/
theorem steps_refuse_none : storage.StepsRefuseNone Database.step where
  find _ := refusesNone_transaction _
  register _ := (refusesNone_transaction _).map some
  commit _ := refusesNone_transaction _

end Embedded

namespace Relational

theorem refusesNone_transaction (c : Call) : RefusesNone Database.step (transaction c) := by
  intro d e he
  change (d.step c).1 = .error e at he
  by_cases hc : c = .close
  · subst hc
    exact nomatch he
  · rcases d.step_cases hc with hstep | hstep
    · exact Except.error.inj (he.symm.trans (congrArg Prod.fst hstep)) ▸ rfl
    · exact nomatch he.symm.trans (congrArg Prod.fst hstep)

/-- The steps over a relational database refuse no caller. -/
theorem steps_refuse_none : storage.StepsRefuseNone Database.step where
  find _ := refusesNone_transaction _
  register _ := refusesNone_transaction _
  commit _ := refusesNone_transaction _

end Relational

namespace Column

variable {σ : Type} {service : Service σ Call Call.Reply}

/-! The steps of column storage refuse no caller over any service that refuses none. -/

section

variable (h : ∀ c, RefusesNone service (statement c))

include h

theorem refusesNone_findObject (oid : String) : RefusesNone service (findObject oid) := by
  refine (h _).bind fun found => ?_
  cases found with
  | none => exact .pure _
  | some row => exact (h _).map _

theorem refusesNone_addPending (oid : String) (names : List String) :
    RefusesNone service (addPending oid names) := by
  induction names with
  | nil => exact .pure _
  | cons name rest ih => exact (h _).bind fun _ => (h _).bind fun _ => ih

theorem refusesNone_promote (oid : String) (names : List String) :
    RefusesNone service (promote oid names) := by
  induction names with
  | nil => exact .pure _
  | cons name rest ih => exact (h _).bind fun _ => (h _).bind fun _ => ih

theorem refusesNone_register (r : Request) : RefusesNone service (register r) := by
  refine (refusesNone_findObject h r.oid).bind fun found => ?_
  cases found with
  | some o => exact .pure _
  | none =>
    refine (refusesNone_addPending h r.oid r.projects).bind fun _ => (h _).bind fun won => ?_
    cases won with
    | true => exact .pure _
    | false => exact refusesNone_findObject h r.oid

theorem refusesNone_commit (oid : String) : RefusesNone service (commit oid) := by
  refine (refusesNone_findObject h oid).bind fun found => ?_
  cases found with
  | none => exact .pure _
  | some o =>
    exact (h _).bind fun names => (refusesNone_promote h oid names).bind fun _ =>
      (h _).bind fun _ => refusesNone_findObject h oid

/-- The steps over a column store refuse no caller if no statement does. -/
theorem steps_refuse_none : storage.StepsRefuseNone service where
  find := refusesNone_findObject h
  register := refusesNone_register h
  commit := refusesNone_commit h

end

theorem unrefused_step (t : Tables) (c : Call) : Unrefused (t.step c).1 := by
  unfold Tables.step
  split
  · exact .error rfl
  · exact .ok _

/-- No statement of a scripted session fails with a refusal. -/
theorem Session.refusesNone_statement (c : Call) : RefusesNone Session.step (statement c) := by
  intro s
  show Unrefused (s.step c).1
  unfold Session.step
  simp only
  split
  · exact .error rfl
  · split
    · exact (unrefused_step _ c).map _
    · exact unrefused_step _ c

/-! ### Errors of a cluster -/

theorem unrefused_optionalCell {α : Type} {read : Option Datum → Except Error α}
    (h : ∀ cell, Unrefused (read cell)) (cell : Option Datum) :
    Unrefused (optionalCell read cell) := by
  cases cell with
  | none => exact .ok none
  | some d => exact (h _).map some

theorem unrefused_textCell (cell : Option Datum) : Unrefused (textCell cell) := by
  unfold textCell
  split
  · exact .ok _
  · exact .error rfl

theorem unrefused_intCell (cell : Option Datum) : Unrefused (intCell cell) := by
  unfold intCell
  split
  · exact .ok _
  · exact .error rfl

theorem unrefused_flagCell (cell : Option Datum) : Unrefused (flagCell cell) := by
  unfold flagCell
  split
  · exact .ok _
  · exact .error rfl

theorem unrefused_setCell (cell : Option Datum) : Unrefused (setCell cell) := by
  unfold setCell
  split
  · exact .ok _
  · exact .error rfl

theorem unrefused_oidRowOf (row : Cells) : Unrefused (oidRowOf row) := by
  unfold oidRowOf
  split
  · exact (unrefused_textCell _).bind fun _ => (unrefused_intCell _).bind fun _ =>
      (unrefused_optionalCell unrefused_flagCell _).bind fun _ => .ok _
  · exact .error rfl

theorem unrefused_projectRowOf (row : Cells) : Unrefused (projectRowOf row) := by
  unfold projectRowOf
  split
  · exact (unrefused_textCell _).bind fun _ => (unrefused_optionalCell unrefused_setCell _).bind
      fun _ => (unrefused_optionalCell unrefused_setCell _).bind fun _ => .ok _
  · exact .error rfl

theorem unrefused_nameOf (row : Cells) : Unrefused (nameOf row) := by
  unfold nameOf
  split
  · exact unrefused_textCell _
  · exact .error rfl

theorem unrefused_hashOf (row : Cells) : Unrefused (hashOf row) := by
  unfold hashOf
  split
  · exact unrefused_optionalCell unrefused_textCell _
  · exact .error rfl

theorem unrefused_firstOf {α : Type} {read : Cells → Except Error α}
    (h : ∀ row, Unrefused (read row)) (rows : List Cells) : Unrefused (firstOf read rows) := by
  cases rows with
  | nil => exact .ok none
  | cons row rest => exact (h row).map some

theorem unrefused_rowsOf (answer : Result) : Unrefused (rowsOf answer) := by
  unfold rowsOf
  split
  · exact .ok _
  · exact .error rfl

theorem unrefused_appliedOf (rows : List Cells) : Unrefused (appliedOf rows) := by
  unfold appliedOf
  split
  · exact .ok _
  · exact .ok _
  · exact .error rfl

/-- No answer is read as a refusal. -/
theorem unrefused_read (c : Call) (found : Result) : Unrefused (c.read found) := by
  cases c with
  | findOid oid => exact (unrefused_rowsOf _).bind fun _ => unrefused_firstOf unrefused_oidRowOf _
  | insertPendingOid oid size => exact (unrefused_rowsOf _).bind unrefused_appliedOf
  | markOidCommitted oid =>
    exact (unrefused_rowsOf _).bind fun _ => (unrefused_appliedOf _).bind fun _ => .ok _
  | allOids => exact Unrefused.mapM unrefused_oidRowOf _
  | ensureProject | addProjectOid | removePendingProjectOid | close => exact .ok _
  | projectsWithOid oid m =>
    exact (unrefused_rowsOf _).bind fun _ => Unrefused.mapM unrefused_nameOf _
  | allProjects => exact Unrefused.mapM unrefused_projectRowOf _
  | findUser name =>
    exact (unrefused_rowsOf _).bind fun _ =>
      (unrefused_firstOf unrefused_hashOf _).bind fun _ => .ok _
  | insertUserIfAbsent name hash => exact (unrefused_rowsOf _).bind unrefused_appliedOf
  | deleteUser name =>
    exact (unrefused_rowsOf _).bind fun _ => (unrefused_appliedOf _).bind fun _ => .ok _
  | allUsers => exact Unrefused.mapM unrefused_nameOf _

namespace Cluster

theorem unrefused_execute (n : Cluster) (s : Statement) : Unrefused (n.execute s).1 := by
  unfold execute
  simp only
  split
  · exact .ok _
  · exact .error rfl
  · exact .ok _

theorem refusesNone_execute (s : Statement) : RefusesNone step (Column.execute s) :=
  fun n => (unrefused_execute n s).map _

theorem refusesNone_executeAll (s : Statement) : RefusesNone step (executeAll s) := by
  intro n
  show Unrefused (n.step (.all s)).1
  have h := unrefused_execute n s
  unfold step
  simp only
  split
  · exact .ok _
  · next e _ he =>
    rw [he] at h
    exact h

/-- Reading rows of a cluster leaves them as they are. -/
theorem rows_execute_select (n : Cluster) (columns : List String) (t : TableName)
    (filter : Filter) :
    (n.execute (.select columns t filter)).2.rows = n.rows ∧
      (n.execute (.select columns t filter)).2.received =
        ⟨.select columns t filter, none⟩ :: n.received := by
  unfold execute
  simp only
  split
  · exact ⟨rfl, rfl⟩
  · exact ⟨rfl, rfl⟩
  · exact ⟨rfl, rfl⟩

/-- No call on a cluster fails with a refusal. -/
theorem refusesNone_query (c : Call) : RefusesNone step c.query := by
  rw [Call.query_eq]
  refine RefusesNone.bind ?_ fun found => .lift (unrefused_read c found)
  unfold Call.asked
  split
  · exact .pure _
  · split
    · exact refusesNone_executeAll _
    · exact refusesNone_execute _

end Cluster

/-- No statement over a connection fails with a refusal. -/
theorem Connection.refusesNone_statement (c : Call) :
    RefusesNone Connection.step (statement c) := by
  intro n
  show Unrefused (n.step c).1
  unfold Connection.step
  split
  · exact .ok _
  · split
    · exact .error rfl
    · exact Cluster.refusesNone_query _ n.cluster

end Column

namespace Backend

/-- What looking up the password hash of a user in a backend answers. -/
def lookup : Backend → String → Except Error (Option String)
  | .embedded d => Embedded.storage.lookup Embedded.Database.step d
  | .relational d => Relational.storage.lookup Relational.Database.step d
  | .column s => Column.storage.lookup Column.Session.step s
  | .cluster n => Column.storage.lookup Column.Connection.step n

/-- The backend after the look-up that the gate makes for a header, if it makes one. -/
def afterGate (gate : Gate) (header : String) : Backend → Backend
  | .embedded d => .embedded (Embedded.storage.afterGate Embedded.Database.step d gate header)
  | .relational d =>
    .relational (Relational.storage.afterGate Relational.Database.step d gate header)
  | .column s => .column (Column.storage.afterGate Column.Session.step s gate header)
  | .cluster n => .cluster (Column.storage.afterGate Column.Connection.step n gate header)

variable {gate : Gate} {op : Operation} {r : Request}

/-- **An operation on an object answers with a reason for refusing its caller exactly when that is
the ruling of the gate.** -/
theorem perform_eq_auth_iff (b : Backend) (hop : op.request? = some r) (why : Refusal) :
    (b.perform gate op).1 = .error (.auth why) ↔
      gate.ruling b.lookup r.authorization = .error why := by
  cases b with
  | embedded d => exact Embedded.steps_refuse_none.perform_eq_auth_iff hop why
  | relational d => exact Relational.steps_refuse_none.perform_eq_auth_iff hop why
  | column s =>
    exact (Column.steps_refuse_none Column.Session.refusesNone_statement).perform_eq_auth_iff hop
      why
  | cluster n =>
    exact (Column.steps_refuse_none Column.Connection.refusesNone_statement).perform_eq_auth_iff
      hop why

/-- **A refused caller is answered the reason, and the look-up of the gate is all that comes of the
call.** -/
theorem perform_of_refused (b : Backend) (hop : op.request? = some r) {why : Refusal}
    (h : gate.ruling b.lookup r.authorization = .error why) :
    b.perform gate op = (.error (.auth why), b.afterGate gate r.authorization) := by
  cases b with
  | embedded d =>
    exact congrArg (fun x => (x.1, Backend.embedded x.2))
      (Embedded.steps_refuse_none.perform_of_refused hop h)
  | relational d =>
    exact congrArg (fun x => (x.1, Backend.relational x.2))
      (Relational.steps_refuse_none.perform_of_refused hop h)
  | column s =>
    exact congrArg (fun x => (x.1, Backend.column x.2))
      ((Column.steps_refuse_none Column.Session.refusesNone_statement).perform_of_refused hop h)
  | cluster n =>
    exact congrArg (fun x => (x.1, Backend.cluster x.2))
      ((Column.steps_refuse_none Column.Connection.refusesNone_statement).perform_of_refused hop h)

/-! ### What a look-up leaves -/

/-- The second backend is the first one but for a look-up of a password hash: its tables are the
same, and no statement has been made but such a look-up. Statements that are planned to precede it
are those of others. -/
def Spared : Backend → Backend → Prop
  | .embedded d, .embedded d' => d' = d
  | .relational d, .relational d' => d' = d
  | .column s, .column s' => s' = s ∨ ∃ user, s' = (s.step (.findUser user)).2 ∧
      s'.log = .findUser user :: s.log ∧ (s.script.races = [] → s'.tables = s.tables)
  | .cluster n, .cluster n' => n' = n ∨ ∃ user, n'.closed = n.closed ∧
      n'.cluster.rows = n.cluster.rows ∧ n'.cluster.received =
        ⟨.select ["password"] .users (.key user), none⟩ :: n.cluster.received
  | _, _ => False

end Backend

namespace Column

/-- Looking up a password hash leaves the tables of a session as the others do. -/
theorem Session.step_findUser (s : Session) (user : String) :
    (s.step (.findUser user)).2.log = .findUser user :: s.log ∧
      (s.script.races = [] → (s.step (.findUser user)).2.tables = s.tables) := by
  have hkeep : ∀ t : Tables, (t.step (.findUser user)).2 = t := by
    intro t
    unfold Tables.step
    split
    · rfl
    · rfl
  unfold step
  simp only
  split
  · refine ⟨rfl, fun h => ?_⟩
    rw [h]
    rfl
  · refine ⟨rfl, fun h => ?_⟩
    show (Tables.step _ (.findUser user)).2 = s.tables
    rw [hkeep, h]
    rfl

/-- Looking up a password hash over a connection reads one row of the users, if anything. -/
theorem Connection.step_findUser (n : Connection) (user : String) :
    (n.step (.findUser user)).2 = n ∨
      (n.step (.findUser user)).2.closed = n.closed ∧
        (n.step (.findUser user)).2.cluster.rows = n.cluster.rows ∧
        (n.step (.findUser user)).2.cluster.received =
          ⟨.select ["password"] .users (.key user), none⟩ :: n.cluster.received := by
  rw [step_eq]
  cases hclosed : n.closed with
  | true =>
    left
    rw [Link.step_of_closed hclosed (by simp)]
    rfl
  | false =>
    right
    rw [Link.step_of_open hclosed (by simp)]
    exact ⟨hclosed, n.cluster.rows_execute_select _ _ _⟩

end Column

namespace Backend

variable {gate : Gate} {op : Operation} {r : Request}

/-- What the gate leaves of a backend is the backend but for a look-up. -/
theorem spared_afterGate (gate : Gate) (header : String) (b : Backend) :
    b.Spared (b.afterGate gate header) := by
  unfold afterGate Storage.afterGate
  cases gate.consulted? header with
  | none =>
    cases b with
    | embedded d => rfl
    | relational d => rfl
    | column s => exact .inl rfl
    | cluster n => exact .inl rfl
  | some user =>
    cases b with
    | embedded d =>
      show (d.step (.passwordHash user)).2 = d
      unfold Embedded.Database.step
      simp only
      split
      · rfl
      · rfl
    | relational d =>
      show (d.step (.passwordHash user)).2 = d
      unfold Relational.Database.step
      simp only
      split
      · rfl
      · rfl
    | column s => exact .inr ⟨user, rfl, s.step_findUser user⟩
    | cluster n => exact (n.step_findUser user).imp_right fun h => ⟨user, h⟩

/-- The users with their password hashes of a backend that is open, and in which nothing is planned
to go wrong or to come before a look-up. -/
def Accounts (users : Table String String) : Backend → Prop
  | .embedded d => d.closed = false ∧ d.tables.users = users
  | .relational d => d.closed = false ∧ d.tables.users = users
  | .column s => s.tables.closed = false ∧ s.script.faults = [] ∧ s.script.races = [] ∧
      s.tables.users = users
  | .cluster n => n.closed = false ∧ n.cluster.misanswers = [] ∧ ∀ user,
      (n.cluster.rows.users.get? user).map (fun row => row.get? "password") =
        (users.get? user).map fun hash => some (.text hash)

/-- **Looking up a password hash gives what the table of users holds.** -/
theorem lookup_of_accounts {users : Table String String} {b : Backend} (h : b.Accounts users)
    (user : String) : b.lookup user = .ok (users.get? user) := by
  cases b with
  | embedded d =>
    obtain ⟨hopen, rfl⟩ := h
    show (d.step (.passwordHash user)).1 = _
    unfold Embedded.Database.step
    rw [hopen]
    rfl
  | relational d =>
    obtain ⟨hopen, rfl⟩ := h
    show (d.step (.passwordHash user)).1 = _
    unfold Relational.Database.step
    rw [hopen]
    rfl
  | column s =>
    obtain ⟨hopen, hfaults, hraces, rfl⟩ := h
    show (s.step (.findUser user)).1 = _
    unfold Column.Session.step
    rw [hfaults, hraces]
    show (if s.script.reversed then (s.tables.step (.findUser user)).1.map id
      else (s.tables.step (.findUser user)).1) = _
    unfold Column.Tables.step
    rw [hopen]
    split
    · rfl
    · rfl
  | cluster n =>
    obtain ⟨hopen, hplans, husers⟩ := h
    show (n.step (.findUser user)).1 = _
    have hanswer : (Registry.eval Column.Cluster.step (Column.Call.findUser user).asked
        n.cluster).1 = .ok (.rows
          ((n.cluster.rows.users.get? user).map fun row => [row.get? "password"]).toList) := by
      show (n.cluster.execute _).1.map _ = _
      rw [Column.Cluster.execute_of_unplanned hplans]
      show Except.ok (Column.Cluster.firstPage _ (.rows (n.cluster.rows.select _ _ _).reverse)) = _
      rw [Column.Rows.select_key, Column.Cluster.firstPage_toList]
      rfl
    rw [Column.Connection.step_eq, Column.Link.step_of_open hopen (by simp)]
    change (Registry.eval Column.Cluster.step _ n.cluster).1 >>= _ = _
    rw [hanswer]
    have hrow := husers user
    cases hheld : n.cluster.rows.users.get? user with
    | none =>
      rw [hheld] at hrow
      rw [Option.map_eq_none_iff.mp hrow.symm]
      rfl
    | some row =>
      rw [hheld] at hrow
      obtain ⟨hash, hhash, hcell⟩ := Option.map_eq_some_iff.mp hrow.symm
      have hcell : row.get? "password" = some (.text hash) := hcell.symm
      rw [hhash, Option.map_some, hcell]
      rfl

/-- **The gate alone decides on the caller of an operation on an object.** The call is answered with
a refusal exactly when the gate does not admit the caller by the password hashes that the backend
gives. Then no table has changed and nothing but a password hash has been looked up, and any other
operation on any other object, on any backend that gives the same password hashes, is answered the
same for the same header. An open backend gives the hashes that its table of users holds. -/
theorem gate_decides (b : Backend) (gate : Gate) {op : Operation} {r : Request}
    (hop : op.request? = some r) :
    ((∃ why, (b.perform gate op).1 = .error (.auth why)) ↔
        ¬ gate.Admits b.lookup r.authorization) ∧
      (¬ gate.Admits b.lookup r.authorization → b.Spared (b.perform gate op).2 ∧
        ∀ (b' : Backend) (op' : Operation) (r' : Request), op'.request? = some r' →
          r'.authorization = r.authorization → (gate = .internal → b'.lookup = b.lookup) →
          (b'.perform gate op').1 = (b.perform gate op).1) ∧
      ∀ users, b.Accounts users → ∀ user, b.lookup user = .ok (users.get? user) := by
  refine ⟨?_, fun hnot => ?_, fun users h => lookup_of_accounts h⟩
  · rw [← Gate.exists_ruling_eq_error_iff]
    exact exists_congr fun why => b.perform_eq_auth_iff hop why
  · obtain ⟨why, hwhy⟩ := Gate.exists_ruling_eq_error_iff.mpr hnot
    rw [b.perform_of_refused hop hwhy]
    refine ⟨spared_afterGate gate r.authorization b, fun b' op' r' hop' hheader hlookup => ?_⟩
    have hwhy' : gate.ruling b'.lookup r'.authorization = .error why := by
      rw [hheader, Gate.ruling_congr hlookup, hwhy]
    rw [b'.perform_of_refused hop' hwhy']

/-- A password hash of one round. -/
def oneRound : String := Credential.Password.hashWith 1 (List.replicate 16 0) "hunter2"

/-- The password table of a registry with one account. -/
def keyed : Table String String := (∅ : Table String String).insert "ada" oneRound

/-- Column tables with the account and an object. -/
def guarded : Backend :=
  .column { tables :=
    { users := keyed, oids := (∅ : Table String Column.OidEntry).insert "6a" ⟨12, true⟩ } }

/-- A request for the object with some password. -/
def requestWith (password : String) : Request :=
  { oid := "6a", authorization := Credential.Login.header ⟨"ada", password⟩ .standard }

/-- A wrong password is refused over the tables with the object as it is over a relational database
without any, and for a senseless registration as for a look-up. The right one is not. -/
theorem wrong_password_refused :
    (Operation.get (requestWith "hunter3")).request? = some (requestWith "hunter3") ∧
      (∃ why, (guarded.perform .internal (.get (requestWith "hunter3"))).1 = .error (.auth why)) ∧
      guarded.Spared (guarded.perform .internal (.get (requestWith "hunter3"))).2 ∧
      ((relational { tables := { users := keyed } }).perform .internal
          (.put { requestWith "hunter3" with oid := "ab", size := -1 })).1 =
        (guarded.perform .internal (.get (requestWith "hunter3"))).1 ∧
      ¬ ∃ why, (guarded.perform .internal (.get (requestWith "hunter2"))).1 =
        .error (.auth why) := by
  have hrequest : ∀ r, (Operation.get r).request? = some r := fun _ => rfl
  obtain ⟨hrefused, hrest, haccounts⟩ :=
    gate_decides guarded .internal (hrequest (requestWith "hunter3"))
  obtain ⟨hadmitted, -, -⟩ := gate_decides guarded .internal (hrequest (requestWith "hunter2"))
  have hlookup : ∀ user, guarded.lookup user = .ok (keyed.get? user) :=
    haccounts keyed ⟨rfl, rfl, rfl, rfl⟩
  have hfound : guarded.lookup "ada" = .ok (some oneRound) :=
    (hlookup "ada").trans (congrArg Except.ok ((Table.get?_insert ..).trans (if_pos rfl)))
  have hwrong : Credential.parseBasic (requestWith "hunter3").authorization =
      .ok ⟨"ada", "hunter3"⟩ ∧ Credential.Password.verify oneRound "hunter3" = false := by
    decide +kernel
  have hright : Credential.parseBasic (requestWith "hunter2").authorization =
      .ok ⟨"ada", "hunter2"⟩ ∧ Credential.Password.verify oneRound "hunter2" = true := by
    decide +kernel
  have hnot : ¬ Gate.internal.Admits guarded.lookup (requestWith "hunter3").authorization := by
    rintro ⟨login, hash, hlogin, hhash, hverify⟩
    obtain rfl := Except.ok.inj (hwrong.1.symm.trans hlogin)
    rw [hfound, Except.ok.injEq, Option.some.injEq] at hhash
    rw [← hhash, hwrong.2] at hverify
    exact absurd hverify (by decide)
  have hadmits : Gate.internal.Admits guarded.lookup (requestWith "hunter2").authorization :=
    ⟨_, _, hright.1, hfound, hright.2⟩
  have haccount : (relational { tables := { users := keyed } }).Accounts keyed := ⟨rfl, rfl⟩
  have hshared : (relational { tables := { users := keyed } }).lookup = guarded.lookup := by
    funext user
    rw [lookup_of_accounts haccount, hlookup]
  refine ⟨hrequest _, hrefused.mpr hnot, (hrest hnot).imp_right fun hsame => ?_⟩
  exact ⟨hsame _ _ _ rfl rfl fun _ => hshared, fun h => hadmitted.mp h hadmits⟩

end Backend

end Depot
