import Depot.Column.Cluster
import Depot.Proofs.Registry.Evaluation
import Depot.Proofs.Table
import Mathlib.Data.List.Nodup

/-!
# Calls as one statement each

A call on a cluster is one statement and a reading of what comes back; closing sends none. Whatever
the cluster does, the call comes to the reading of its answer.

Headlines
* **`Call.eq_of_text`**: no two calls are sent as one text with the same values.
* **`Call.query_eq`**: a call asks for its one statement and reads the answer.
* **`Call.eval_query`**: so it comes to the reading of the answer, or to the error that came back.
* **`Link.step`**: the calls over a connection to a server of any kind; **`Connection.run_eq`**: a
  connection to a cluster in memory is one of them.
-/

namespace Depot.Column

open Registry (Error eval eval_bind)

/-- The statement that a call is sent as. Closing sends none. -/
def Call.statement? : Call → Option Statement
  | .findOid oid => some (.select ["oid", "size", "pending"] .oids (.key oid))
  | .insertPendingOid oid size =>
    some (.insert .oids oid [("size", .bound (.int size)), ("pending", .literal true)] true)
  | .markOidCommitted oid => some (.update .oids "pending" (.assign (.literal false)) oid true)
  | .allOids => some (.select ["oid", "size", "pending"] .oids .all)
  | .ensureProject name => some (.insert .projects name [] false)
  | .addProjectOid name oid m => some (.update .projects m.column (.add oid) name false)
  | .removePendingProjectOid name oid =>
    some (.update .projects "pending" (.remove oid) name false)
  | .projectsWithOid oid m => some (.select ["name"] .projects (.contains m.column oid))
  | .allProjects => some (.select ["name", "oids", "pending"] .projects .all)
  | .findUser name => some (.select ["password"] .users (.key name))
  | .insertUserIfAbsent name hash =>
    some (.insert .users name [("password", .bound (.text hash))] true)
  | .deleteUser name => some (.delete .users name)
  | .allUsers => some (.select ["username"] .users .all)
  | .close => none

/-- Whether a call reads all pages of the answer: those that list a whole table do. -/
def Call.readsAll : Call → Bool
  | .allOids | .allProjects | .allUsers => true
  | _ => false

/-- Asks for the statement of a call. -/
def Call.asked (c : Call) : Query Result :=
  match c.statement? with
  | none => return .nothing
  | some s => if c.readsAll then executeAll s else execute s

/-- Reads the answer to the statement of a call. -/
def Call.read : (c : Call) → Result → Except Error c.Answer
  | .findOid _, found => do firstOf oidRowOf (← rowsOf found)
  | .insertPendingOid _ _, found => do appliedOf (← rowsOf found)
  | .markOidCommitted _, found => do let _ ← appliedOf (← rowsOf found); return ()
  | .allOids, found => (anyRows found).mapM oidRowOf
  | .ensureProject _, _ => return ()
  | .addProjectOid _ _ _, _ => return ()
  | .removePendingProjectOid _ _, _ => return ()
  | .projectsWithOid _ _, found => do (← rowsOf found).mapM nameOf
  | .allProjects, found => (anyRows found).mapM projectRowOf
  | .findUser _, found => do return (← firstOf hashOf (← rowsOf found)).join
  | .insertUserIfAbsent _ _, found => do appliedOf (← rowsOf found)
  | .deleteUser _, found => do let _ ← appliedOf (← rowsOf found); return ()
  | .allUsers, found => (anyRows found).mapM nameOf
  | .close, _ => return ()

/-! ### Statements as texts -/

/-- The text of the statement of a call. -/
def Call.text? (c : Call) : Option String := c.statement?.map Statement.text

/-- A call without what its caller gives. -/
def Call.shape : Call → Call
  | .findOid _ => .findOid ""
  | .insertPendingOid _ _ => .insertPendingOid "" 0
  | .markOidCommitted _ => .markOidCommitted ""
  | .allOids => .allOids
  | .ensureProject _ => .ensureProject ""
  | .addProjectOid _ _ m => .addProjectOid "" "" m
  | .removePendingProjectOid _ _ => .removePendingProjectOid "" ""
  | .projectsWithOid _ m => .projectsWithOid "" m
  | .allProjects => .allProjects
  | .findUser _ => .findUser ""
  | .insertUserIfAbsent _ _ => .insertUserIfAbsent "" ""
  | .deleteUser _ => .deleteUser ""
  | .allUsers => .allUsers
  | .close => .close

/-- What the calls are without what their callers give. -/
def Call.shapes : List Call :=
  [.findOid "", .insertPendingOid "" 0, .markOidCommitted "", .allOids, .ensureProject "",
    .addProjectOid "" "" .pending, .addProjectOid "" "" .committed, .removePendingProjectOid "" "",
    .projectsWithOid "" .pending, .projectsWithOid "" .committed, .allProjects, .findUser "",
    .insertUserIfAbsent "" "", .deleteUser "", .allUsers, .close]

theorem Call.shape_mem (c : Call) : c.shape ∈ shapes := by
  cases c with
  | addProjectOid name oid m => cases m <;> simp [shape, shapes]
  | projectsWithOid oid m => cases m <;> simp [shape, shapes]
  | _ => simp [shape, shapes]

theorem Call.text?_shape (c : Call) : c.shape.text? = c.text? := by
  cases c <;> rfl

theorem Call.shapes_apart : (shapes.map text?).Nodup := by
  decide +kernel

theorem Call.shape_eq_of_text {c c' : Call} (h : c.text? = c'.text?) : c.shape = c'.shape := by
  rw [← text?_shape c, ← text?_shape c'] at h
  exact List.inj_on_of_nodup_map shapes_apart c.shape_mem c'.shape_mem h

/-- A call with what its caller gives, as it is bound to the statement. -/
def Call.fill : Call → List Datum → Call
  | .findOid _, [.text oid] => .findOid oid
  | .insertPendingOid _ _, [.text oid, .int size] => .insertPendingOid oid size
  | .markOidCommitted _, [.text oid] => .markOidCommitted oid
  | .ensureProject _, [.text name] => .ensureProject name
  | .addProjectOid _ _ m, [.set [oid], .text name] => .addProjectOid name oid m
  | .removePendingProjectOid _ _, [.set [oid], .text name] => .removePendingProjectOid name oid
  | .projectsWithOid _ m, [.text oid] => .projectsWithOid oid m
  | .findUser _, [.text name] => .findUser name
  | .insertUserIfAbsent _ _, [.text name, .text hash] => .insertUserIfAbsent name hash
  | .deleteUser _, [.text name] => .deleteUser name
  | c, _ => c

theorem Call.fill_shape {c : Call} {s : Statement} (hs : c.statement? = some s) :
    c.shape.fill s.values = c := by
  cases c <;> cases hs <;> rfl

/-- **The text of a statement and its values tell the call that it is sent for.** -/
theorem Call.eq_of_text {c c' : Call} {s s' : Statement} (hs : c.statement? = some s)
    (hs' : c'.statement? = some s') (htext : s.text = s'.text) (hvalues : s.values = s'.values) :
    c = c' := by
  have hshape : c.shape = c'.shape := by
    refine shape_eq_of_text ?_
    unfold text?
    rw [hs, hs', Option.map_some, Option.map_some, htext]
  rw [← fill_shape hs, ← fill_shape hs', hshape, hvalues]

/-! ### Statements and their answers -/

section

variable {α β : Type}

theorem lift_bind (x : Except Error α) (f : α → Except Error β) :
    (liftM (x >>= f) : Query β) = (liftM x : Query α) >>= fun a => liftM (f a) := by
  cases x with
  | ok a => rfl
  | error e => rfl

theorem lift_mapM (read : Cells → Except Error α) (rows : List Cells) :
    (rows.mapM fun row => (ExceptT.mk (pure (read row)) : Query α)) = liftM (rows.mapM read) := by
  induction rows with
  | nil => rfl
  | cons row rows ih =>
    rw [List.mapM_cons, List.mapM_cons, ih, lift_bind]
    refine congrArg _ (funext fun a => ?_)
    rw [lift_bind]
    rfl

end

theorem executeIf_eq (s : Statement) :
    executeIf s = execute s >>= fun found => liftM (rowsOf found >>= appliedOf) := by
  refine congrArg (execute s >>= ·) (funext fun found => ?_)
  rw [lift_bind]

theorem discard_executeIf_eq (s : Statement) :
    (discard (executeIf s) : Query Unit) =
      execute s >>= fun found => liftM (rowsOf found >>= appliedOf >>= fun _ => pure ()) := by
  show (executeIf s >>= fun _ => pure () : Query Unit) = _
  rw [executeIf_eq, bind_assoc]
  refine congrArg (execute s >>= ·) (funext fun found => ?_)
  rw [lift_bind (rowsOf found >>= appliedOf)]
  rfl

/-- **A call asks for its one statement and reads the answer.** -/
theorem Call.query_eq (c : Call) : c.query = c.asked >>= fun found => liftM (c.read found) := by
  cases c with
  | findOid oid =>
    refine congrArg (execute _ >>= ·) (funext fun found => ?_)
    exact (lift_bind _ _).symm
  | insertPendingOid oid size => exact executeIf_eq _
  | insertUserIfAbsent name hash => exact executeIf_eq _
  | markOidCommitted oid =>
    refine (discard_executeIf_eq _).trans (congrArg (execute _ >>= ·) (funext fun found => ?_))
    rw [bind_assoc]
    rfl
  | deleteUser name =>
    refine (discard_executeIf_eq _).trans (congrArg (execute _ >>= ·) (funext fun found => ?_))
    rw [bind_assoc]
    rfl
  | allOids =>
    refine congrArg (executeAll _ >>= ·) (funext fun found => ?_)
    exact lift_mapM _ _
  | allProjects =>
    refine congrArg (executeAll _ >>= ·) (funext fun found => ?_)
    exact lift_mapM _ _
  | allUsers =>
    refine congrArg (executeAll _ >>= ·) (funext fun found => ?_)
    exact lift_mapM _ _
  | projectsWithOid oid m =>
    refine congrArg (execute _ >>= ·) (funext fun found => ?_)
    refine Eq.trans ?_ (lift_bind _ _).symm
    exact congrArg _ (funext fun rows => lift_mapM _ _)
  | findUser name =>
    refine congrArg (execute _ >>= ·) (funext fun found => ?_)
    show _ = liftM (rowsOf found >>= fun rows => firstOf hashOf rows >>= fun x => pure x.join)
    rw [lift_bind]
    refine congrArg _ (funext fun rows => ?_)
    rw [lift_bind]
    rfl
  | ensureProject name => rfl
  | addProjectOid name oid m => rfl
  | removePendingProjectOid name oid => rfl
  | close => rfl

variable {σ : Type} {service : Service σ Ask Ask.Reply}

/-- **A call comes to the reading of the answer to its statement, or to the error that came
back.** -/
theorem Call.eval_query (c : Call) (s : σ) :
    eval service c.query s =
      ((eval service c.asked s).1 >>= c.read, (eval service c.asked s).2) := by
  rw [query_eq, eval_bind]
  cases h : eval service c.asked s with
  | mk answer s' =>
    cases answer with
    | ok found => rfl
    | error e => rfl

/-! ### A cluster in memory -/

/-- Reading the row of a key answers that row alone. -/
theorem Rows.select_key (r : Rows) (columns : List String) (t : TableName) (key : String) :
    r.select columns t (.key key) =
      (((r.get t).get? key).map fun row => columns.map (cell t key row)).toList := by
  unfold select
  show ((r.get t).entries.filter fun e => e.1 == key).map (fun e => columns.map (cell t e.1 e.2)) = _
  rw [Table.filter_key]
  cases (r.get t).get? key with
  | none => rfl
  | some row => rfl

namespace Cluster

/-- What a statement comes to in a cluster in which nothing goes wrong. -/
theorem execute_of_unplanned {n : Cluster} (h : n.misanswers = []) (s : Statement) :
    n.execute s = (.ok (n.rows.execute s).1,
      { n with received := ⟨s, none⟩ :: n.received, rows := (n.rows.execute s).2 }) := by
  unfold execute
  rw [h]
  obtain ⟨addresses, login, rows, pageRows, misanswers, received, logins⟩ := n
  subst h
  rfl

/-- One row is no more than a page, and in either order. -/
theorem firstPage_toList (pageRows : Nat) (row : Option Cells) :
    firstPage pageRows (.rows row.toList.reverse) = .rows row.toList := by
  have horder : row.toList.reverse = row.toList := by
    cases row with
    | none => rfl
    | some row => rfl
  rw [horder]
  show Result.rows (if pageRows = 0 then row.toList else row.toList.take pageRows) = _
  by_cases h : pageRows = 0
  · rw [if_pos h]
  · rw [if_neg h, List.take_of_length_le]
    cases row with
    | none => exact Nat.zero_le _
    | some row => exact Nat.pos_of_ne_zero h

end Cluster

/-! ### Connections -/

/-- A connection to a server that may be closed. -/
structure Link (σ : Type) where
  /-- The server. -/
  server : σ
  /-- Whether the connection is closed. -/
  closed : Bool := false

namespace Link

/-- What a call replies over a server, and the connection after it. -/
def step (service : Service σ Ask Ask.Reply) (n : Link σ) (c : Call) : c.Reply × Link σ :=
  match c with
  | .close => (.ok (), { n with closed := true })
  | c =>
    if n.closed then (.error .closed, n)
    else
      let (reply, server) := Program.run service c.query.run n.server
      (reply, { n with server := server })

variable {n : Link σ} {c : Call}

theorem step_of_closed (h : n.closed = true) (hc : c ≠ .close) :
    n.step service c = (.error .closed, n) := by
  unfold step
  split
  · exact absurd rfl hc
  · rw [if_pos h]

/-- A call over an open connection comes to the reading of the answer to its statement. -/
theorem step_of_open (h : n.closed = false) (hc : c ≠ .close) :
    n.step service c = ((eval service c.asked n.server).1 >>= c.read,
      { n with server := (eval service c.asked n.server).2 }) := by
  have hquery : n.step service c = ((eval service c.query n.server).1,
      { n with server := (eval service c.query n.server).2 }) := by
    unfold step
    split
    · exact absurd rfl hc
    · rw [if_neg (by simp [h])]
      rfl
  rw [hquery, Call.eval_query]

end Link

/-- A connection to a cluster in memory as a connection to a server. -/
def Connection.link (n : Connection) : Link Cluster := ⟨n.cluster, n.closed⟩

/-- A connection to a server that is a cluster in memory. -/
def Link.connection (n : Link Cluster) : Connection := ⟨n.server, n.closed⟩

theorem Connection.step_eq (n : Connection) (c : Call) :
    n.step c = ((n.link.step Cluster.step c).1, (n.link.step Cluster.step c).2.connection) := by
  obtain ⟨cluster, closed⟩ := n
  cases closed with
  | true => cases c <;> rfl
  | false => cases c <;> rfl

/-- A program runs over a connection to a cluster as over a connection to a server. -/
theorem Connection.run_eq {α : Type} (p : Program Call Call.Reply α) (n : Connection) :
    p.run Connection.step n = ((p.run (Link.step Cluster.step) n.link).1,
      (p.run (Link.step Cluster.step) n.link).2.connection) := by
  induction p generalizing n with
  | done a => rfl
  | call c next ih =>
    show (next (n.step c).1).run Connection.step (n.step c).2 = _
    rw [step_eq]
    exact ih _ _

end Depot.Column
