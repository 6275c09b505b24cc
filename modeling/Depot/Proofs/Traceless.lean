import Depot.Backend
import Depot.Proofs.Column.Alone
import Depot.Proofs.Embedded.Lifecycle
import Depot.Proofs.Relational.Lifecycle

/-!
# Refused calls leave no trace

An operation that fails leaves every table as it was: over storage whose steps are transactions a
failed step changes nothing, and over column tables, where nothing spans two statements, an
operation that has begun to write fails only if a statement itself does.

Headlines
* **`Backend.refused_call_leaves_no_trace`**: on every backend, from every state.
-/

namespace Depot

open Credential (Gate)
open Registry (Ends Error Object Operation Watch)

/-! ### Transactions -/

namespace Embedded

variable {d : Database} {c : Call}

/-- A transaction that reads. -/
def Call.Reads : Call → Prop
  | .passwordHash _ | .findObject _ | .userNames | .allProjects | .allObjects => True
  | _ => False

theorem Call.Reads.ne_close (h : c.Reads) : c ≠ .close := by
  rintro rfl
  exact h

/-- A transaction that only reads gives back the tables. -/
theorem Tables.transact_of_reads {t : Tables} (h : c.Reads) {a : c.Answer} {t' : Tables}
    (htransact : t.transact c = .ok (a, t')) : t' = t := by
  cases c with
  | passwordHash | userNames => exact (Prod.ext_iff.mp (Except.ok.inj htransact)).2.symm
  | findObject | allProjects | allObjects => exact tables_of_map htransact
  | register | commit | insertUser | deleteUser | insertProject | close => exact h.elim

/-- The whole of a database is watched, and every error is accounted for. -/
def Database.watch : Watch Database Database where
  view := id

theorem reads_transaction (c : Call) (h : c.Reads) :
    Database.watch.Reads Database.step (transaction c) := by
  refine fun d _ => ⟨trivial, ?_⟩
  rcases d.step_cases h.ne_close with ⟨e, -, hstep⟩ | ⟨a, t, htransact, hstep⟩
  · exact congrArg Prod.snd hstep
  · obtain rfl := Tables.transact_of_reads h htransact
    exact congrArg Prod.snd hstep

theorem spares_transaction (c : Call) (hc : c ≠ .close) :
    Database.watch.Spares Database.step (transaction c) := by
  refine fun d _ => .intro (fun _ _ => trivial) fun e he => .inr ?_
  rcases d.step_cases hc with ⟨e', -, hstep⟩ | ⟨a, t, -, hstep⟩
  · exact congrArg Prod.snd hstep
  · exact nomatch he.symm.trans (congrArg Prod.fst hstep)

/-- A commitment that finds no record leaves the tables. -/
theorem Tables.commit_of_none {t t' : Tables} {oid : String} (h : t.commit oid = .ok (none, t')) :
    t' = t := by
  rcases commit_cases h with ⟨-, hkeep⟩ | ⟨_, _, -, -, hfound, -⟩
  · exact hkeep
  · exact nomatch hfound

/-- The steps over an embedded database leave no trace when they fail. -/
theorem steps_spare : storage.StepsSpare Database.step Database.watch where
  passwordHash user := reads_transaction (.passwordHash user) trivial
  find oid := reads_transaction (.findObject oid) trivial
  register r d hd := by
    have hregister := spares_transaction (.register r.pendingObject) (by simp) d hd
    exact hregister.bind fun _ _ _ => .pure fun hnone => nomatch hnone
  commit oid d hd := by
    refine .intro (fun found hfound hnone => ?_) fun e he =>
      (spares_transaction _ (by simp) d hd).error he
    subst hnone
    rcases d.step_cases (c := .commit oid) (by simp) with ⟨e, -, hstep⟩ | ⟨a, t, htransact, hstep⟩
    · exact congrArg Prod.snd hstep
    · obtain rfl := Except.ok.inj ((congrArg Prod.fst hstep).symm.trans hfound)
      obtain rfl := Tables.commit_of_none htransact
      exact congrArg Prod.snd hstep
  insertUser name hash := spares_transaction (.insertUser name hash) (by simp)
  deleteUser name := spares_transaction (.deleteUser name) (by simp)
  userNames := reads_transaction .userNames trivial
  ensureProject name := spares_transaction (.insertProject name) (by simp)
  projects := reads_transaction .allProjects trivial
  objects := (reads_transaction .allObjects trivial).map _

end Embedded

namespace Relational

variable {c : Call}

/-- A transaction that reads. -/
def Call.Reads : Call → Prop
  | .passwordHash _ | .findObject _ | .userNames | .projectNames | .committedObjects
  | .committedMembership => True
  | _ => False

theorem Call.Reads.ne_close (h : c.Reads) : c ≠ .close := by
  rintro rfl
  exact h

/-- The whole of a database is watched, and every error is accounted for. -/
def Database.watch : Watch Database Database where
  view := id

theorem reads_transaction (c : Call) (h : c.Reads) :
    Database.watch.Reads Database.step (transaction c) := by
  refine fun d _ => ⟨trivial, ?_⟩
  have hkeep : (d.tables.transact c).2 = d.tables := by
    cases c with
    | passwordHash | findObject | userNames | projectNames | committedObjects
    | committedMembership => rfl
    | register | commit | insertUser | deleteUser | insertProject | close => exact h.elim
  rcases d.step_cases h.ne_close with hstep | hstep
  · exact congrArg Prod.snd hstep
  · rw [hkeep] at hstep
    exact congrArg Prod.snd hstep

theorem spares_transaction (c : Call) (hc : c ≠ .close) :
    Database.watch.Spares Database.step (transaction c) := by
  refine fun d _ => .intro (fun _ _ => trivial) fun e he => .inr ?_
  rcases d.step_cases hc with hstep | hstep
  · exact congrArg Prod.snd hstep
  · exact nomatch he.symm.trans (congrArg Prod.fst hstep)

/-- Clearing the flag of an object that has no row changes nothing. -/
theorem Tables.clearPending_of_none {t : Tables} {oid : String} (h : t.oids.get? oid = none) :
    t.clearPending oid = t := by
  unfold clearPending Table.modify
  rw [h]

/-- What is not found after its flag has been cleared has no row. -/
theorem Tables.row_of_clearPending_none {t : Tables} {oid : String}
    (h : (t.clearPending oid).findObject oid = none) : t.oids.get? oid = none := by
  unfold findObject clearPending at h
  simpa using h

/-- A registered object is found. -/
theorem Tables.findObject_register (t : Tables) (o : Object) :
    (t.register o).findObject o.oid ≠ none := by
  unfold findObject
  rw [oids_register]
  cases hrow : t.oids.contains o.oid with
  | true =>
    obtain ⟨e, he⟩ := Table.contains_iff.mp hrow
    simp [he]
  | false => simp

/-- The steps over a relational database leave no trace when they fail. -/
theorem steps_spare : storage.StepsSpare Database.step Database.watch where
  passwordHash user := reads_transaction (.passwordHash user) trivial
  find oid := reads_transaction (.findObject oid) trivial
  register r d hd := by
    refine .intro (fun found hfound hnone => ?_) fun e he =>
      (spares_transaction _ (by simp) d hd).error he
    subst hnone
    rcases d.step_cases (c := .register r.pendingObject) (by simp) with hstep | hstep
    · exact congrArg Prod.snd hstep
    · have hnone := Except.ok.inj ((congrArg Prod.fst hstep).symm.trans hfound)
      exact absurd hnone (Tables.findObject_register d.tables r.pendingObject)
  commit oid d hd := by
    refine .intro (fun found hfound hnone => ?_) fun e he =>
      (spares_transaction _ (by simp) d hd).error he
    subst hnone
    rcases d.step_cases (c := .commit oid) (by simp) with hstep | hstep
    · exact congrArg Prod.snd hstep
    · have hnone := Except.ok.inj ((congrArg Prod.fst hstep).symm.trans hfound)
      have hrow := Tables.row_of_clearPending_none hnone
      have hkeep : (d.tables.transact (.commit oid)).2 = d.tables := Tables.clearPending_of_none hrow
      rw [hkeep] at hstep
      exact congrArg Prod.snd hstep
  insertUser name hash := spares_transaction (.insertUser name hash) (by simp)
  deleteUser name := spares_transaction (.deleteUser name) (by simp)
  userNames := reads_transaction .userNames trivial
  ensureProject name := spares_transaction (.insertProject name) (by simp)
  projects := (reads_transaction .projectNames trivial).bind fun _ =>
    (reads_transaction .committedMembership trivial).map _
  objects := (reads_transaction .committedObjects trivial).bind fun _ =>
    (reads_transaction .committedMembership trivial).map _

end Relational

/-! ### Backends -/

namespace Backend

/-- No statement of others comes between those of an operation, and a cluster answers right or not at
all. -/
def Undisturbed : Backend → Prop
  | .embedded _ | .relational _ => True
  | .column s => s.script.races = []
  | .cluster n => ∀ m ∈ n.cluster.misanswers, m.answer = none

/-- The errors that a statement is made to fail with. -/
def Injects (e : Error) : Backend → Prop
  | .embedded _ | .relational _ => False
  | .column s => ∃ p ∈ s.script.faults, e = .backend (.reported p.what)
  | .cluster n => n.cluster.misanswers ≠ [] ∧ e = Column.Cluster.failed

/-- The second backend has the tables of the first one, and is as open. -/
def SameTables : Backend → Backend → Prop
  | .embedded d, .embedded d' => d' = d
  | .relational d, .relational d' => d' = d
  | .column s, .column s' => s'.tables = s.tables
  | .cluster n, .cluster n' => n'.cluster.rows = n.cluster.rows ∧ n'.closed = n.closed
  | _, _ => False

/-- Such a cluster only fails, if anything is planned for it. -/
theorem Undisturbed.onlyFails {n : Column.Connection} (h : (cluster n).Undisturbed) :
    n.cluster.OnlyFails (n.cluster.misanswers ≠ []) :=
  fun m hm => ⟨h m hm, List.ne_nil_of_mem hm⟩

/-- Listing the objects leaves all tables as they are. -/
theorem sameTables_objects {b : Backend} (halone : b.Undisturbed) (gate : Gate) :
    b.SameTables (b.perform gate .objects).2 := by
  cases b with
  | embedded d => exact (Embedded.steps_spare.reads_listing gate d trivial).2
  | relational d => exact (Relational.steps_spare.reads_listing gate d trivial).2
  | column s => exact ((Column.Session.alone halone).steps_spare.reads_listing gate s rfl).2
  | cluster n =>
    exact Prod.ext_iff.mp
      (Column.Connection.alone.steps_spare.reads_listing gate n halone.onlyFails).2

/-- **A refused call leaves no trace.** From every state of every backend, whatever an operation
other than a closing answers as an error, all tables are what they were before it, unless it is the
failure that a statement of a column store was made to end with. -/
theorem refused_call_leaves_no_trace (b : Backend) (gate : Gate) {op : Operation} {e : Error}
    (hop : op ≠ .close) (halone : b.Undisturbed) (h : (b.perform gate op).1 = .error e)
    (he : ¬ b.Injects e) : b.SameTables (b.perform gate op).2 := by
  cases b with
  | embedded d => exact Embedded.steps_spare.perform hop trivial h id
  | relational d => exact Relational.steps_spare.perform hop trivial h id
  | column s => exact (Column.Session.alone halone).steps_spare.perform hop rfl h he
  | cluster n =>
    exact Prod.ext_iff.mp (Column.Connection.alone.steps_spare.perform hop halone.onlyFails h he)

/-- An embedded database in which the second project of a pending object cannot be read. -/
def garbled : Embedded.Database where
  tables := {
    objects := Table.ofList [("ab", (Object.mk "ab" 3 ["left", "right"] false).encode)]
    projects := Table.ofList [("left", (Registry.Project.empty "left").encode), ("right", [0xC1])] }

/-- A commitment there has set the flag and listed the object under the first project when it fails
at the second one; nothing of that stays. -/
theorem garbled_untouched :
    ((embedded garbled).perform .everyone (.commit { oid := "ab" })).1 =
        .error Embedded.undecodable ∧
      (embedded garbled).SameTables
        ((embedded garbled).perform .everyone (.commit { oid := "ab" })).2 := by
  have hfails : ((embedded garbled).perform .everyone (.commit { oid := "ab" })).1 =
      .error Embedded.undecodable := by decide +kernel
  exact ⟨hfails, refused_call_leaves_no_trace (embedded garbled) .everyone (by simp) trivial hfails id⟩

end Backend

end Depot
