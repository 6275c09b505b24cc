import Depot.Column.Store
import Depot.Proofs.Column.View
import Depot.Proofs.Registry.Evaluation
import Mathlib.Tactic.Tauto

/-!
# Undisturbed column operations

What the operations of a column registry make of open tables when nobody else makes a statement
meanwhile, told by the views of the tables.

Headlines
* **`commit_eval`**: a commitment of a registered object clears its flag, moves it from every
  pending set that holds it to the committed set of the same project, and answers what a look-up
  finds then.
* **`registerNew_eval`**: a registration of a new object inserts its row and adds it to the pending
  set of its project.
-/

namespace Depot.Column

open Credential (Gate)
open Registry (Object Request eval eval_bind_of_ok)

/-- What has become of tables: users and whether they are closed stay, and the views are as told. -/
structure Becomes (t u : Tables) (row : String → Option OidEntry) (project : String → Prop)
    (holds : Membership → String → String → Prop) : Prop where
  closed : u.closed = t.closed
  users : u.users = t.users
  row : ∀ oid, u.oids.get? oid = row oid
  project : ∀ name, u.projects.contains name = true ↔ project name
  holds : ∀ m name oid, u.holds m name oid = true ↔ holds m name oid

/-- What a look-up of an object finds. -/
def Tables.found (t : Tables) (oid : String) : Option Object :=
  (t.oids.get? oid).map fun e =>
    let row := Tables.oidRow (oid, e)
    objectOf row (t.answer (.projectsWithOid oid (membershipOf row))).1

section

variable {t : Tables}

theorem found_of_none {oid : String} (h : t.oids.get? oid = none) : t.found oid = none := by
  unfold Tables.found
  rw [h]
  rfl

theorem found_of_some {oid : String} {e : OidEntry} (h : t.oids.get? oid = some e) :
    t.found oid = some (objectOf (Tables.oidRow (oid, e))
      (t.answer (.projectsWithOid oid (membershipOf (Tables.oidRow (oid, e))))).1) := by
  unfold Tables.found
  rw [h]
  rfl

theorem statement_eval (h : t.closed = false) (c : Call) :
    eval Tables.step (statement c) t = (.ok (t.answer c).1, (t.answer c).2) :=
  Tables.step_of_open h c

theorem authorize_eval (h : t.closed = false) (gate : Gate) (r : Request) :
    eval Tables.step (storage.authorize gate r) t =
      ((gate.verdict t.users.get? r.authorization).mapError .auth, t) := by
  have hread : ∀ user, Program.run Tables.step (storage.passwordHash user) t =
      (.ok (t.users.get? user), t) := fun user => Tables.step_of_open h (.findUser user)
  exact Registry.eval_authorize hread gate r.authorization

theorem findObject_eval (h : t.closed = false) (oid : String) :
    eval Tables.step (findObject oid) t = (.ok (t.found oid), t) := by
  unfold findObject
  rw [eval_bind_of_ok (statement_eval h (.findOid oid))]
  cases hrow : t.oids.get? oid with
  | none =>
    rw [found_of_none hrow]
    simp only [Tables.answer, hrow, Option.map_none]
    rfl
  | some e =>
    rw [found_of_some hrow]
    simp only [Tables.answer, hrow, Option.map_some]
    rw [eval_bind_of_ok (statement_eval h _)]
    rfl

/-! ### Membership statements -/

/-- A statement that changes only projects and their sets. -/
def Enrols : Call → Prop
  | .ensureProject _ | .addProjectOid _ _ _ | .removePendingProjectOid _ _ => True
  | _ => False

theorem enrols_becomes (h : t.closed = false) {c : Call} (hc : Enrols c) :
    Becomes t (t.answer c).2 t.oids.get?
      (fun name => (c = .ensureProject name ∨ ∃ oid m, c = .addProjectOid name oid m) ∨
        t.projects.contains name = true)
      (fun m name oid => c = .addProjectOid name oid m ∨
        (t.holds m name oid = true ∧ ¬ (c = .removePendingProjectOid name oid ∧ m = .pending))) := by
  have hstep : (t.step c).2 = (t.answer c).2 := by rw [Tables.step_of_open h]
  have hrow : ∀ oid, (t.answer c).2.oids.get? oid = t.oids.get? oid := by
    intro oid
    cases c <;> first | rfl | exact hc.elim
  have hclose : c ≠ .close := by rintro rfl; exact hc
  have hinsert : ∀ name hash, c ≠ .insertUserIfAbsent name hash := by rintro _ _ rfl; exact hc
  have hdelete : ∀ name, c ≠ .deleteUser name := by rintro _ rfl; exact hc
  refine ⟨?_, ?_, hrow, fun name => ?_, fun m name oid => ?_⟩
  · rw [← hstep]
    exact Tables.closed_step hclose
  · rw [← hstep]
    exact Tables.users_step hinsert hdelete
  · rw [← hstep]
    simp only [Tables.project_step_iff, h, true_and]
  · rw [← hstep]
    simp only [Tables.holds_step_iff, h, true_and]

/-- A registration's membership statements add the object to the pending set of each project. -/
theorem addPending_eval (oid : String) :
    ∀ (names : List String) {t : Tables}, t.closed = false →
      ∃ u, eval Tables.step (addPending oid names) t = (.ok (), u) ∧
        Becomes t u t.oids.get? (fun name => name ∈ names ∨ t.projects.contains name = true)
          (fun m name x => (m = .pending ∧ x = oid ∧ name ∈ names) ∨ t.holds m name x = true)
  | [], t, _ => by
    refine ⟨t, rfl, rfl, rfl, fun _ => rfl, fun name => ?_, fun m name x => ?_⟩
    · simp
    · simp
  | name :: rest, t, h => by
    have h1 := enrols_becomes h (c := .ensureProject name) trivial
    have ho1 := h1.closed.trans h
    have h2 := enrols_becomes ho1 (c := .addProjectOid name oid .pending) trivial
    obtain ⟨u, hu, h3⟩ := addPending_eval oid rest (h2.closed.trans ho1)
    refine ⟨u, ?_, h3.closed.trans (h2.closed.trans h1.closed),
      h3.users.trans (h2.users.trans h1.users), fun x => ?_, fun x => ?_, fun m x y => ?_⟩
    · unfold addPending
      rw [eval_bind_of_ok (statement_eval h _), eval_bind_of_ok (statement_eval ho1 _)]
      exact hu
    · rw [h3.row, h2.row, h1.row]
    · rw [h3.project, h2.project, h1.project]
      simp only [reduceCtorEq, Call.addProjectOid.injEq, exists_and_left, exists_eq', and_true,
        false_or, Call.ensureProject.injEq, exists_false, or_false, or_self_left,
        List.mem_cons]
      tauto
    · rw [h3.holds, h2.holds, h1.holds]
      simp only [Call.addProjectOid.injEq, reduceCtorEq, false_and, not_false_eq_true, and_true,
        false_or, List.mem_cons]
      tauto

/-- A commitment's membership statements move the object from the pending to the committed set of
each project. -/
theorem promote_eval (oid : String) :
    ∀ (names : List String) {t : Tables}, t.closed = false →
      ∃ u, eval Tables.step (promote oid names) t = (.ok (), u) ∧
        Becomes t u t.oids.get? (fun name => name ∈ names ∨ t.projects.contains name = true)
          (fun m name x => (m = .committed ∧ x = oid ∧ name ∈ names) ∨
            (t.holds m name x = true ∧ ¬ (m = .pending ∧ x = oid ∧ name ∈ names)))
  | [], t, _ => by
    refine ⟨t, rfl, rfl, rfl, fun _ => rfl, fun name => ?_, fun m name x => ?_⟩
    · simp
    · simp
  | name :: rest, t, h => by
    have h1 := enrols_becomes h (c := .addProjectOid name oid .committed) trivial
    have ho1 := h1.closed.trans h
    have h2 := enrols_becomes ho1 (c := .removePendingProjectOid name oid) trivial
    obtain ⟨u, hu, h3⟩ := promote_eval oid rest (h2.closed.trans ho1)
    refine ⟨u, ?_, h3.closed.trans (h2.closed.trans h1.closed),
      h3.users.trans (h2.users.trans h1.users), fun x => ?_, fun x => ?_, fun m x y => ?_⟩
    · unfold promote
      rw [eval_bind_of_ok (statement_eval h _), eval_bind_of_ok (statement_eval ho1 _)]
      exact hu
    · rw [h3.row, h2.row, h1.row]
    · rw [h3.project, h2.project, h1.project]
      simp only [reduceCtorEq, exists_false, or_self, Call.addProjectOid.injEq,
        exists_and_left, exists_eq', and_true, false_or, List.mem_cons]
      tauto
    · rw [h3.holds, h2.holds, h1.holds]
      cases m with
      | pending =>
        simp only [reduceCtorEq, false_and, Call.addProjectOid.injEq, @eq_comm _ name x,
          @eq_comm _ oid y, and_false, and_true, not_false_eq_true, false_or,
          Call.removePendingProjectOid.injEq, not_and, true_and, List.mem_cons, not_or]
        tauto
      | committed =>
        simp only [true_and, reduceCtorEq, Call.addProjectOid.injEq, @eq_comm _ name x,
          @eq_comm _ oid y, and_true, and_self, not_false_eq_true,
          Call.removePendingProjectOid.injEq, and_false, false_or, false_and, List.mem_cons]
        tauto

/-! ### Operations -/

/-- The tables after the flag of an object has been cleared. -/
theorem markOidCommitted_becomes (t : Tables) (oid : String) :
    Becomes t (t.answer (.markOidCommitted oid)).2
      (fun x => if x = oid then (t.oids.get? x).map fun e => { e with pending := false }
        else t.oids.get? x)
      (fun name => t.projects.contains name = true) (fun m name x => t.holds m name x = true) :=
  ⟨rfl, rfl, fun x => Tables.get?_oids_answer t (.markOidCommitted oid) x, fun _ => Iff.rfl,
    fun _ _ _ => Iff.rfl⟩

/-- **A commitment of a registered object**, undisturbed. -/
theorem commit_eval (h : t.closed = false) {oid : String} {e : OidEntry}
    (he : t.oids.get? oid = some e) :
    ∃ u, eval Tables.step (commit oid) t = (.ok (u.found oid), u) ∧
      Becomes t u
        (fun x => if x = oid then some { e with pending := false } else t.oids.get? x)
        (fun name => t.projects.contains name = true)
        (fun m name x => (m = .committed ∧ x = oid ∧ t.holds .pending name x = true) ∨
          (t.holds m name x = true ∧ ¬ (m = .pending ∧ x = oid))) := by
  obtain ⟨u, hu, hmoved⟩ := promote_eval oid (t.answer (.projectsWithOid oid .pending)).1 h
  have hflag := markOidCommitted_becomes u oid
  have hou : u.closed = false := hmoved.closed.trans h
  have hmem : ∀ name, name ∈ (t.answer (.projectsWithOid oid .pending)).1 ↔
      t.holds .pending name oid = true := fun name => Tables.mem_projectsWithOid
  refine ⟨(u.answer (.markOidCommitted oid)).2, ?_, hflag.closed.trans hmoved.closed,
    hflag.users.trans hmoved.users, fun x => ?_, fun name => ?_, fun m name x => ?_⟩
  · unfold commit
    rw [eval_bind_of_ok (findObject_eval h oid), found_of_some he]
    simp only
    rw [eval_bind_of_ok (statement_eval h _)]
    show eval Tables.step (promote oid _ >>= _) t = _
    rw [eval_bind_of_ok hu, eval_bind_of_ok (statement_eval hou _)]
    exact findObject_eval (hflag.closed.trans hou) oid
  · rw [hflag.row, hmoved.row]
    by_cases hx : x = oid
    · subst hx
      simp [he]
    · simp [hx]
  · rw [hflag.project, hmoved.project, hmem]
    constructor
    · rintro (hp | hp)
      · exact Tables.contains_of_holds hp
      · exact hp
    · exact Or.inr
  · rw [hflag.holds, hmoved.holds, hmem]
    constructor
    · rintro (⟨hm, rfl, hp⟩ | ⟨hk, hn⟩)
      · exact Or.inl ⟨hm, rfl, hp⟩
      · refine Or.inr ⟨hk, fun hx => hn ?_⟩
        obtain ⟨rfl, rfl⟩ := hx
        exact ⟨rfl, rfl, hk⟩
    · rintro (⟨hm, rfl, hp⟩ | ⟨hk, hn⟩)
      · exact Or.inl ⟨hm, rfl, hp⟩
      · exact Or.inr ⟨hk, fun hx => hn ⟨hx.1, hx.2.1⟩⟩

/-- Without a row there is nothing to commit. -/
theorem commit_eval_of_none (h : t.closed = false) {oid : String} (he : t.oids.get? oid = none) :
    eval Tables.step (commit oid) t = (.ok none, t) := by
  unfold commit
  rw [eval_bind_of_ok (findObject_eval h oid), found_of_none he]
  rfl

/-- **A registration of a new object**, undisturbed. -/
theorem register_eval (h : t.closed = false) {r : Request} (he : t.oids.get? r.oid = none) :
    ∃ u, eval Tables.step (register r) t = (.ok (some r.pendingObject), u) ∧
      Becomes t u
        (fun x => if x = r.oid then some ⟨r.size, true⟩ else t.oids.get? x)
        (fun name => name ∈ r.projects ∨ t.projects.contains name = true)
        (fun m name x =>
          (m = .pending ∧ x = r.oid ∧ name ∈ r.projects) ∨ t.holds m name x = true) := by
  obtain ⟨u, hu, hadded⟩ := addPending_eval r.oid r.projects h
  have hou : u.closed = false := hadded.closed.trans h
  have hnone : u.oids.get? r.oid = none := (hadded.row r.oid).trans he
  have hanswer : u.answer (.insertPendingOid r.oid r.size) =
      (true, { u with oids := u.oids.insert r.oid ⟨r.size, true⟩ }) := by
    simp only [Tables.answer, Table.contains, hnone]
    rfl
  refine ⟨{ u with oids := u.oids.insert r.oid ⟨r.size, true⟩ }, ?_, hadded.closed, hadded.users,
    fun x => ?_, hadded.project, hadded.holds⟩
  · unfold register
    rw [eval_bind_of_ok (findObject_eval h r.oid), found_of_none he]
    simp only
    unfold registerNew
    rw [eval_bind_of_ok hu, eval_bind_of_ok (statement_eval hou _), hanswer]
    rfl
  · show (u.oids.insert r.oid ⟨r.size, true⟩).get? x = _
    rw [Table.get?_insert, hadded.row]

/-- A registration of an object that has a row looks it up. -/
theorem register_eval_of_some (h : t.closed = false) {r : Request} {e : OidEntry}
    (he : t.oids.get? r.oid = some e) :
    eval Tables.step (register r) t = (.ok (t.found r.oid), t) := by
  unfold register
  rw [eval_bind_of_ok (findObject_eval h r.oid), found_of_some he]
  rfl

end

end Depot.Column
