import Depot.Proofs.Registry.Lifecycle
import Depot.Proofs.Relational.Refinement

/-!
# The life of a record in a relational database

Registering inserts a row unless there is one, committing clears its flag, and both read the row in
the same transaction. No other transaction touches the table of objects.

Headlines
* **`lifecycle`**: every run on a relational database keeps the life of each record.
-/

namespace Depot.Relational

open Credential (Gate)
open Registry hiding Entry

/-- The standing of an object by its row. -/
def Tables.standing (t : Tables) (oid : String) : Option Standing :=
  (t.oids.get? oid).map fun e => ⟨e.size, !e.pending⟩

/-- The standing of an object in a database. -/
def Database.standing (d : Database) (oid : String) : Option Standing := d.tables.standing oid

/-- Registering and committing belong to the operations of these names. -/
def Owns (op : Operation) : Call → Prop
  | .register o => ∃ r : Request, op = .put r ∧ o = r.pendingObject
  | .commit oid => ∃ r : Request, op = .commit r ∧ r.oid = oid
  | _ => True

theorem makes_transaction {P : Call → Prop} {c : Call} (h : P c) : (transaction c).run.Makes P :=
  Program.makes_perform h

/-- The transactions of the steps that an operation takes belong to it. -/
theorem steps_make {op : Operation} : storage.StepsMake op (Owns op) where
  passwordHash _ := Program.makes_perform trivial
  find _ := makes_transaction trivial
  register r hop := makes_transaction ⟨r, hop, rfl⟩
  commit r hop := makes_transaction ⟨r, hop, rfl⟩
  insertUser _ _ := makes_transaction trivial
  deleteUser _ := makes_transaction trivial
  userNames := makes_transaction trivial
  ensureProject _ := makes_transaction trivial
  projects := makes_bind (makes_transaction trivial) fun _ =>
    makes_map (makes_transaction trivial) _
  objects := makes_bind (makes_transaction trivial) fun _ =>
    makes_map (makes_transaction trivial) _
  close := makes_transaction trivial

/-! ### The rows -/

section

variable {t : Tables}

/-- Joining an object to projects leaves the rows of objects and users. -/
theorem kept_join (t : Tables) (oid name : String) :
    (t.join oid name).oids = t.oids ∧ (t.join oid name).users = t.users := by
  have hproject : (t.insertProject name).oids = t.oids ∧ (t.insertProject name).users = t.users := by
    rw [insertProject_eq]
    exact ⟨rfl, rfl⟩
  unfold Tables.join
  simp only
  split
  · rw [insertMap_eq]
    exact hproject
  · exact hproject

theorem kept_foldl_join (names : List String) (oid : String) (t : Tables) :
    (names.foldl (Tables.join oid) t).oids = t.oids ∧
      (names.foldl (Tables.join oid) t).users = t.users := by
  induction names generalizing t with
  | nil => exact ⟨rfl, rfl⟩
  | cons name names ih =>
    obtain ⟨hoids, husers⟩ := kept_join t oid name
    obtain ⟨hoids', husers'⟩ := ih (t.join oid name)
    exact ⟨hoids'.trans hoids, husers'.trans husers⟩

theorem oids_register (t : Tables) (o : Object) : (t.register o).oids =
    if t.oids.contains o.oid then t.oids else t.oids.insert o.oid ⟨o.size, true⟩ := by
  unfold Tables.register
  split
  · rfl
  · exact (kept_foldl_join ..).1

theorem users_register (t : Tables) (o : Object) : (t.register o).users = t.users := by
  unfold Tables.register
  split
  · rfl
  · exact (kept_foldl_join ..).2

/-- A registration records its object as pending if there is no row. -/
theorem register_passes (r : Request) (oid : String) :
    Passes (.put r) oid (t.standing oid) ((t.register r.pendingObject).standing oid) := by
  unfold Tables.standing
  rw [oids_register]
  cases hrow : t.oids.contains r.pendingObject.oid with
  | true => exact Passes.stay _
  | false =>
    rw [if_neg (by simp), Table.get?_insert]
    by_cases hoid : oid = r.pendingObject.oid
    · rw [if_pos hoid, hoid, Table.contains_eq_false.mp hrow]
      exact Passes.record r rfl rfl
    · rw [if_neg hoid]
      exact Passes.stay _

/-- A commitment marks its object if there is a row. -/
theorem clearPending_passes (r : Request) (oid : String) :
    Passes (.commit r) oid (t.standing oid) ((t.clearPending r.oid).standing oid) := by
  unfold Tables.standing Tables.clearPending
  rw [Table.get?_modify]
  by_cases hoid : oid = r.oid
  · rw [if_pos hoid]
    cases t.oids.get? oid with
    | none => exact Passes.stay _
    | some e => exact Passes.mark r _ rfl hoid.symm
  · rw [if_neg hoid]
    exact Passes.stay _

/-- A transaction passes every row on. -/
theorem transact_passes {op : Operation} {c : Call} (h : Owns op c) (oid : String) :
    Passes op oid (t.standing oid) ((t.transact c).2.standing oid) := by
  cases c with
  | register o =>
    obtain ⟨r, rfl, rfl⟩ := h
    exact register_passes r oid
  | commit x =>
    obtain ⟨r, rfl, rfl⟩ := h
    exact clearPending_passes r oid
  | insertUser name hash =>
    have hsame : (t.insertUser name hash).oids = t.oids := by
      unfold Tables.insertUser
      split <;> rfl
    show Passes op oid _ ((t.insertUser name hash).standing oid)
    unfold Tables.standing
    rw [hsame]
    exact Passes.stay _
  | insertProject name =>
    show Passes op oid _ ((t.insertProject name).standing oid)
    rw [insertProject_eq]
    exact Passes.stay _
  | _ => exact Passes.stay _

/-- What a look-up gives is as recorded. -/
theorem recorded_of_findObject {oid : String} {o : Object} (h : t.findObject oid = some o) :
    o.oid = oid ∧ Recorded Tables.standing oid o.size t := by
  obtain ⟨e, he, rfl⟩ := Option.map_eq_some_iff.mp h
  refine ⟨rfl, ⟨e.size, !e.pending⟩, ?_, rfl⟩
  unfold Tables.standing
  rw [he]
  rfl

end

/-! ### Transactions -/

theorem step_passes {d : Database} {op : Operation} {c : Call} (h : Owns op c) (oid : String) :
    Passes op oid (d.standing oid) ((d.step c).2.standing oid) := by
  unfold Database.standing
  rcases d.step_tables_cases c with hsame | hafter
  · rw [hsame]
    exact Passes.stay _
  · rw [hafter]
    exact transact_passes h oid

/-- A registration answers with the object and the recorded size. -/
theorem register_recorded {gate : Gate} (r : Request) (d : Database) :
    Sure (operations storage gate Database.step) (records Database.standing fun _ => True) (.put r)
      (fun found u => ∀ o, found = some o →
        o.oid = r.oid ∧ Recorded Database.standing r.oid o.size u)
      (transaction (.register r.pendingObject)) d := by
  have howns : Owns (.put r) (.register r.pendingObject) := ⟨r, rfl, rfl⟩
  have hgrows : ∀ e : Database, (records Database.standing fun _ => True).grows e
      (e.step (.register r.pendingObject)).2 := fun e oid => (step_passes howns oid).stays
  unfold transaction
  refine sure_perform fun e _ => ⟨trivial, hgrows e, ?_⟩
  rintro found hfound u _ hg o rfl
  obtain ⟨ho, htables⟩ := Database.answer_of_step_ok (by simp) hfound
  obtain ⟨hoid, hrecorded⟩ := recorded_of_findObject ho.symm
  have hafter : Recorded Database.standing r.oid o.size
      (e.step (.register r.pendingObject)).2 := by
    unfold Recorded Database.standing
    rw [htables]
    exact hrecorded
  exact ⟨hoid, hafter.later hg⟩

/-- **Every run on a relational database keeps the life of each record.** -/
theorem lifecycle (gate : Gate) (d : Database) (turns : List (Turn Operation Breakdown)) :
    Lifecycle Database.standing turns
      ((operations storage gate Database.step).reached d turns) :=
  Registry.lifecycle ⟨fun _ _ => steps_make, fun h _ => ⟨trivial, step_passes h⟩⟩ trivial
    fun r d _ => register_recorded r d

end Depot.Relational
