import Depot.Proofs.Column.Action
import Depot.Proofs.Column.View

/-!
# Runs of a column registry

The operations of a column registry side by side over tables in memory, a statement at a time, with
what has been made of their statements so far. A statement of an operation may fail, whether or not
it took effect, and ends the operation then.

Headlines
* `registry` is the system of all operations, `History.Registered` says which registration made the
  row of an object, `History.Moved` that a commitment added it to a committed set.
* **`exists_task_of_mem_log`**: every statement of a run was made by an operation started in it.
-/

namespace Depot.Column

open Credential (Gate)
open Registry (Breakdown Operation Outcome Request)

/-- A statement that has been made. -/
structure Made where
  /-- The operation that it belongs to. -/
  operation : Operation
  /-- The statement. -/
  call : Call
  /-- The tables that it was made on. -/
  tables : Tables

/-- Tables and what has been made on them. -/
structure History where
  /-- The tables. -/
  tables : Tables
  /-- The statements, the latest first. -/
  log : List Made := []

namespace History

/-- What a statement of an operation replies, and the history after it. -/
def serve (op : Operation) (w : History) (c : Call) : c.Reply × History :=
  ((w.tables.step c).1, ⟨(w.tables.step c).2, ⟨op, c, w.tables⟩ :: w.log⟩)

/-- The row of an object, if there is one. -/
def row (w : History) (oid : String) : Option OidEntry := w.tables.oids.get? oid

/-- A set of a project holds an object. -/
def Holds (w : History) (m : Membership) (name oid : String) : Prop :=
  w.tables.holds m name oid = true

/-- The row of an object was made for a request: its registration's conditional insertion told that
it took effect. -/
def Registered (w : History) (oid : String) (r : Request) : Prop :=
  ∃ x ∈ w.log, x.operation = .put r ∧ x.call = .insertPendingOid oid r.size ∧
    (x.tables.step (.insertPendingOid oid r.size)).1 = .ok true

instance (w : History) (m : Membership) (name oid : String) : Decidable (w.Holds m name oid) :=
  inferInstanceAs (Decidable (_ = true))

/-- A commitment of an object has added it to the committed set of a project. -/
def Moved (w : History) (name oid : String) : Prop :=
  ∃ x ∈ w.log, (∃ r : Request, x.operation = .commit r ∧ r.oid = oid) ∧
    x.call = .addProjectOid name oid .committed ∧ x.tables.closed = false

/-- A statement that clears the pending flag of an object has been made on open tables. -/
def Cleared (w : History) (oid : String) : Prop :=
  ∃ x ∈ w.log, x.call = .markOidCommitted oid ∧ x.tables.closed = false

/-- The conditional insertion takes effect on open tables without a row. -/
theorem insertPendingOid_ok_true {t : Tables} {oid : String} {size : Int} :
    (t.step (.insertPendingOid oid size)).1 = .ok true ↔
      t.closed = false ∧ t.oids.get? oid = none := by
  cases ht : t.closed with
  | true => simp [Tables.step_of_closed ht]
  | false =>
    rw [Tables.step_of_open ht]
    cases h : t.oids.get? oid <;> simp [Tables.answer, Table.contains, h]

instance (w : History) (oid : String) (r : Request) : Decidable (w.Registered oid r) :=
  decidable_of_iff (∃ x ∈ w.log, x.operation = .put r ∧ x.call = .insertPendingOid oid r.size ∧
      x.tables.closed = false ∧ x.tables.oids.get? oid = none)
    (exists_congr fun _ => and_congr_right fun _ => and_congr_right fun _ =>
      and_congr_right fun _ => insertPendingOid_ok_true.symm)

theorem registered_serve {op : Operation} {w : History} {c : Call} {oid : String} {r : Request} :
    (w.serve op c).2.Registered oid r ↔
      w.Registered oid r ∨
      (op = .put r ∧ c = .insertPendingOid oid r.size ∧ w.tables.closed = false ∧
        w.row oid = none) := by
  unfold Registered serve row
  simp only [List.mem_cons, exists_eq_or_imp]
  rw [or_comm]
  exact or_congr_right (and_congr_right fun _ => and_congr_right fun _ => insertPendingOid_ok_true)

theorem moved_serve {op : Operation} {w : History} {c : Call} {name oid : String} :
    (w.serve op c).2.Moved name oid ↔
      w.Moved name oid ∨
      ((∃ r : Request, op = .commit r ∧ r.oid = oid) ∧ c = .addProjectOid name oid .committed ∧
        w.tables.closed = false) := by
  unfold Moved serve
  simp only [List.mem_cons, exists_eq_or_imp]
  exact or_comm

theorem cleared_serve {op : Operation} {w : History} {c : Call} {oid : String} :
    (w.serve op c).2.Cleared oid ↔
      w.Cleared oid ∨ (c = .markOidCommitted oid ∧ w.tables.closed = false) := by
  unfold Cleared serve
  simp only [List.mem_cons, exists_eq_or_imp]
  exact or_comm

end History

/-- The operations of a column registry. -/
def operation (gate : Gate) (op : Operation) : Program Call Call.Reply Outcome :=
  (storage.run gate op).run

/-- The operations of a column registry side by side, with all that is made of their statements. -/
def registry (gate : Gate) : Protocol Operation History Breakdown Call Call.Reply Outcome :=
  sessions (operation gate) History.serve

/-- A registry without objects and projects, in which no operation has been started. -/
def vacant (users : Table String String) : System Operation History Call Call.Reply Outcome :=
  ⟨⟨{ users := users }, []⟩, []⟩

/-- An operation is started, and goes on by a number of statements that are all answered. It is the
`n`-th to be started, counted from zero. -/
def undisturbed (n : Nat) (op : Operation) (count : Nat) : List (Turn Operation Breakdown) :=
  .start op :: List.replicate count (.call n .answered)

/-- Every statement of a run was made by an operation that was started in it. -/
theorem exists_task_of_mem_log {gate : Gate} {users : Table String String}
    {turns : List (Turn Operation Breakdown)} {x : Made}
    (hx : x ∈ ((registry gate).run (vacant users) turns).state.log) :
    ∃ t ∈ ((registry gate).run (vacant users) turns).tasks, t.origin = x.operation := by
  suffices h : ∀ (turns : List (Turn Operation Breakdown))
      (s : System Operation History Call Call.Reply Outcome),
      (∀ x ∈ s.state.log, ∃ t ∈ s.tasks, t.origin = x.operation) →
      ∀ x ∈ ((registry gate).run s turns).state.log,
        ∃ t ∈ ((registry gate).run s turns).tasks, t.origin = x.operation from
    h turns _ (fun x hx => absurd hx List.not_mem_nil) x hx
  intro turns
  induction turns with
  | nil => exact fun s hs => hs
  | cons e turns ih =>
    intro s hs
    apply ih
    obtain ⟨i, -, he⟩ | ⟨n, i, c, next, fate, -, hn, he⟩ | he := (registry gate).advance_cases s e
    · rw [he]
      intro x hx
      obtain ⟨t, ht, ho⟩ := hs x hx
      exact ⟨t, List.mem_append_left _ ht, ho⟩
    · rw [he]
      -- the origins stay, and what is new in the log was made for the task that went on
      have hkeep : ∀ (op : Operation) (rest : Program Call Call.Reply Outcome),
          (∃ t ∈ s.tasks, t.origin = op) → ∃ t ∈ s.tasks.set n ⟨i, rest⟩, t.origin = op := by
        rintro op rest ⟨t, ht, rfl⟩
        obtain ⟨k, hk⟩ := List.mem_iff_getElem?.mp ht
        by_cases hnk : n = k
        · subst hnk
          obtain rfl := Option.some.inj (hn.symm.trans hk)
          have hlt := (List.getElem?_eq_some_iff.mp hn).1
          exact ⟨⟨i, rest⟩, List.mem_set hlt _, rfl⟩
        · have hk' : (s.tasks.set n ⟨i, rest⟩)[k]? = some t := by
            rw [List.getElem?_set_ne hnk]
            exact hk
          exact ⟨t, List.mem_of_getElem? hk', rfl⟩
      have hself : ∃ t ∈ s.tasks, t.origin = i := ⟨_, List.mem_of_getElem? hn, rfl⟩
      intro x hx
      apply hkeep
      cases fate with
      | refused e => exact hs x hx
      | answered =>
        rcases List.mem_cons.mp hx with rfl | hx
        · exact hself
        · exact hs x hx
      | unconfirmed e =>
        rcases List.mem_cons.mp hx with rfl | hx
        · exact hself
        · exact hs x hx
    · rw [he]
      exact hs

end Depot.Column
