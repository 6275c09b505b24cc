import Depot.Proofs.Column.History
import Depot.Proofs.Registry.Lifecycle

/-!
# The life of a record in column tables

The row of an object is inserted by a registration, on the condition that there is none, and its
flag is cleared by a commitment. No other statement touches it.

Headlines
* **`steps_make`**: which operations make the statements that add something.
* **`lifecycle`**: every run on column tables keeps the life of each record.
-/

namespace Depot.Column

open Credential (Gate)
open Registry

/-- The standing of an object by its row. -/
def Tables.standing (t : Tables) (oid : String) : Option Standing :=
  (t.oids.get? oid).map fun e => ⟨e.size, !e.pending⟩

/-- The statements that add something belong to a registration or a commitment of the object. -/
def Owns (op : Operation) : Call → Prop
  | .insertPendingOid oid size => ∃ r : Request, op = .put r ∧ r.oid = oid ∧ r.size = size
  | .addProjectOid _ oid .pending => ∃ r : Request, op = .put r ∧ r.oid = oid
  | .addProjectOid _ oid .committed => ∃ r : Request, op = .commit r ∧ r.oid = oid
  | .markOidCommitted oid => ∃ r : Request, op = .commit r ∧ r.oid = oid
  | _ => True

/-- A statement on the tables of objects and projects. -/
def Call.OnRecords : Call → Prop
  | .findUser _ | .insertUserIfAbsent _ _ | .deleteUser _ | .allUsers | .close => False
  | _ => True

/-- A statement by which an operation looks for records, or adds what belongs to it. -/
def Records (op : Operation) (c : Call) : Prop := Owns op c ∧ c.OnRecords

/-! ### The statements of an operation -/

section

variable {op : Operation} {P : Call → Prop}

theorem makes_statement {c : Call} (h : P c) : (statement c).run.Makes P := Program.makes_perform h

theorem makes_findObject (oid : String) : (findObject oid).run.Makes (Records op) := by
  refine makes_bind (makes_statement ⟨trivial, trivial⟩) fun found => ?_
  cases found with
  | none => trivial
  | some row => exact makes_map (makes_statement ⟨trivial, trivial⟩) _

theorem makes_addPending (r : Request) (names : List String) :
    (addPending r.oid names).run.Makes (Records (.put r)) := by
  induction names with
  | nil => trivial
  | cons name names ih =>
    refine makes_bind (makes_statement ⟨trivial, trivial⟩) fun _ => ?_
    exact makes_bind (makes_statement ⟨⟨r, rfl, rfl⟩, trivial⟩) fun _ => ih

theorem makes_register (r : Request) : (register r).run.Makes (Records (.put r)) := by
  refine makes_bind (makes_findObject r.oid) fun found => ?_
  cases found with
  | some o => trivial
  | none =>
    refine makes_bind (makes_addPending r r.projects) fun _ => ?_
    refine makes_bind (makes_statement ⟨⟨r, rfl, rfl, rfl⟩, trivial⟩) fun inserted => ?_
    cases inserted with
    | true => trivial
    | false => exact makes_findObject r.oid

theorem makes_promote (r : Request) (names : List String) :
    (promote r.oid names).run.Makes (Records (.commit r)) := by
  induction names with
  | nil => trivial
  | cons name names ih =>
    refine makes_bind (makes_statement ⟨⟨r, rfl, rfl⟩, trivial⟩) fun _ => ?_
    exact makes_bind (makes_statement ⟨trivial, trivial⟩) fun _ => ih

theorem makes_commit (r : Request) : (commit r.oid).run.Makes (Records (.commit r)) := by
  refine makes_bind (makes_findObject r.oid) fun found => ?_
  cases found with
  | none => trivial
  | some o =>
    refine makes_bind (makes_statement ⟨trivial, trivial⟩) fun names => ?_
    refine makes_bind (makes_promote r names) fun _ => ?_
    refine makes_bind (makes_statement ⟨⟨r, rfl, rfl⟩, trivial⟩) fun _ => ?_
    exact makes_findObject r.oid

/-- **The statements of the steps that an operation takes belong to it.** -/
theorem steps_make : storage.StepsMake op (Owns op) where
  passwordHash _ := Program.makes_perform trivial
  find oid := (makes_findObject oid).mono fun _ h => h.1
  register r hop := hop ▸ (makes_register r).mono fun _ h => h.1
  commit r hop := hop ▸ (makes_commit r).mono fun _ h => h.1
  insertUser _ _ := makes_map (makes_statement trivial) _
  deleteUser _ := makes_statement trivial
  userNames := makes_map (makes_statement trivial) _
  ensureProject _ := makes_statement trivial
  projects := makes_map (makes_statement trivial) _
  objects := makes_bind (makes_statement trivial) fun _ => makes_map (makes_statement trivial) _
  close := makes_statement trivial

end

/-! ### The rows -/

/-- Column tables keep their rows. -/
abbrev rows : Regime Tables := records Tables.standing fun _ => True

section

variable {op : Operation} {t : Tables} {oid : String}

theorem standing_of_get? {e : OidEntry} (h : t.oids.get? oid = some e) :
    t.standing oid = some ⟨e.size, !e.pending⟩ := by
  unfold Tables.standing
  rw [h]
  rfl

/-- A statement passes every row on. -/
theorem step_passes {c : Call} (h : Owns op c) (oid : String) :
    Passes op oid (t.standing oid) ((t.step c).2.standing oid) := by
  cases hafter : (t.step c).2.oids.get? oid with
  | none =>
    have hbefore : t.oids.get? oid = none := by
      cases hb : t.oids.get? oid with
      | none => rfl
      | some e =>
        obtain ⟨e', he', -⟩ := Tables.row_kept c hb
        exact absurd (hafter.symm.trans he') (by simp)
    unfold Tables.standing
    rw [hafter, hbefore]
    exact Passes.stay _
  | some e =>
    rw [standing_of_get? hafter]
    obtain hsame | ⟨rfl, -, hnone, hpending⟩ | ⟨rfl, -, e', he', rfl⟩ := Tables.row_step_cases hafter
    · rw [standing_of_get? hsame]
      exact Passes.stay _
    · obtain ⟨r, hop, hoid, hsize⟩ := h
      unfold Tables.standing
      rw [hnone, hpending, ← hsize]
      exact Passes.record r hop hoid
    · obtain ⟨r, hop, hoid⟩ := h
      rw [standing_of_get? he']
      exact Passes.mark r _ hop hoid

theorem step_grows {c : Call} (h : Owns op c) : rows.grows t (t.step c).2 :=
  fun oid => (step_passes h oid).stays

/-- An insertion that tells that it took effect has left the row. -/
theorem row_inserted {size : Int} (h : (t.step (.insertPendingOid oid size)).1 = .ok true) :
    (t.step (.insertPendingOid oid size)).2.oids.get? oid = some ⟨size, true⟩ := by
  obtain ⟨hopen, hnone⟩ := History.insertPendingOid_ok_true.mp h
  rw [Tables.step_of_open hopen, Tables.get?_oids_answer]
  exact if_pos ⟨rfl, hnone⟩

theorem recorded_of_row {e : OidEntry} (h : t.oids.get? oid = some e) :
    Recorded Tables.standing oid e.size t :=
  ⟨_, standing_of_get? h, rfl⟩

end

variable {gate : Gate} {op : Operation}

/-- An action that makes only statements that belong to its operation is safe. -/
theorem makes_safe {α : Type} {x : Action α} (h : x.run.Makes (Owns op)) {t : Tables} :
    Sure (operations storage gate Tables.step) rows op (fun _ _ => True) x t :=
  Sure.of_makes (fun _ _ hc _ => ⟨trivial, step_grows hc⟩) h

/-- A statement that belongs to its operation is safe and answers as promised from then on. -/
theorem statement_sure {c : Call} (hc : Owns op c) {post : c.Answer → Tables → Prop}
    (h : ∀ (t : Tables) a, (t.step c).1 = .ok a → ∀ u, rows.grows (t.step c).2 u → post a u)
    (t : Tables) : Sure (operations storage gate Tables.step) rows op post (statement c) t := by
  unfold statement
  exact sure_perform fun t _ => ⟨trivial, step_grows hc, fun a ha u _ hg => h t a ha u hg⟩

/-- A look-up finds an object of that id and of the recorded size. -/
theorem findObject_recorded (oid : String) (t : Tables) :
    Sure (operations storage gate Tables.step) rows op
      (fun found u => ∀ o, found = some o → o.oid = oid ∧ Recorded Tables.standing oid o.size u)
      (findObject oid) t := by
  have hrow : Sure (operations storage gate Tables.step) rows op
      (fun found u => ∀ row : OidRow, found = some row →
        row.oid = oid ∧ Recorded Tables.standing oid row.size u) (statement (.findOid oid)) t := by
    have howns : Owns op (.findOid oid) := trivial
    refine statement_sure howns (fun u found hfound v hg row hsome => ?_) t
    obtain ⟨-, rfl⟩ := Tables.open_of_step_ok (by simp) hfound
    obtain ⟨e, he, rfl⟩ := Option.map_eq_some_iff.mp hsome
    have hrecorded : Recorded Tables.standing oid e.size u := recorded_of_row he
    exact ⟨rfl, hrecorded.later (rows.trans (step_grows howns) hg)⟩
  refine Sure.bind hrow fun found u _ _ hfound => ?_
  cases found with
  | none => exact Sure.pure fun _ _ _ _ h => absurd h (by simp)
  | some row =>
    have howns : Owns op (.projectsWithOid oid (membershipOf row)) := trivial
    have hnames : Sure (operations storage gate Tables.step) rows op (fun _ v => rows.grows u v)
        (statement (.projectsWithOid oid (membershipOf row))) u :=
      (Sure.remember (makes_safe (makes_statement howns))).weaken fun _ _ _ hv => hv.2
    refine Sure.map hnames fun names v hg => ?_
    rintro o ⟨⟩
    exact hfound v trivial hg row rfl

/-- A registration answers with the object and the recorded size. -/
theorem register_recorded (r : Request) (t : Tables) :
    Sure (operations storage gate Tables.step) rows (.put r)
      (fun found u => ∀ o, found = some o → o.oid = r.oid ∧ Recorded Tables.standing r.oid o.size u)
      (register r) t := by
  refine Sure.bind (findObject_recorded r.oid t) fun found u _ _ hfound => ?_
  cases found with
  | some o => exact Sure.pure fun v hv hg => hfound v hv hg
  | none =>
    have hinsert : ∀ v, Sure (operations storage gate Tables.step) rows (.put r)
        (fun inserted x => inserted = true → Recorded Tables.standing r.oid r.size x)
        (statement (.insertPendingOid r.oid r.size)) v := by
      have howns : Owns (.put r) (.insertPendingOid r.oid r.size) := ⟨r, rfl, rfl, rfl⟩
      refine statement_sure howns ?_
      rintro x inserted hinserted y hg rfl
      exact (recorded_of_row (row_inserted hinserted)).later hg
    refine Sure.before (makes_safe ((makes_addPending r r.projects).mono fun _ h => h.1)) fun _ v => ?_
    refine Sure.bind (hinsert v) fun inserted x _ _ hx => ?_
    cases inserted with
    | true =>
      refine Sure.pure fun y hy hg => ?_
      rintro o ⟨⟩
      exact ⟨rfl, hx y hy hg rfl⟩
    | false => exact findObject_recorded r.oid x

/-- **Every run on column tables keeps the life of each record.** -/
theorem lifecycle (gate : Gate) (t : Tables) (turns : List (Turn Operation Breakdown)) :
    Lifecycle Tables.standing turns ((operations storage gate Tables.step).reached t turns) :=
  Registry.lifecycle ⟨fun _ _ => steps_make, fun h _ => ⟨trivial, step_passes h⟩⟩ trivial
    fun r t _ => register_recorded r t

end Depot.Column
