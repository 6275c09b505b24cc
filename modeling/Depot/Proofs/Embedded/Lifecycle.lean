import Depot.Proofs.Embedded.Refinement
import Depot.Proofs.Registry.Lifecycle

/-!
# The life of a record in an embedded database

Registering stores a record unless there is one, and committing stores the record that it has read
with the flag set. That a record keeps its size and its flag therefore rests on records being read
back as they were written, which holds while they are short enough.

Headlines
* **`transact_passes`**: a transaction on tables that tell of a ledger leaves tables that tell of
  one, and passes every record on.
* **`lifecycle`**: every run on an embedded database with room keeps the life of each record.
-/

namespace Depot.Embedded

open Credential (Gate)
open Registry

/-- The standing of an object as a look-up reads it. -/
def Database.standing (d : Database) (oid : String) : Option Standing :=
  match d.tables.findObject oid with
  | .ok found => found.map fun o => ⟨o.size, o.existing⟩
  | .error _ => none

/-- Registering, with a size of 64 bits, and committing belong to the operations of these names. -/
def Owns (op : Operation) : Call → Prop
  | .register o => ∃ r : Request, op = .put r ∧ Text.fitsInt64 r.size = true ∧ o = r.pendingObject
  | .commit oid => ∃ r : Request, op = .commit r ∧ r.oid = oid
  | _ => True

theorem makes_transaction {P : Call → Prop} {c : Call} (h : P c) : (transaction c).run.Makes P :=
  Program.makes_perform h

/-- The transactions of the steps that an operation takes belong to it. -/
theorem steps_make {op : Operation} (hsize : ∀ r, op = .put r → Text.fitsInt64 r.size = true) :
    storage.StepsMake op (Owns op) where
  passwordHash _ := Program.makes_perform trivial
  find _ := makes_transaction trivial
  register r hop := makes_map (makes_transaction ⟨r, hop, hsize r hop, rfl⟩) _
  commit r hop := makes_transaction ⟨r, hop, rfl⟩
  insertUser _ _ := makes_transaction trivial
  deleteUser _ := makes_transaction trivial
  userNames := makes_transaction trivial
  ensureProject _ := makes_transaction trivial
  projects := makes_transaction trivial
  objects := makes_map (makes_transaction trivial) _
  close := makes_transaction trivial

/-! ### Transactions -/

/-- The tables tell of some ledger, and their records can be read back. -/
structure Legible (d : Database) : Prop where
  tells : ∃ l, Tells l d.tables
  room : Room d.tables

theorem standing_of_tells {d : Database} {l : Ledger} (h : Tells l d.tables)
    (hroom : Room d.tables) (oid : String) : d.standing oid = l.standing oid := by
  unfold Database.standing
  rw [h.found hroom, l.standing_eq_find]

/-- A query leaves the tables as they are. -/
theorem tables_of_map {α : Type} {x : Except Error α} {a : α} {t u : Tables}
    (h : (x.map fun b => (b, t)) = .ok (a, u)) : u = t := by
  cases x with
  | error e => exact absurd h (by simp [Except.map])
  | ok b =>
    have hsame : (b, t) = (a, u) := Except.ok.inj h
    exact (Prod.ext_iff.mp hsame).2.symm

/-- **A transaction leaves tables that tell of a ledger, and passes every record on.** -/
theorem transact_passes {op : Operation} {c : Call} (hc : Owns op c) {l : Ledger} {t u : Tables}
    (h : Tells l t) (hroom : Room t) {a : c.Answer} (ha : t.transact c = .ok (a, u)) :
    ∃ l', Tells l' u ∧ ∀ oid, Passes op oid (l.standing oid) (l'.standing oid) := by
  cases c with
  | register o =>
    obtain ⟨r, rfl, hsize, rfl⟩ := hc
    obtain ⟨o, u', hu, -, htells⟩ := h.register hroom hsize
    have hsame : (Except.ok (o, u') : Except Error _) = .ok (a, u) := hu.symm.trans ha
    cases hsame
    exact ⟨l.register r, htells, l.register_passes r⟩
  | commit oid =>
    obtain ⟨r, rfl, rfl⟩ := hc
    obtain ⟨u', hu, htells⟩ := h.commit hroom r.oid
    have hsame : (Except.ok ((l.commit r.oid).find r.oid, u') : Except Error _) = .ok (a, u) :=
      hu.symm.trans ha
    cases hsame
    exact ⟨l.commit r.oid, htells, l.commit_passes r⟩
  | insertUser name hash =>
    cases ha
    exact ⟨l.addUser name hash, h.addUser name hash, fun _ => Passes.stay _⟩
  | deleteUser name =>
    cases ha
    exact ⟨l.deleteUser name, h.deleteUser name, fun _ => Passes.stay _⟩
  | insertProject name =>
    cases ha
    exact ⟨l.addProject name, h.addProject name, fun _ => Passes.stay _⟩
  | findObject oid => exact ⟨l, tables_of_map ha ▸ h, fun _ => Passes.stay _⟩
  | allProjects => exact ⟨l, tables_of_map ha ▸ h, fun _ => Passes.stay _⟩
  | allObjects => exact ⟨l, tables_of_map ha ▸ h, fun _ => Passes.stay _⟩
  | _ =>
    cases ha
    exact ⟨l, h, fun _ => Passes.stay _⟩

/-- The database refuses a transaction that would leave a record too long to be read back. -/
abbrev roomy : Service Database Call Call.Reply := within (fun d => Room d.tables) Database.step

/-- A transaction of a database with room keeps it legible and passes every record on. -/
theorem roomy_passes {op : Operation} {c : Call} (hc : Owns op c) {d : Database} (h : Legible d) :
    Legible (roomy d c).2 ∧ ∀ oid, Passes op oid (d.standing oid) ((roomy d c).2.standing oid) := by
  obtain ⟨⟨l, hl⟩, hbefore⟩ := h
  by_cases hroom : Room (d.step c).2.tables
  · have hserve : roomy d c = d.step c := within_of_room hroom
    rw [hserve]
    rcases d.step_tables_cases c with hsame | ⟨a, ha⟩
    · refine ⟨⟨⟨l, hsame ▸ hl⟩, hroom⟩, fun oid => ?_⟩
      unfold Database.standing
      rw [hsame]
      exact Passes.stay _
    · obtain ⟨l', hl', hpass⟩ := transact_passes hc hl hbefore ha
      refine ⟨⟨⟨l', hl'⟩, hroom⟩, fun oid => ?_⟩
      rw [standing_of_tells hl hbefore, standing_of_tells hl' hroom]
      exact hpass oid
  · have hserve : (roomy d c).2 = d := by rw [roomy, within, if_neg hroom]
    rw [hserve]
    exact ⟨⟨⟨l, hl⟩, hbefore⟩, fun _ => Passes.stay _⟩

/-- A registration that answers has recorded the object, or found it, with the size it answers. -/
theorem recorded_of_register {d : Database} (h : Legible d) {r : Request}
    (hsize : Text.fitsInt64 r.size = true) {o : Object}
    (ho : (roomy d (.register r.pendingObject)).1 = .ok o) :
    o.oid = r.oid ∧
      Recorded Database.standing r.oid o.size (roomy d (.register r.pendingObject)).2 := by
  obtain ⟨⟨l, hl⟩, hbefore⟩ := h
  by_cases hroom : Room (d.step (.register r.pendingObject)).2.tables
  · have hserve : roomy d (.register r.pendingObject) = d.step (.register r.pendingObject) :=
      within_of_room hroom
    rw [hserve] at ho ⊢
    have hmade := Database.transact_of_step_ok (by simp) ho
    obtain ⟨o', u, hu, hfind, htells⟩ := hl.register hbefore hsize
    have hboth : (o', u) = (o, (d.step (.register r.pendingObject)).2.tables) :=
      Except.ok.inj (hu.symm.trans hmade)
    obtain ⟨rfl, hafter⟩ := Prod.ext_iff.mp hboth
    rw [show u = _ from hafter] at htells
    refine ⟨?_, ⟨o'.size, o'.existing⟩, ?_, rfl⟩
    · obtain ⟨e, -, rfl⟩ := Option.map_eq_some_iff.mp hfind
      rfl
    · rw [standing_of_tells htells hroom, Ledger.standing_eq_find, hfind]
      rfl
  · rw [roomy, within, if_neg hroom] at ho
    exact absurd ho (by simp)

theorem register_recorded {gate : Gate} {r : Request} (hsize : Text.fitsInt64 r.size = true)
    (d : Database) :
    Sure (operations storage gate roomy) (records Database.standing Legible) (.put r)
      (fun found u => ∀ o, found = some o →
        o.oid = r.oid ∧ Recorded Database.standing r.oid o.size u)
      (storage.register r) d := by
  have howns : Owns (.put r) (.register r.pendingObject) := ⟨r, rfl, hsize, rfl⟩
  have hstep : ∀ e, Legible e → Legible (roomy e (.register r.pendingObject)).2 ∧
      (records Database.standing Legible).grows e (roomy e (.register r.pendingObject)).2 :=
    fun e he => ⟨(roomy_passes howns he).1, fun oid => ((roomy_passes howns he).2 oid).stays⟩
  have htransaction : Sure (operations storage gate roomy) (records Database.standing Legible)
      (.put r) (fun o u => o.oid = r.oid ∧ Recorded Database.standing r.oid o.size u)
      (transaction (.register r.pendingObject)) d := by
    unfold transaction
    refine sure_perform fun e he => ⟨(hstep e he).1, (hstep e he).2, fun o ho u _ hg => ?_⟩
    obtain ⟨hoid, hrecorded⟩ := recorded_of_register he hsize ho
    exact ⟨hoid, hrecorded.later hg⟩
  refine Sure.map htransaction fun o u ho => ?_
  rintro o' ⟨⟩
  exact ho

/-- **Every run on an embedded database keeps the life of each record**, as long as its records are
short enough to be read back and the sizes that are registered have 64 bits. -/
theorem lifecycle (gate : Gate) {d : Database} (htells : ∃ l, Tells l d.tables)
    {turns : List (Turn Operation Breakdown)}
    (hsizes : ∀ r, .start (.put r) ∈ turns → Text.fitsInt64 r.size = true)
    (hroom : ∀ k ≤ turns.length,
      Room ((operations storage gate Database.step).reached d turns k).state.tables) :
    Lifecycle Database.standing turns
      ((operations storage gate Database.step).reached d turns) := by
  have hstart : Legible d := ⟨htells, hroom 0 (Nat.zero_le _)⟩
  have hlife : Lifecycle Database.standing turns
      ((operations storage gate roomy).reached d turns) := by
    refine Registry.lifecycle ⟨fun op hop => steps_make fun r hr => hsizes r (hr ▸ hop), ?_⟩ hstart
      fun r e hr => register_recorded (hsizes r hr) e
    exact fun hc he => roomy_passes hc he
  have hsame : (operations storage gate roomy).reached d turns =
      (operations storage gate Database.step).reached d turns := reached_within hroom
  exact hsame ▸ hlife

end Depot.Embedded
