import Depot.Backend
import Depot.Proofs.Column.Refinement
import Depot.Proofs.Embedded.Refinement
import Depot.Proofs.Relational.Refinement

/-!
# The kinds of storage agree

An embedded database, a relational one and column tables in memory all implement the ledger. Over
any of them a sequence of operations has the outcomes that it has on the ledger, so that the kinds
agree with each other from a new registry on.

Headlines
* **`performAll_eq`**: the outcomes over a backend that keeps a ledger are those of the ledger.
* **`outcomes_agree`**: from empty storage on all kinds have the same outcomes, those of the ledger.
-/

namespace Depot

open Credential (Gate)
open Registry (Agrees Implements Ledger Operation Outcome)

/-! ### Sessions without a script -/

namespace Column

/-- A program over a session in which nothing is planned runs as it does over the tables. -/
theorem run_unscripted {α : Type} (p : Program Call Call.Reply α) {s : Session}
    (h : s.script = {}) :
    (p.run Session.step s).1 = (p.run Tables.step s.tables).1 ∧
      (p.run Session.step s).2.tables = (p.run Tables.step s.tables).2 ∧
      (p.run Session.step s).2.script = {} := by
  induction p generalizing s with
  | done a => exact ⟨rfl, rfl, h⟩
  | call c next ih =>
    have hstep : s.step c =
        ((s.tables.step c).1, { s with tables := (s.tables.step c).2, log := c :: s.log }) := by
      unfold Session.step
      rw [h]
      rfl
    have hrun : (Program.call c next).run Session.step s = (next (s.tables.step c).1).run
        Session.step { s with tables := (s.tables.step c).2, log := c :: s.log } := by
      show (next (s.step c).1).run Session.step (s.step c).2 = _
      rw [hstep]
    rw [hrun]
    exact ih _ h

end Column

namespace Backend

/-- A backend keeps a ledger. -/
def Keeps (l : Ledger) : Backend → Prop
  | .embedded d => Embedded.Keeps l d
  | .relational d => Relational.Keeps l d
  | .column s => s.script = {} ∧ Column.Tells l s.tables
  | .cluster _ => False

/-- Every record of an embedded database takes less than four gibibytes. -/
def HasRoom : Backend → Prop
  | .embedded d => Embedded.Room d.tables
  | _ => True

instance : DecidablePred HasRoom
  | .embedded d => inferInstanceAs (Decidable (Embedded.Room d.tables))
  | .relational _ | .column _ | .cluster _ => inferInstanceAs (Decidable True)

/-- An operation over a backend that keeps a ledger agrees with the ledger's. -/
theorem perform_agrees (gate : Gate) {op : Operation} {l : Ledger} {b : Backend}
    (h : b.Keeps l) (hroom : b.HasRoom) (hop : op ≠ .close)
    (hsize : ∀ r, op = .put r → Text.fitsInt64 r.size = true) :
    Agrees Keeps (l.perform gate op) (b.perform gate op) := by
  cases b with
  | embedded d => exact Embedded.implements.perform gate h hroom hop hsize
  | relational d => exact Relational.implements.perform gate h trivial hop fun _ _ => trivial
  | column s =>
    obtain ⟨hscript, htells⟩ := h
    obtain ⟨houtcome, htables, hscript'⟩ :=
      Column.run_unscripted (Column.storage.run gate op).run hscript
    obtain ⟨houtcome', htells'⟩ :=
      Column.implements.perform gate htells trivial hop fun _ _ => trivial
    refine ⟨houtcome.trans houtcome', hscript', ?_⟩
    show Column.Tells _ ((Column.storage.run gate op).run.run Column.Session.step s).2.tables
    rw [htables]
    exact htells'
  | cluster n => exact absurd h id

/-- **The outcomes over a backend that keeps a ledger are those of the ledger.** -/
theorem performAll_eq (gate : Gate) {ops : List Operation} {l : Ledger} {b : Backend}
    (h : b.Keeps l) (hroom : ∀ k < ops.length, (performAll gate (ops.take k) b).2.HasRoom)
    (hops : .close ∉ ops) (hsizes : ∀ r, .put r ∈ ops → Text.fitsInt64 r.size = true) :
    (performAll gate ops b).1 = l.performAll gate ops := by
  induction ops generalizing l b with
  | nil => rfl
  | cons op ops ih =>
    have hop : op ≠ .close := fun he => hops (he ▸ List.mem_cons_self)
    have hsize : ∀ r, op = .put r → Text.fitsInt64 r.size = true := fun r he =>
      hsizes r (he ▸ List.mem_cons_self)
    obtain ⟨houtcome, hkeeps⟩ := perform_agrees gate h (hroom 0 (Nat.succ_pos _)) hop hsize
    have hrest : (performAll gate ops (b.perform gate op).2).1 =
        (l.perform gate op).2.performAll gate ops :=
      ih hkeeps (fun k hk => hroom (k + 1) (Nat.succ_lt_succ hk))
        (fun hin => hops (List.mem_cons_of_mem op hin))
        (fun r hr => hsizes r (List.mem_cons_of_mem op hr))
    show (b.perform gate op).1 :: (performAll gate ops (b.perform gate op).2).1 = _
    rw [houtcome, hrest]
    rfl

theorem hasRoom_relational (gate : Gate) (ops : List Operation) (d : Relational.Database) :
    (performAll gate ops (.relational d)).2.HasRoom := by
  induction ops generalizing d with
  | nil => trivial
  | cons op ops ih => exact ih _

theorem hasRoom_column (gate : Gate) (ops : List Operation) (s : Column.Session) :
    (performAll gate ops (.column s)).2.HasRoom := by
  induction ops generalizing s with
  | nil => trivial
  | cons op ops ih => exact ih _

/-- **From empty storage on the kinds have the same outcomes**, those of the ledger, with any gate
and any operations but closing: an embedded database as long as its records take less than four
gibibytes each. -/
theorem outcomes_agree (gate : Gate) (ops : List Operation) (hops : .close ∉ ops)
    (hsizes : ∀ r, .put r ∈ ops → Text.fitsInt64 r.size = true) :
    (performAll gate ops (.column {})).1 = Ledger.empty.performAll gate ops ∧
      (performAll gate ops (.relational {})).1 = (performAll gate ops (.column {})).1 ∧
      ((∀ k < ops.length, (performAll gate (ops.take k) (.embedded {})).2.HasRoom) →
        (performAll gate ops (.embedded {})).1 = (performAll gate ops (.column {})).1) := by
  have hcolumn : (performAll gate ops (.column {})).1 = Ledger.empty.performAll gate ops :=
    performAll_eq gate ⟨rfl, Column.tells_empty⟩ (fun k _ => hasRoom_column gate _ _) hops hsizes
  have hrelational : (performAll gate ops (.relational {})).1 = Ledger.empty.performAll gate ops :=
    performAll_eq gate ⟨rfl, Relational.tells_empty⟩ (fun k _ => hasRoom_relational gate _ _) hops
      hsizes
  refine ⟨hcolumn, hrelational.trans hcolumn.symm, fun hroom => ?_⟩
  have hembedded : (performAll gate ops (.embedded {})).1 = Ledger.empty.performAll gate ops :=
    performAll_eq gate ⟨rfl, Embedded.tells_empty⟩ hroom hops hsizes
  exact hembedded.trans hcolumn.symm

/-- Registers an object twice, commits it and lists what there is. -/
def visit : List Operation :=
  [.put { oid := digest, size := 12, repo := "books" },
    .put { oid := digest, size := 30, repo := "films" },
    .commit { oid := digest }, .addProject "films", .projects, .objects]
where
  digest := "6ae8a75555209fd6c44157c0aed8016e763ff435a19cf186f76863140143ff72"

theorem visit_sizes : ∀ r, .put r ∈ visit → Text.fitsInt64 r.size = true := by
  intro r hr
  simp only [visit, List.mem_cons, Operation.put.injEq, reduceCtorEq, List.not_mem_nil, or_false]
    at hr
  rcases hr with rfl | rfl <;> rfl

theorem visit_room : ∀ k ≤ visit.length,
    (performAll .everyone (visit.take k) (.embedded {})).2.HasRoom := by
  decide +kernel

theorem visit_agrees :
    .close ∉ visit ∧ (∀ r, .put r ∈ visit → Text.fitsInt64 r.size = true) ∧
      (performAll .everyone visit (.relational {})).1 =
        (performAll .everyone visit (.column {})).1 ∧
      (∀ k < visit.length, (performAll .everyone (visit.take k) (.embedded {})).2.HasRoom) ∧
      (performAll .everyone visit (.embedded {})).1 =
        (performAll .everyone visit (.column {})).1 := by
  have hops : .close ∉ visit := by decide
  have hroom : ∀ k < visit.length,
      (performAll .everyone (visit.take k) (.embedded {})).2.HasRoom := fun k hk =>
    visit_room k (Nat.le_of_lt hk)
  obtain ⟨-, hrelational, hembedded⟩ := outcomes_agree .everyone visit hops visit_sizes
  exact ⟨hops, visit_sizes, hrelational, hroom, hembedded hroom⟩

end Backend

end Depot
