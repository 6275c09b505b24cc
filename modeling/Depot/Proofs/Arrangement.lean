import Depot.Column.Script
import Depot.Proofs.Column.Order
import Depot.Proofs.Relational.Order

/-!
# The order of rows is immaterial

A server may give the rows of an answer in one order now and in another the next time. Two sessions
that hold the same column tables are the same to a registry, whatever orders they pick, and so are
two relational databases that differ in the order of joined rows.

Headlines
* **`Column.Session.mirrors`**: a scripted session that runs smoothly mirrors its tables, in
  either order.
* **`order_of_rows_is_immaterial`**: operations over two such stores have the same outcomes and
  leave the same tables.
-/

namespace Depot

open Credential (Gate)
open Registry (Operation)

namespace Column

variable {σ : Type} {service : Service σ Call Call.Reply} {s : σ} {t : Tables}

/-- A session in some state holds tables: from there on it answers every statement as they do, but
for the order of rows and of the members of sets, which it may pick anew for every answer. -/
def Holds (service : Service σ Call Call.Reply) (s : σ) (t : Tables) : Prop :=
  ∃ R, Mirrors service R ∧ R s t

/-- Operations over a session have the outcomes that they have over the tables it holds, and it
holds what they leave of them. -/
theorem Holds.performAll (h : Holds service s t) (gate : Gate) (ops : List Operation) :
    (storage.performAll gate service ops s).1 = (storage.performAll gate Tables.step ops t).1 ∧
      Holds service (storage.performAll gate service ops s).2
        (storage.performAll gate Tables.step ops t).2 := by
  obtain ⟨R, hmirrors, hR⟩ := h
  exact ⟨hmirrors.stepsMatch.performAll gate ops hR, R, hmirrors,
    hmirrors.stepsMatch.performAll_related gate ops hR⟩

theorem alike_refl (c : Call) (a : c.Answer) : Alike c a a := by
  cases c <;> exact .refl _

/-- Reversing lists is one way to reorder them. -/
theorem alike_reverseAnswer (c : Call) (a : c.Answer) : Alike c (reverseAnswer c a) a := by
  cases c with
  | allOids | projectsWithOid | allUsers => exact List.reverse_perm _
  | allProjects =>
    have hrow : ∀ row : ProjectRow,
        ProjectRow.arranged { row with oids := row.oids.reverse } = row.arranged := by
      intro row
      unfold ProjectRow.arranged
      rw [Registry.sortNames_eq_of_perm (List.reverse_perm row.oids)]
    have hrows : (reverseAnswer .allProjects a).map ProjectRow.arranged =
        (a.map ProjectRow.arranged).reverse := by
      simp only [reverseAnswer, List.map_reverse, List.map_map, Function.comp_def, hrow]
    exact (hrows ▸ List.reverse_perm _ : List.Perm _ _)
  | _ => rfl

/-- A session in which no statement fails and no other callers' statements go before one. -/
def Session.Smooth (s : Session) : Prop := s.script.faults = [] ∧ s.script.races = []

/-- **A session that runs smoothly mirrors its tables**, in either order. -/
theorem Session.mirrors : Mirrors Session.step fun s t => s.Smooth ∧ s.tables = t := by
  have hstep : ∀ (s : Session) (c : Call), s.Smooth →
      s.step c = (if s.script.reversed then (s.tables.step c).1.map (reverseAnswer c)
        else (s.tables.step c).1,
        { s with tables := (s.tables.step c).2, log := c :: s.log }) := by
    intro s c ⟨hfaults, hraces⟩
    unfold Session.step
    rw [hfaults, hraces]
    rfl
  constructor
  · rintro s _ c ⟨hs, rfl⟩ -
    rw [hstep s c hs]
    cases (s.tables.step c).1 with
    | error e => cases s.script.reversed <;> rfl
    | ok a =>
      cases s.script.reversed with
      | false => exact alike_refl c a
      | true => exact alike_reverseAnswer c a
  · rintro s _ c ⟨hs, rfl⟩ -
    rw [hstep s c hs]
    exact ⟨hs, rfl⟩

theorem Session.holds {s : Session} (h : s.Smooth) : Holds Session.step s s.tables :=
  ⟨_, Session.mirrors, h, rfl⟩

end Column

namespace Relational

/-- An answer with its joined rows in reverse. -/
def reverseJoin (c : Call) (a : c.Answer) : c.Answer :=
  match c, a with
  | .committedMembership, rows => rows.reverse
  | _, a => a

/-- A database whose join gives its rows in reverse. -/
def Database.stepReversed (d : Database) (c : Call) : c.Reply × Database :=
  ((d.step c).1.map (reverseJoin c), (d.step c).2)

theorem Database.answersAlike_reversed :
    AnswersAlike Database.step Database.stepReversed Eq where
  reply := by
    rintro d _ rfl c
    unfold Database.stepReversed
    cases (d.step c).1 with
    | error e => rfl
    | ok a =>
      cases c with
      | committedMembership => exact (List.reverse_perm _).symm
      | _ => rfl
  related := by
    rintro d _ rfl c
    rfl

end Relational

/-- **The order of rows is immaterial.** Two sessions that hold the same column tables, each
answering its lists in whatever order it likes, give a sequence of operations the same outcomes and
hold the same tables after it; and two relational databases that answer alike but for the order of
joined rows give it the same outcomes and answer alike after it. -/
theorem order_of_rows_is_immaterial (gate : Gate) (ops : List Operation) :
    (∀ {σ τ : Type} {service : Service σ Column.Call Column.Call.Reply}
      {service' : Service τ Column.Call Column.Call.Reply} {s : σ} {s' : τ} {t : Column.Tables},
      Column.Holds service s t → Column.Holds service' s' t →
        (Column.storage.performAll gate service ops s).1 =
          (Column.storage.performAll gate service' ops s').1 ∧
        ∃ t', Column.Holds service (Column.storage.performAll gate service ops s).2 t' ∧
          Column.Holds service' (Column.storage.performAll gate service' ops s').2 t') ∧
    (∀ {σ τ : Type} {service : Service σ Relational.Call Relational.Call.Reply}
      {service' : Service τ Relational.Call Relational.Call.Reply} {R : σ → τ → Prop} {s : σ}
      {s' : τ},
      Relational.AnswersAlike service service' R → R s s' →
        (Relational.storage.performAll gate service ops s).1 =
          (Relational.storage.performAll gate service' ops s').1 ∧
        R (Relational.storage.performAll gate service ops s).2
          (Relational.storage.performAll gate service' ops s').2) := by
  constructor
  · intro σ τ service service' s s' t hs hs'
    obtain ⟨houtcomes, hholds⟩ := hs.performAll gate ops
    obtain ⟨houtcomes', hholds'⟩ := hs'.performAll gate ops
    exact ⟨houtcomes.trans houtcomes'.symm, _, hholds, hholds'⟩
  · intro σ τ service service' R s s' halike hR
    exact ⟨halike.stepsMatch.performAll gate ops hR,
      halike.stepsMatch.performAll_related gate ops hR⟩

/-- Reads an object that two projects wait for, commits it and lists what there is. -/
def release : List Operation :=
  [.getPending { oid := "map" }, .commit { oid := "map" }, .projects, .objects]

/-- A session over tables with that object and a committed one. -/
def releasing : Column.Session where
  tables := Column.Tables.runAll {} [.addProjectOid "books" "map" .pending,
    .addProjectOid "films" "map" .pending, .insertPendingOid "map" 12,
    .addProjectOid "books" "atlas" .committed, .insertPendingOid "atlas" 30,
    .markOidCommitted "atlas"]

/-- A session over the same tables that answers its lists in reverse. -/
def releasingReversed : Column.Session := { releasing with script := { reversed := true } }

/-- A database with the two objects. -/
def releasingDatabase : Relational.Database where
  tables := (({} : Relational.Tables).register ⟨"atlas", 30, ["books"], false⟩).clearPending "atlas"
    |>.register ⟨"map", 12, ["films", "books"], false⟩

/-- The two projects are answered in another order, to no effect. -/
theorem release_in_reverse :
    (releasing.step (.projectsWithOid "map" .pending)).1 = .ok ["books", "films"] ∧
      (releasingReversed.step (.projectsWithOid "map" .pending)).1 = .ok ["films", "books"] ∧
      (Column.storage.performAll .everyone Column.Session.step release releasing).1 =
        (Column.storage.performAll .everyone Column.Session.step release releasingReversed).1 ∧
      (Relational.storage.performAll .everyone Relational.Database.step release
          releasingDatabase).1 =
        (Relational.storage.performAll .everyone Relational.Database.stepReversed release
          releasingDatabase).1 := by
  obtain ⟨hcolumn, hrelational⟩ := order_of_rows_is_immaterial .everyone release
  have hholds : Column.Holds Column.Session.step releasing releasing.tables :=
    Column.Session.holds ⟨rfl, rfl⟩
  have hreversed : Column.Holds Column.Session.step releasingReversed releasing.tables :=
    Column.Session.holds (s := releasingReversed) ⟨rfl, rfl⟩
  exact ⟨by decide +kernel, by decide +kernel, (hcolumn hholds hreversed).1,
    (hrelational Relational.Database.answersAlike_reversed rfl).1⟩

end Depot
