import Depot.Proofs.Column.Server
import Depot.Proofs.Gate
import Depot.Proofs.Registry.Concordance
import Depot.Proofs.Registry.Lifecycle

/-!
# Objects and projects of a backend

Every backend keeps twice which object belongs to which project, or finds it out twice. Whatever
operations it has gone through, its listings of objects and of projects agree with each other and
with its records.

Headlines
* **`Backend.perform_holds`**: an operation over a backend that holds a ledger agrees with the
  ledger's, a cluster among them.
* **`Backend.listings_agree`**: after any operations on new storage of any kind the listings agree.
-/

namespace Depot

open Credential (Gate)
open Registry (Agrees Concordant Ledger Object Operation Project Request eval eval_bind_of_error
  eval_bind_of_ok)

namespace Backend

/-- A backend holds a ledger: it keeps it, or it is a cluster that shows tables which keep it. -/
def Holds (l : Ledger) : Backend → Prop
  | .cluster n => ∃ t, Column.Link.Shows Column.Cluster.Shows n.link t ∧ Column.Tells l t
  | b => b.Keeps l

variable {l : Ledger} {b : Backend}

/-- **An operation over a backend that holds a ledger agrees with the ledger's.** -/
theorem perform_holds (gate : Gate) {op : Operation} (h : b.Holds l) (hroom : b.HasRoom)
    (hop : op ≠ .close) (hsize : ∀ r, op = .put r → Text.fitsInt64 r.size = true) :
    Agrees Holds (l.perform gate op) (b.perform gate op) := by
  cases b with
  | embedded d => exact perform_agrees gate (b := .embedded d) h hroom hop hsize
  | relational d => exact perform_agrees gate (b := .relational d) h hroom hop hsize
  | column s => exact perform_agrees gate (b := .column s) h hroom hop hsize
  | cluster n =>
    obtain ⟨t, hshows, htells⟩ := h
    obtain ⟨houtcome, hshows'⟩ :=
      (Column.mirrors Column.Cluster.serves).stepsMatch.perform hshows gate op
    obtain ⟨hledger, htells'⟩ :=
      Column.implements.perform gate htells trivial hop fun _ _ => trivial
    have hrun := Column.Connection.run_eq (Column.storage.run gate op).run n
    refine ⟨(congrArg Prod.fst hrun).trans (houtcome.trans hledger), _, ?_, htells'⟩
    show Column.Link.Shows _ (Program.run Column.Connection.step _ n).2.link _
    rw [hrun]
    exact hshows'

/-- A backend that holds a ledger looks up the password hashes of the ledger. -/
theorem lookup_of_holds (h : b.Holds l) (user : String) :
    b.lookup user = .ok (l.users.get? user) := by
  cases b with
  | embedded d => exact congrArg Prod.fst (Embedded.implements.passwordHash h user)
  | relational d => exact congrArg Prod.fst (Relational.implements.passwordHash h user)
  | column s =>
    obtain ⟨hscript, htells⟩ := h
    exact (Column.run_unscripted (Column.storage.passwordHash user) hscript).1.trans
      (congrArg Prod.fst (Column.implements.passwordHash htells user))
  | cluster n =>
    obtain ⟨t, hshows, htells⟩ := h
    have hrun := Column.Connection.run_eq (Column.storage.passwordHash user) n
    refine (congrArg Prod.fst hrun).trans ?_
    refine ((Column.mirrors Column.Cluster.serves).stepsMatch.passwordHash user _ _
      hshows).outcome.trans ?_
    exact congrArg Prod.fst (Column.implements.passwordHash htells user)

/-! ### Closed backends -/

/-- A backend is closed. -/
def Closed : Backend → Prop
  | .embedded d => d.closed = true
  | .relational d => d.closed = true
  | .column s => s.script = {} ∧ s.tables.closed = true
  | .cluster n => n.closed = true

/-- A closed backend stays closed. -/
theorem perform_closed (h : b.Closed) (gate : Gate) (op : Operation) :
    (b.perform gate op).2.Closed := by
  cases b with
  | embedded d =>
    refine Program.run_invariant (P := fun d : Embedded.Database => d.closed = true)
      (fun d c hd => ?_) (Embedded.storage.run gate op).run h
    by_cases hc : c = .close
    · subst hc
      rfl
    · rw [Embedded.Database.step_of_closed hd hc]
      exact hd
  | relational d =>
    refine Program.run_invariant (P := fun d : Relational.Database => d.closed = true)
      (fun d c hd => ?_) (Relational.storage.run gate op).run h
    by_cases hc : c = .close
    · subst hc
      rfl
    · rw [Relational.Database.step_of_closed hd hc]
      exact hd
  | column s =>
    obtain ⟨hscript, hclosed⟩ := h
    obtain ⟨-, htables, hscript'⟩ :=
      Column.run_unscripted (Column.storage.run gate op).run hscript
    refine ⟨hscript', (congrArg Column.Tables.closed htables).trans ?_⟩
    refine Program.run_invariant (P := fun t : Column.Tables => t.closed = true)
      (fun t c ht => ?_) (Column.storage.run gate op).run hclosed
    rw [Column.Tables.step_tables_of_closed ht]
    exact ht
  | cluster n =>
    refine Program.run_invariant (P := fun n : Column.Connection => n.closed = true)
      (fun n c hn => ?_) (Column.storage.run gate op).run h
    unfold Column.Connection.step
    split
    · rfl
    · rw [if_pos hn]
      exact hn

/-- Closing closes. -/
theorem closed_of_close (h : b.Holds l) (gate : Gate) : (b.perform gate .close).2.Closed := by
  cases b with
  | embedded d => exact rfl
  | relational d => exact rfl
  | column s =>
    obtain ⟨hscript, htells⟩ := h
    obtain ⟨-, htables, hscript'⟩ :=
      Column.run_unscripted (Column.storage.run gate .close).run hscript
    refine ⟨hscript', (congrArg Column.Tables.closed htables).trans ?_⟩
    have hclose := Column.statement_eval htells.closed .close
    show (eval Column.Tables.step (Column.statement .close >>= fun _ => pure _) s.tables).2.closed
      = true
    rw [eval_bind_of_ok hclose]
    rfl
  | cluster n => exact rfl

/-- Nothing is listed over a closed backend. -/
theorem listings_of_closed (h : b.Closed) (gate : Gate) :
    (∃ e, (b.perform gate .objects).1 = .error e) ∧
      ∃ e, (b.perform gate .projects).1 = .error e := by
  cases b with
  | embedded d =>
    have hfail : ∀ c, c ≠ .close →
        eval Embedded.Database.step (Embedded.transaction c) d = (.error .closed, d) :=
      fun c hc => Embedded.Database.step_of_closed h hc
    exact ⟨⟨_, congrArg Prod.fst (eval_bind_of_error (eval_bind_of_error
        (hfail .allObjects (by simp))))⟩,
      _, congrArg Prod.fst (eval_bind_of_error (hfail .allProjects (by simp)))⟩
  | relational d =>
    have hfail : ∀ c, c ≠ .close → eval Relational.Database.step (Relational.transaction c) d =
        (.error (.backend .poolClosed), d) :=
      fun c hc => Relational.Database.step_of_closed h hc
    exact ⟨⟨_, congrArg Prod.fst (eval_bind_of_error (eval_bind_of_error
        (hfail .committedObjects (by simp))))⟩,
      _, congrArg Prod.fst (eval_bind_of_error (eval_bind_of_error
        (hfail .projectNames (by simp))))⟩
  | column s =>
    obtain ⟨hscript, hclosed⟩ := h
    have hfail : eval Column.Tables.step (Column.statement .allProjects) s.tables =
        (.error .closed, s.tables) := Column.Tables.step_of_closed hclosed (by simp)
    have hoverTables : ∀ op, ((Backend.column s).perform gate op).1 =
        (eval Column.Tables.step (Column.storage.run gate op) s.tables).1 := fun op =>
      (Column.run_unscripted (Column.storage.run gate op).run hscript).1
    rw [hoverTables, hoverTables]
    exact ⟨⟨_, congrArg Prod.fst (eval_bind_of_error (eval_bind_of_error hfail))⟩,
      _, congrArg Prod.fst (eval_bind_of_error (eval_bind_of_error hfail))⟩
  | cluster n =>
    have hfail : eval Column.Connection.step (Column.statement .allProjects) n =
        (.error .closed, n) := by
      have hclosed : n.link.closed = true := h
      show n.step .allProjects = _
      rw [Column.Connection.step_eq, Column.Link.step_of_closed hclosed (by simp)]
      rfl
    exact ⟨⟨_, congrArg Prod.fst (eval_bind_of_error (eval_bind_of_error hfail))⟩,
      _, congrArg Prod.fst (eval_bind_of_error (eval_bind_of_error hfail))⟩

/-! ### Runs -/

/-- New storage: an empty database, column tables or cluster that is open, and in which nothing is
planned to go wrong. -/
def New : Backend → Prop
  | .embedded d => d = {}
  | .relational d => d = {}
  | .column s => s = {}
  | .cluster n => n = ⟨{}, false⟩

/-- New storage holds the empty ledger. -/
theorem New.holds (h : b.New) : b.Holds .empty := by
  cases b with
  | embedded d =>
    obtain rfl := h
    exact ⟨rfl, Embedded.tells_empty⟩
  | relational d =>
    obtain rfl := h
    exact ⟨rfl, Relational.tells_empty⟩
  | column s =>
    obtain rfl := h
    exact ⟨rfl, Column.tells_empty⟩
  | cluster n =>
    obtain rfl := h
    refine ⟨{}, ⟨rfl, ⟨{}, fun _ _ => True⟩, ⟨rfl, rfl, rfl⟩, ⟨rfl, rfl, rfl⟩, fun _ _ => trivial⟩,
      Column.tells_empty⟩

/-- New storage has no records, so none that takes too much room. -/
theorem New.hasRoom (h : b.New) : b.HasRoom := by
  cases b with
  | embedded d =>
    obtain rfl := h
    decide
  | relational | column | cluster => trivial

theorem performAll_closed (h : b.Closed) (gate : Gate) (ops : List Operation) :
    (performAll gate ops b).2.Closed := by
  induction ops generalizing b with
  | nil => exact h
  | cons op ops ih => exact ih (perform_closed h gate op)

/-- A backend that holds a ledger of sound records holds another one after any operations, unless it
has been closed. -/
theorem performAll_holds (gate : Gate) {ops : List Operation} (h : b.Holds l) (hsound : l.Sound)
    (hroom : ∀ k < ops.length, (performAll gate (ops.take k) b).2.HasRoom)
    (hsizes : ∀ r, .put r ∈ ops → Text.fitsInt64 r.size = true) :
    (.close ∉ ops ∧ ∃ l' : Ledger, (performAll gate ops b).2.Holds l' ∧ l'.Sound) ∨
      (.close ∈ ops ∧ (performAll gate ops b).2.Closed) := by
  induction ops generalizing l b with
  | nil => exact .inl ⟨List.not_mem_nil, l, h, hsound⟩
  | cons op ops ih =>
    by_cases hop : op = .close
    · subst hop
      exact .inr ⟨List.mem_cons_self, performAll_closed (closed_of_close h gate) gate ops⟩
    · obtain ⟨-, hholds⟩ := perform_holds gate h (hroom 0 (Nat.succ_pos _)) hop fun r he =>
        hsizes r (he ▸ List.mem_cons_self)
      have hrest := ih hholds (Ledger.perform_sound hsound gate op)
        (fun k hk => hroom (k + 1) (Nat.succ_lt_succ hk))
        (fun r hr => hsizes r (List.mem_cons_of_mem op hr))
      have hmem : .close ∈ op :: ops ↔ .close ∈ ops := by
        rw [List.mem_cons, or_iff_right (Ne.symm hop)]
      rw [hmem]
      exact hrest

/-! ### What a backend lists and records -/

/-- What is recorded of an object, pending or committed, as whoever may read it is answered. -/
def Records (b : Backend) (oid : String) (o : Object) : Prop :=
  (b.perform .everyone (.getPending { oid := oid })).1 = .ok (.object o)

/-- Listings agree with each other and with the records: the projects of a record are listed and so
is a committed record itself, an object that is listed is what a reading of its id gives to a caller
who may pass, and every record has a digest for its id and a size that is not negative. -/
structure Agreeing (gate : Gate) (b : Backend) (os : List Object) (ps : List Project) : Prop where
  concordant : Concordant os ps
  named_listed : ∀ oid o, b.Records oid o → ∀ name ∈ o.projects, ∃ p ∈ ps, p.name = name
  committed_listed : ∀ oid o, b.Records oid o → o.existing = true → o ∈ os
  listed_found : ∀ o ∈ os, ∀ r : Request, r.oid = o.oid → gate.Admits b.lookup r.authorization →
    (b.perform gate (.getPending r)).1 = .ok (.object o)
  recorded_sound : ∀ oid o, b.Records oid o →
    o.oid = oid ∧ Registry.isDigest oid = true ∧ 0 ≤ o.size

/-- A caller who may pass is answered what the ledger has found. -/
theorem getPending_of_holds (h : b.Holds l) (hroom : b.HasRoom) {gate : Gate} {r : Request}
    (hadmits : gate.Admits b.lookup r.authorization) :
    (b.perform gate (.getPending r)).1 = (l.demand r.oid).map .object := by
  have hpasses : l.passes gate r = .ok () := by
    have hruling := Gate.ruling_eq_ok_iff.mpr hadmits
    rw [show b.lookup = fun user => .ok (l.users.get? user) from funext (lookup_of_holds h),
      Gate.ruling_of_ok] at hruling
    unfold Ledger.passes
    rw [hruling]
    rfl
  rw [(perform_holds gate h hroom (by simp) (by simp)).1]
  show (l.allowed (l.passes gate r) _).1 = _
  rw [hpasses]
  rfl

theorem find_of_records (h : b.Holds l) (hroom : b.HasRoom) {oid : String} {o : Object}
    (ho : b.Records oid o) : l.find oid = some o := by
  have hanswer := ho.symm.trans (getPending_of_holds h hroom trivial)
  cases hdemand : l.demand oid with
  | error e =>
    rw [hdemand] at hanswer
    exact nomatch hanswer
  | ok o' =>
    rw [hdemand] at hanswer
    cases hanswer
    exact Ledger.find_of_demand hdemand

/-- What is recorded is what the ledger finds. -/
theorem records_iff (h : b.Holds l) (hroom : b.HasRoom) {oid : String} {o : Object} :
    b.Records oid o ↔ l.find oid = some o := by
  refine ⟨find_of_records h hroom, fun hfind => ?_⟩
  have hanswer : (b.perform .everyone (.getPending { oid := oid })).1 =
      (l.demand oid).map .object := getPending_of_holds h hroom trivial
  unfold Ledger.demand at hanswer
  rwa [hfind] at hanswer

/-- The listings of a backend that holds a ledger are those of the ledger, and agree. -/
theorem agreeing_of_holds (h : b.Holds l) (hroom : b.HasRoom) (hsound : l.Sound) (gate : Gate) :
    Agreeing gate b l.objectList l.projectList where
  concordant := l.concordant
  named_listed oid o ho := Ledger.listed_of_find (find_of_records h hroom ho)
  committed_listed oid o ho := Ledger.mem_objectList_of_find (find_of_records h hroom ho)
  listed_found o ho r hr hadmits := by
    rw [getPending_of_holds h hroom hadmits, hr]
    unfold Ledger.demand
    rw [(Ledger.find_of_mem_objectList ho).1]
    rfl
  recorded_sound oid o ho := by
    have hfind := find_of_records h hroom ho
    refine ⟨Ledger.oid_of_find hfind, ?_⟩
    obtain ⟨e, he, rfl⟩ := Option.map_eq_some_iff.mp hfind
    exact hsound oid e he

/-- **After any operations on new storage of any kind the listings agree**, those of objects with
those of projects and both with the records; after a closing there are none. An embedded database
has room for its records. -/
theorem listings_agree (hnew : b.New) (gate : Gate) (ops : List Operation)
    (hsizes : ∀ r, .put r ∈ ops → Text.fitsInt64 r.size = true)
    (hroom : ∀ k ≤ ops.length, (performAll gate (ops.take k) b).2.HasRoom) :
    (.close ∉ ops → ∃ os ps,
      ((performAll gate ops b).2.perform gate .objects).1 = .ok (.objects os) ∧
      ((performAll gate ops b).2.perform gate .projects).1 = .ok (.projects ps) ∧
      Agreeing gate (performAll gate ops b).2 os ps) ∧
    (.close ∈ ops →
      (∃ e, ((performAll gate ops b).2.perform gate .objects).1 = .error e) ∧
      ∃ e, ((performAll gate ops b).2.perform gate .projects).1 = .error e) := by
  have hlast : (performAll gate ops b).2.HasRoom := by
    have := hroom ops.length (Nat.le_refl _)
    rwa [List.take_length] at this
  rcases performAll_holds gate hnew.holds Ledger.sound_empty (fun k hk => hroom k hk.le) hsizes with
    ⟨hopen, l, hholds, hsound⟩ | ⟨hclose, hclosed⟩
  · refine ⟨fun _ => ⟨l.objectList, l.projectList, ?_, ?_,
      agreeing_of_holds hholds hlast hsound gate⟩, fun hclose => absurd hclose hopen⟩
    · exact (perform_holds gate hholds hlast (by simp) (by simp)).1
    · exact (perform_holds gate hholds hlast (by simp) (by simp)).1
  · exact ⟨fun hopen => absurd hclose hopen, fun _ => listings_of_closed hclosed gate⟩

/-- A visit to a new embedded database leaves an object and two projects. -/
theorem visit_listed :
    ((performAll .everyone visit (.embedded {})).2.perform .everyone .objects).1 =
        .ok (.objects [⟨visit.digest, 12, ["books"], true⟩]) ∧
      ((performAll .everyone visit (.embedded {})).2.perform .everyone .projects).1 =
        .ok (.projects [⟨"books", [visit.digest]⟩, ⟨"films", []⟩]) := by
  have hlisted :
      ((performAll .everyone visit (.embedded {})).2.perform .everyone .objects).1.toOption =
        some (.objects [⟨visit.digest, 12, ["books"], true⟩]) ∧
      ((performAll .everyone visit (.embedded {})).2.perform .everyone .projects).1.toOption =
        some (.projects [⟨"books", [visit.digest]⟩, ⟨"films", []⟩]) := by decide +kernel
  have hok : ∀ {outcome : Registry.Outcome} {a}, outcome.toOption = some a → outcome = .ok a := by
    intro outcome a h
    cases outcome with
    | ok a' => exact congrArg Except.ok (Option.some.inj h)
    | error e => exact nomatch h
  exact ⟨hok hlisted.1, hok hlisted.2⟩

/-- These agree. -/
theorem visit_listings_agree :
    New (.embedded {}) ∧ (∀ r, .put r ∈ visit → Text.fitsInt64 r.size = true) ∧
      (∀ k ≤ visit.length, (performAll .everyone (visit.take k) (.embedded {})).2.HasRoom) ∧
      Agreeing .everyone (performAll .everyone visit (.embedded {})).2
        [⟨visit.digest, 12, ["books"], true⟩] [⟨"books", [visit.digest]⟩, ⟨"films", []⟩] := by
  have hnew : New (.embedded {}) := rfl
  obtain ⟨os, ps, hobjects, hprojects, hagreeing⟩ :=
    (listings_agree hnew .everyone visit visit_sizes visit_room).1 (by decide)
  cases hobjects.symm.trans visit_listed.1
  cases hprojects.symm.trans visit_listed.2
  exact ⟨hnew, visit_sizes, visit_room, hagreeing⟩

end Backend

end Depot
