import Depot.Embedded.Store
import Depot.Relational.Store

/-!
# What a transaction makes of a database

A transaction over closed connections fails. Over open ones it leaves the tables that it makes, and
an embedded one that fails leaves the tables that it found. Closing aside, all that is known of the
steps of these databases is read from here.

Headlines
* **`Embedded.Database.step_cases`**, **`Relational.Database.step_cases`**: a step fails and leaves
  the database, or leaves the tables that its transaction makes.
* **`Embedded.Tables.register_cases`**, **`Embedded.Tables.commit_cases`**: what the two transactions
  that read records before they write have made if they succeed.
-/

namespace Depot

namespace Embedded

open Registry (Object)

/-- A registration that succeeds has found a record and left it, or has stored one. -/
theorem Tables.register_cases {t u : Tables} {o stored : Object}
    (h : t.register o = .ok (stored, u)) :
    (t.findObject o.oid = .ok (some stored) ∧ u = t) ∨
      (t.findObject o.oid = .ok none ∧ stored = o ∧ u = o.projects.foldl Tables.ensureProject
        { t with objects := t.objects.insert o.oid o.encode }) := by
  unfold register at h
  cases hfound : t.findObject o.oid with
  | error e =>
    rw [hfound] at h
    cases h
  | ok found =>
    rw [hfound] at h
    cases found with
    | some earlier =>
      cases h
      exact .inl ⟨rfl, rfl⟩
    | none =>
      cases h
      exact .inr ⟨rfl, rfl, rfl⟩

/-- A commitment that succeeds has found nothing and left the tables, or has marked the record and
listed the object under the projects of the record. -/
theorem Tables.commit_cases {t u : Tables} {oid : String} {found : Option Object}
    (h : t.commit oid = .ok (found, u)) :
    (found = none ∧ u = t) ∨
      ∃ stored projects, t.findObject oid = .ok (some stored) ∧
        stored.projects.foldlM (enlist oid) t.projects = .ok projects ∧
        found = some { stored with existing := true } ∧
        u = { t with
          objects := t.objects.insert oid (Object.encode { stored with existing := true }),
          projects := projects } := by
  unfold commit at h
  cases hread : t.findObject oid with
  | error e =>
    rw [hread] at h
    cases h
  | ok read =>
    rw [hread] at h
    cases read with
    | none =>
      cases h
      exact .inl ⟨rfl, rfl⟩
    | some stored =>
      cases hlisted : stored.projects.foldlM (enlist oid) t.projects with
      | error e =>
        simp only [bind, Except.bind, hlisted] at h
        cases h
      | ok projects =>
        simp only [bind, Except.bind, hlisted] at h
        cases h
        exact .inr ⟨stored, projects, rfl, hlisted, rfl, rfl⟩

variable {d : Database} {c : Call}

/-- A closed database does nothing. -/
theorem Database.step_of_closed (h : d.closed = true) (hc : c ≠ .close) :
    d.step c = (.error .closed, d) := by
  unfold step
  split
  · exact absurd rfl hc
  · rw [if_pos h]

/-- An open database does what the transaction says. -/
theorem Database.step_of_open (h : d.closed = false) (hc : c ≠ .close) : d.step c =
    match d.tables.transact c with
    | .ok (a, t) => (.ok a, { d with tables := t })
    | .error e => (.error e, d) := by
  unfold step
  split
  · exact absurd rfl hc
  · rw [h]
    rfl

theorem Database.step_of_ok (hopen : d.closed = false) (hc : c ≠ .close) {a : c.Answer} {t : Tables}
    (h : d.tables.transact c = .ok (a, t)) : d.step c = (.ok a, { d with tables := t }) := by
  rw [step_of_open hopen hc, h]

/-- A transaction fails and leaves the database, or leaves the tables that it makes. -/
theorem Database.step_cases (d : Database) (hc : c ≠ .close) :
    (∃ e, (e = .closed ∨ d.tables.transact c = .error e) ∧ d.step c = (.error e, d)) ∨
      ∃ a t, d.tables.transact c = .ok (a, t) ∧ d.step c = (.ok a, { d with tables := t }) := by
  by_cases hclosed : d.closed = true
  · exact .inl ⟨_, .inl rfl, step_of_closed hclosed hc⟩
  · have hopen : d.closed = false := eq_false_of_ne_true hclosed
    cases h : d.tables.transact c with
    | error e => exact .inl ⟨e, .inr rfl, by rw [step_of_open hopen hc, h]⟩
    | ok p => exact .inr ⟨p.1, p.2, rfl, step_of_ok hopen hc h⟩

/-- A transaction that answers has been made. -/
theorem Database.transact_of_step_ok {a : c.Answer} (hc : c ≠ .close) (h : (d.step c).1 = .ok a) :
    d.tables.transact c = .ok (a, (d.step c).2.tables) := by
  rcases d.step_cases hc with ⟨e, -, hstep⟩ | ⟨b, t, htransact, hstep⟩
  · exact nomatch h.symm.trans (congrArg Prod.fst hstep)
  · obtain rfl := Except.ok.inj (h.symm.trans (congrArg Prod.fst hstep))
    rw [htransact, hstep]

/-- A call leaves the tables as they are or as its transaction makes them. -/
theorem Database.step_tables_cases (d : Database) (c : Call) :
    (d.step c).2.tables = d.tables ∨ ∃ a, d.tables.transact c = .ok (a, (d.step c).2.tables) := by
  by_cases hc : c = .close
  · subst hc
    exact .inl rfl
  · rcases d.step_cases hc with ⟨e, -, hstep⟩ | ⟨a, t, htransact, hstep⟩
    · exact .inl (congrArg (fun p => p.2.tables) hstep)
    · exact .inr ⟨a, by rw [htransact, hstep]⟩

end Embedded

namespace Relational

variable {d : Database} {c : Call}

/-- A closed database does nothing. -/
theorem Database.step_of_closed (h : d.closed = true) (hc : c ≠ .close) :
    d.step c = (.error (.backend .poolClosed), d) := by
  unfold step
  split
  · exact absurd rfl hc
  · rw [if_pos h]

/-- A transaction over open connections is made. -/
theorem Database.step_of_open (h : d.closed = false) (hc : c ≠ .close) :
    d.step c = (.ok (d.tables.transact c).1, { d with tables := (d.tables.transact c).2 }) := by
  unfold step
  split
  · exact absurd rfl hc
  · rw [h]
    rfl

/-- A transaction fails over closed connections only, and leaves the database then. -/
theorem Database.step_cases (d : Database) (hc : c ≠ .close) :
    d.step c = (.error (.backend .poolClosed), d) ∨
      d.step c = (.ok (d.tables.transact c).1, { d with tables := (d.tables.transact c).2 }) := by
  by_cases hclosed : d.closed = true
  · exact .inl (step_of_closed hclosed hc)
  · exact .inr (step_of_open (eq_false_of_ne_true hclosed) hc)

/-- What a transaction answers is what it was made with. -/
theorem Database.answer_of_step_ok {a : c.Answer} (hc : c ≠ .close) (h : (d.step c).1 = .ok a) :
    a = (d.tables.transact c).1 ∧ (d.step c).2.tables = (d.tables.transact c).2 := by
  rcases d.step_cases hc with hstep | hstep
  · exact nomatch h.symm.trans (congrArg Prod.fst hstep)
  · exact ⟨Except.ok.inj (h.symm.trans (congrArg Prod.fst hstep)),
      congrArg (fun p => p.2.tables) hstep⟩

/-- A call leaves the tables as they are or as its transaction makes them. -/
theorem Database.step_tables_cases (d : Database) (c : Call) :
    (d.step c).2.tables = d.tables ∨ (d.step c).2.tables = (d.tables.transact c).2 := by
  by_cases hc : c = .close
  · subst hc
    exact .inl rfl
  · rcases d.step_cases hc with hstep | hstep
    · exact .inl (congrArg (fun p => p.2.tables) hstep)
    · exact .inr (congrArg (fun p => p.2.tables) hstep)

end Relational

end Depot
