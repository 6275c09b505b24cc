import Depot.Column.Tables

/-!
# Views of column tables

Column tables as three views: the row of an object, whether a project is there, and whether one of
a project's two sets holds an object. What each statement does is told by what it does to them.

Headlines
* **`row_step_cases`**, **`holds_step_iff`**, **`project_step_iff`**: what a statement can change in
  each view.
* **`ext_views`**: the tables of objects and of projects are determined by the three views.
-/

namespace Depot

namespace Names

theorem contains_erase (s : Names) (name x : String) :
    Table.contains (s.erase name) x = (x != name && s.contains x) := by
  by_cases h : x = name <;> simp [Table.contains, h]

/-- A set of names is determined by its members. -/
theorem ext_contains {s t : Names} (h : ∀ x, s.contains x = t.contains x) : s = t := by
  apply Table.ext_get?
  intro x
  have hx := h x
  unfold Table.contains at hx
  cases hs : s.get? x <;> cases ht : t.get? x <;> rw [hs, ht] at hx <;>
    first | rfl | exact absurd hx (by simp)

end Names

namespace Column

open Registry (Error)

namespace Members

@[simp] theorem contains_get_default (m : Membership) (oid : String) :
    ((({} : Members).get m).contains oid) = false := by
  cases m <;> rfl

theorem contains_get_add {s : Members} {m m' : Membership} {oid x : String} :
    ((s.add oid m).get m').contains x = true ↔
      (m = m' ∧ oid = x) ∨ (s.get m').contains x = true := by
  cases m <;> cases m' <;> simp [Members.add, Members.get, @eq_comm _ oid x]

theorem contains_get_remove {s : Members} {m : Membership} {oid x : String} :
    (({ s with pending := s.pending.erase oid } : Members).get m).contains x = true ↔
      (s.get m).contains x = true ∧ ¬ (oid = x ∧ m = .pending) := by
  cases m
  · simp only [Members.get, Names.contains_erase, Bool.and_eq_true, bne_iff_ne, ne_eq, and_true]
    rw [and_comm, @eq_comm _ x]
  · simp [Members.get]

end Members

namespace Tables

/-- Whether a set of a project holds an object. -/
def holds (t : Tables) (m : Membership) (name oid : String) : Bool :=
  ((t.members name).get m).contains oid

/-! ### Open and closed tables -/

theorem step_of_open {t : Tables} (h : t.closed = false) (c : Call) :
    t.step c = (.ok (t.answer c).1, (t.answer c).2) := by
  unfold step
  rw [h]
  rfl

/-- On closed tables a statement other than a closing fails. -/
theorem step_of_closed {t : Tables} (h : t.closed = true) {c : Call} (hc : c ≠ .close) :
    t.step c = (.error .closed, t) := by
  unfold step
  have hk : (c.kind != Kind.close) = true := by
    cases c <;> first | rfl | exact absurd rfl hc
  rw [h, hk]
  rfl

/-- Closed tables stay as they are. -/
theorem step_tables_of_closed {t : Tables} (h : t.closed = true) (c : Call) :
    (t.step c).2 = t := by
  by_cases hc : c = .close
  · subst hc
    obtain ⟨oids, projects, users, closed⟩ := t
    subst h
    rfl
  · rw [step_of_closed h hc]

/-- A statement that answers was made on open tables, unless it closes them. -/
theorem open_of_step_ok {t : Tables} {c : Call} {a : c.Answer} (hc : c ≠ .close)
    (h : (t.step c).1 = .ok a) : t.closed = false ∧ a = (t.answer c).1 := by
  cases ht : t.closed with
  | false =>
    rw [step_of_open ht] at h
    exact ⟨rfl, (Except.ok.inj h).symm⟩
  | true =>
    rw [step_of_closed ht hc] at h
    exact absurd h (by simp)

/-! ### What a statement changes -/

section

variable {t : Tables} {oid name : String}

/-- The rows of objects after a statement on open tables. -/
theorem oids_answer (t : Tables) (c : Call) :
    (t.answer c).2.oids =
      match c with
      | .insertPendingOid oid size =>
        if t.oids.contains oid then t.oids else t.oids.insert oid ⟨size, true⟩
      | .markOidCommitted oid => t.oids.modify oid fun e => { e with pending := false }
      | _ => t.oids := by
  cases c <;> simp only [answer] <;> split <;> rfl

/-- The row of an object after a statement on open tables. -/
theorem get?_oids_answer (t : Tables) (c : Call) (oid : String) :
    (t.answer c).2.oids.get? oid =
      match c with
      | .insertPendingOid oid' size =>
        if oid = oid' ∧ t.oids.get? oid = none then some ⟨size, true⟩ else t.oids.get? oid
      | .markOidCommitted oid' =>
        if oid = oid' then (t.oids.get? oid).map fun e => { e with pending := false }
        else t.oids.get? oid
      | _ => t.oids.get? oid := by
  rw [oids_answer]
  cases c with
  | insertPendingOid oid' size =>
    by_cases ho : oid = oid'
    · subst ho
      cases h : t.oids.get? oid <;> simp [Table.contains, h]
    · by_cases h : t.oids.contains oid' = true <;> simp [h, ho]
  | markOidCommitted oid' => exact Table.get?_modify ..
  | _ => rfl

/-- A row stays, keeps its size and does not become pending again. -/
theorem row_kept {e : OidEntry} (c : Call) (h : t.oids.get? oid = some e) :
    ∃ e', (t.step c).2.oids.get? oid = some e' ∧ e'.size = e.size ∧
      (e.pending = false → e'.pending = false) := by
  cases ht : t.closed with
  | true =>
    rw [step_tables_of_closed ht]
    exact ⟨e, h, rfl, id⟩
  | false =>
    rw [step_of_open ht, get?_oids_answer]
    cases c with
    | insertPendingOid oid' size => exact ⟨e, by simp [h], rfl, id⟩
    | markOidCommitted oid' =>
      by_cases ho : oid = oid'
      · subst ho
        exact ⟨{ e with pending := false }, by simp [h], rfl, fun _ => rfl⟩
      · exact ⟨e, by simp [ho, h], rfl, id⟩
    | _ => exact ⟨e, h, rfl, id⟩

/-- Where a row comes from: it was there, it has just been inserted, or its flag has just been
cleared. -/
theorem row_step_cases {c : Call} {e : OidEntry} (h : (t.step c).2.oids.get? oid = some e) :
    t.oids.get? oid = some e ∨
    (c = .insertPendingOid oid e.size ∧ t.closed = false ∧ t.oids.get? oid = none ∧
      e.pending = true) ∨
    (c = .markOidCommitted oid ∧ t.closed = false ∧
      ∃ e', t.oids.get? oid = some e' ∧ e = { e' with pending := false }) := by
  cases ht : t.closed with
  | true =>
    rw [step_tables_of_closed ht] at h
    exact Or.inl h
  | false =>
    rw [step_of_open ht, get?_oids_answer] at h
    cases c with
    | insertPendingOid oid' size =>
      simp only at h
      split at h
      · rename_i hin
        obtain ⟨rfl, hnone⟩ := hin
        cases h
        exact Or.inr (Or.inl ⟨rfl, rfl, hnone, rfl⟩)
      · exact Or.inl h
    | markOidCommitted oid' =>
      simp only at h
      split at h
      · rename_i ho
        subst ho
        obtain ⟨e', he', rfl⟩ := Option.map_eq_some_iff.mp h
        exact Or.inr (Or.inr ⟨rfl, rfl, e', he', rfl⟩)
      · exact Or.inl h
    | _ => exact Or.inl h

/-! ### Projects -/

theorem members_insert (t : Tables) (name name' : String) (s : Members) :
    ({ t with projects := t.projects.insert name s } : Tables).members name' =
      if name' = name then s else t.members name' := by
  unfold members
  rw [Table.get?_insert]
  split <;> rfl

/-- The sets of a project after a statement on open tables. -/
theorem members_answer (t : Tables) (c : Call) (name : String) :
    (t.answer c).2.members name =
      match c with
      | .addProjectOid name' oid m =>
        if name = name' then (t.members name).add oid m else t.members name
      | .removePendingProjectOid name' oid =>
        if name = name' then
          { t.members name with pending := (t.members name).pending.erase oid }
        else t.members name
      | _ => t.members name := by
  cases c with
  | ensureProject name' =>
    refine (members_insert ..).trans ?_
    split <;> simp [*]
  | addProjectOid name' oid m =>
    refine (members_insert ..).trans ?_
    split <;> simp [*]
  | removePendingProjectOid name' oid =>
    simp only [answer, members, Table.get?_modify]
    by_cases hn : name = name'
    · subst hn
      cases t.projects.get? name with
      | none =>
        simp only [Option.map_none, Option.getD_none, ↓reduceIte]
        rfl
      | some p => simp
    · simp [hn]
  | insertPendingOid oid size => simp only [answer]; split <;> rfl
  | insertUserIfAbsent user hash => simp only [answer]; split <;> rfl
  | _ => rfl

/-- What a statement does to the sets of projects: it adds an object to one, or takes one out of a
pending set. -/
theorem holds_step_iff {c : Call} {m : Membership} :
    (t.step c).2.holds m name oid = true ↔
      (t.closed = false ∧ c = .addProjectOid name oid m) ∨
      (t.holds m name oid = true ∧
        ¬ (t.closed = false ∧ c = .removePendingProjectOid name oid ∧ m = .pending)) := by
  cases ht : t.closed with
  | true => simp [step_tables_of_closed ht]
  | false =>
    rw [step_of_open ht]
    unfold holds
    rw [members_answer]
    cases c with
    | addProjectOid name' oid' m' =>
      by_cases hn : name = name'
      · subst hn
        simp [Members.contains_get_add, and_comm]
      · simp [hn, Ne.symm hn]
    | removePendingProjectOid name' oid' =>
      by_cases hn : name = name'
      · subst hn
        simp [Members.contains_get_remove]
      · simp [hn, Ne.symm hn]
    | _ => simp

/-- What a statement does to the list of projects: it may add the one that it names. -/
theorem project_step_iff {c : Call} :
    (t.step c).2.projects.contains name = true ↔
      (t.closed = false ∧ (c = .ensureProject name ∨ ∃ oid m, c = .addProjectOid name oid m)) ∨
      t.projects.contains name = true := by
  cases ht : t.closed with
  | true => simp [step_tables_of_closed ht]
  | false =>
    rw [step_of_open ht]
    unfold Table.contains
    cases c with
    | ensureProject name' =>
      by_cases hn : name = name' <;> simp [answer, hn, @eq_comm _ name' name]
    | addProjectOid name' oid' m' =>
      by_cases hn : name = name' <;> simp [answer, hn, @eq_comm _ name' name]
    | removePendingProjectOid name' oid' =>
      by_cases hn : name = name' <;> simp [answer, hn]
    | insertPendingOid oid size => simp only [answer]; split <;> simp
    | insertUserIfAbsent user hash => simp only [answer]; split <;> simp
    | _ => simp [answer]

/-- A project that holds an object is there. -/
theorem contains_of_holds {m : Membership} (h : t.holds m name oid = true) :
    t.projects.contains name = true := by
  unfold holds members at h
  unfold Table.contains
  cases hp : t.projects.get? name with
  | some s => rfl
  | none =>
    rw [hp] at h
    exact absurd h (by simp)

/-- Reading the projects that hold an object gives exactly those. -/
theorem mem_projectsWithOid {m : Membership} :
    name ∈ (t.answer (.projectsWithOid oid m)).1 ↔ t.holds m name oid = true := by
  simp only [answer, List.mem_map, List.mem_filter, holds, members]
  constructor
  · rintro ⟨⟨name', s⟩, ⟨hmem, hs⟩, rfl⟩
    rw [Table.get?_eq_some_iff.mpr hmem]
    exact hs
  · intro h
    cases hp : t.projects.get? name with
    | none =>
      rw [hp] at h
      exact absurd h (by simp)
    | some s =>
      rw [hp] at h
      exact ⟨(name, s), ⟨Table.get?_eq_some_iff.mp hp, h⟩, rfl⟩

/-- **The tables of objects and of projects are determined by their views.** -/
theorem ext_views {t u : Tables} (hrow : ∀ oid, t.oids.get? oid = u.oids.get? oid)
    (hproject : ∀ name, t.projects.contains name = u.projects.contains name)
    (hholds : ∀ m name oid, t.holds m name oid = u.holds m name oid) :
    t.oids = u.oids ∧ t.projects = u.projects := by
  refine ⟨Table.ext_get? hrow, Table.ext_get? fun name => ?_⟩
  have hp := hproject name
  unfold Table.contains at hp
  cases ht : t.projects.get? name with
  | none =>
    cases hu : u.projects.get? name with
    | none => rfl
    | some s => simp [ht, hu] at hp
  | some s =>
    cases hu : u.projects.get? name with
    | none => simp [ht, hu] at hp
    | some s' =>
      have hset : ∀ m oid, (s.get m).contains oid = (s'.get m).contains oid := by
        intro m oid
        have := hholds m name oid
        unfold holds members at this
        rw [ht, hu] at this
        exact this
      obtain ⟨committed, pending⟩ := s
      obtain ⟨committed', pending'⟩ := s'
      have hc : committed = committed' := Names.ext_contains (hset .committed)
      have hp : pending = pending' := Names.ext_contains (hset .pending)
      rw [hc, hp]

/-! ### Users and closing -/

/-- Only statements about users change the users. -/
theorem users_step {c : Call} (hi : ∀ name hash, c ≠ .insertUserIfAbsent name hash)
    (hd : ∀ name, c ≠ .deleteUser name) : (t.step c).2.users = t.users := by
  cases ht : t.closed with
  | true => rw [step_tables_of_closed ht]
  | false =>
    rw [step_of_open ht]
    cases c with
    | insertUserIfAbsent name hash => exact absurd rfl (hi name hash)
    | deleteUser name => exact absurd rfl (hd name)
    | insertPendingOid oid size => simp only [answer]; split <;> rfl
    | _ => rfl

/-- Only a closing closes. -/
theorem closed_step {c : Call} (hc : c ≠ .close) : (t.step c).2.closed = t.closed := by
  cases ht : t.closed with
  | true => rw [step_tables_of_closed ht, ht]
  | false =>
    rw [step_of_open ht]
    cases c with
    | close => exact absurd rfl hc
    | insertPendingOid oid size => simp only [answer]; split <;> exact ht
    | insertUserIfAbsent user hash => simp only [answer]; split <;> exact ht
    | _ => exact ht

end

end Tables

end Column

end Depot
