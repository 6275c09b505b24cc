import Depot.Column.Script
import Depot.Column.Store
import Depot.Proofs.Column.Query
import Depot.Proofs.Column.View
import Depot.Proofs.Registry.Traceless

/-!
# A column store alone with its caller

A registration and a commitment write several statements before they end, so they could fail in the
middle. With nobody else's statements between its own an operation fails there only if a statement
itself does: a look-up has shown that the store is open and whether there is a row, and no statement
but the last ones changes that.

Headlines
* **`Alone.steps_spare`**: over a store that is alone with its caller an operation that fails leaves
  no trace, but after the failure of a statement.
* **`Session.alone`**, **`Connection.alone`**: scripted sessions whose statements no others precede,
  and connections to clusters whose answers are errors or right, are such stores.
-/

namespace Depot.Column

open Registry (Ends Error Request Watch eval)

variable {σ V : Type}

/-- A statement that reads. -/
def Call.Reads : Call → Prop
  | .findOid _ | .allOids | .projectsWithOid _ _ | .allProjects | .findUser _ | .allUsers => True
  | _ => False

/-- A statement of a registration or a commitment of an object but for the insertion of its row. -/
def Call.Concerns (oid : String) : Call → Prop
  | .findOid x | .markOidCommitted x | .projectsWithOid x _ => x = oid
  | .ensureProject _ => True
  | .addProjectOid _ x _ | .removePendingProjectOid _ x => x = oid
  | _ => False

theorem Call.Reads.ne_close {c : Call} (h : c.Reads) : c ≠ .close := by
  rintro rfl
  exact h

theorem Call.Concerns.ne_close {oid : String} {c : Call} (h : c.Concerns oid) : c ≠ .close := by
  rintro rfl
  exact h

/-- A column store between whose statements no others come. What is watched of it tells whether it
is open and has a readable row of an object, or is open and has none. -/
structure Alone (service : Service σ Call Call.Reply) (w : Watch σ V)
    (standing : String → Bool → V → Prop) : Prop where
  /-- A statement leaves a valid state. -/
  valid : ∀ {s c}, c ≠ .close → w.valid s → w.valid (service s c).2
  /-- A reading statement leaves what is watched. -/
  reads : ∀ {s c}, c.Reads → w.valid s → w.view (service s c).2 = w.view s
  /-- A statement that fails leaves no trace. -/
  fails : ∀ {s c e}, c ≠ .close → w.valid s → (service s c).1 = .error e →
    w.Hidden s e (service s c).2
  /-- A look-up that does not fail tells how an object stands. -/
  found : ∀ {s oid row}, w.valid s → (service s (.findOid oid)).1 = .ok row →
    standing oid row.isSome (w.view s)
  /-- It stands in one way only. -/
  unique : ∀ {v oid b b'}, standing oid b v → standing oid b' v → b = b'
  /-- A statement about the object does not fail by itself, and does not change how it stands. -/
  concerns : ∀ {s oid b c}, w.valid s → standing oid b (w.view s) → c.Concerns oid →
    Ends service (fun _ t => standing oid b (w.view t)) (fun e _ => w.excused e) (statement c) s
  /-- A row that is not there can be inserted. -/
  inserts : ∀ {s oid} (size : Int), w.valid s → standing oid false (w.view s) →
    Ends service (fun won _ => won = true) (fun e _ => w.excused e)
      (statement (.insertPendingOid oid size)) s

namespace Alone

variable {service : Service σ Call Call.Reply} {w : Watch σ V}
  {standing : String → Bool → V → Prop} (h : Alone service w standing)

include h

theorem reads_statement (c : Call) (hc : c.Reads) : w.Reads service (statement c) := fun _ hs =>
  ⟨h.valid hc.ne_close hs, h.reads hc hs⟩

theorem spares_statement (c : Call) (hc : c ≠ .close) : w.Spares service (statement c) :=
  fun _ hs => .intro (fun _ _ => trivial) fun _ he => h.fails hc hs he

theorem reads_findObject (oid : String) : w.Reads service (findObject oid) := by
  refine (h.reads_statement (.findOid oid) trivial).bind fun found => ?_
  cases found with
  | none => exact .pure _
  | some row => exact (h.reads_statement (.projectsWithOid oid _) trivial).map _

/-- A statement about an object that is known to stand in some way. -/
theorem statement_ends {s : σ} {oid : String} {b : Bool} (hs : w.valid s)
    (hb : standing oid b (w.view s)) (c : Call) (hc : c.Concerns oid) :
    Ends service (fun _ t => w.valid t ∧ standing oid b (w.view t)) (fun e _ => w.excused e)
      (statement c) s := by
  have hend := h.concerns hs hb hc
  exact .intro (fun _ ha => ⟨h.valid hc.ne_close hs, hend.ok ha⟩) fun _ he => hend.error he

/-- Looking an object up, once it is known how it stands. -/
theorem findObject_ends_of_standing {s : σ} {oid : String} {b : Bool} (hs : w.valid s)
    (hb : standing oid b (w.view s)) :
    Ends service (fun found _ => found.isSome = b) (fun e _ => w.excused e)
      (findObject oid) s := by
  have hfind : Ends service
      (fun row t => (w.valid t ∧ standing oid b (w.view t)) ∧ row.isSome = b)
      (fun e _ => w.excused e) (statement (.findOid oid)) s := by
    have hend := h.statement_ends hs hb (.findOid oid) rfl
    exact .intro (fun _ ha => ⟨hend.ok ha, h.unique (h.found hs ha) hb⟩) fun _ he => hend.error he
  refine hfind.bind fun row t ht => ?_
  obtain ⟨⟨ht, hbt⟩, hrow⟩ := ht
  cases row with
  | none => exact .pure hrow
  | some row =>
    exact (h.statement_ends ht hbt (.projectsWithOid oid _) rfl).bind fun _ _ _ => .pure hrow

/-- Looking an object up tells how it stands. -/
theorem findObject_ends {s : σ} (hs : w.valid s) (oid : String) :
    Ends service (fun found t => w.valid t ∧ w.view t = w.view s ∧
      standing oid found.isSome (w.view t)) (w.Hidden s) (findObject oid) s := by
  have hfind : Ends service
      (fun row t => w.valid t ∧ w.view t = w.view s ∧ standing oid row.isSome (w.view t))
      (w.Hidden s) (statement (.findOid oid)) s := by
    have hkept := h.reads_statement (.findOid oid) trivial s hs
    refine .intro (fun row hrow => ⟨hkept.1, hkept.2, ?_⟩) fun _ _ => .inr hkept.2
    rw [hkept.2]
    exact h.found hs hrow
  refine hfind.bind fun row t ht => ?_
  obtain ⟨ht, hsame, hrow⟩ := ht
  cases row with
  | none => exact .pure ⟨ht, hsame, hrow⟩
  | some row =>
    refine Ends.bind (Ends.mono ((h.reads_statement (.projectsWithOid oid _) trivial).ends ht)
      (fun _ _ hu => hu) ?_)
      fun names u hu => .pure ⟨hu.1, hu.2.trans hsame, hu.2 ▸ hrow⟩
    exact fun e u hu => hu.imp_right fun h => h.trans hsame

theorem addPending_ends (oid : String) (names : List String) {s : σ} {b : Bool} (hs : w.valid s)
    (hb : standing oid b (w.view s)) :
    Ends service (fun _ t => w.valid t ∧ standing oid b (w.view t)) (fun e _ => w.excused e)
      (addPending oid names) s := by
  induction names generalizing s with
  | nil => exact .pure ⟨hs, hb⟩
  | cons name rest ih =>
    refine (h.statement_ends hs hb (.ensureProject name) trivial).bind fun _ t ht => ?_
    refine (h.statement_ends ht.1 ht.2 (.addProjectOid name oid .pending) rfl).bind fun _ u hu => ?_
    exact ih hu.1 hu.2

theorem promote_ends (oid : String) (names : List String) {s : σ} {b : Bool} (hs : w.valid s)
    (hb : standing oid b (w.view s)) :
    Ends service (fun _ t => w.valid t ∧ standing oid b (w.view t)) (fun e _ => w.excused e)
      (promote oid names) s := by
  induction names generalizing s with
  | nil => exact .pure ⟨hs, hb⟩
  | cons name rest ih =>
    refine (h.statement_ends hs hb (.addProjectOid name oid .committed) rfl).bind fun _ t ht => ?_
    refine (h.statement_ends ht.1 ht.2 (.removePendingProjectOid name oid) rfl).bind
      fun _ u hu => ?_
    exact ih hu.1 hu.2

/-- A registration that fails has not written unless a statement failed, and one that does not fail
finds or makes a record. -/
theorem register_ends (r : Request) {s : σ} (hs : w.valid s) :
    Ends service (fun found t => found = none → w.view t = w.view s) (w.Hidden s) (register r) s := by
  refine (h.findObject_ends hs r.oid).bind fun found t ht => ?_
  cases found with
  | some o => exact .pure fun hnone => nomatch hnone
  | none =>
    obtain ⟨ht, -, hlacks⟩ := ht
    have hnew : Ends service (fun found _ => found ≠ none) (fun e _ => w.excused e)
        (registerNew r) t := by
      refine (h.addPending_ends r.oid r.projects ht hlacks).bind fun _ u hu => ?_
      refine (h.inserts r.size hu.1 hu.2).bind fun won v hwon => ?_
      rw [hwon]
      exact .pure (by simp)
    exact hnew.mono (fun _ _ hne hnone => absurd hnone hne) fun _ _ => .inl

/-- A commitment that fails has not written unless a statement failed, and one that finds no record
has not written either. -/
theorem commit_ends (oid : String) {s : σ} (hs : w.valid s) :
    Ends service (fun found t => found = none → w.view t = w.view s) (w.Hidden s) (commit oid) s := by
  refine (h.findObject_ends hs oid).bind fun found t ht => ?_
  obtain ⟨ht, hsame, hstands⟩ := ht
  cases found with
  | none => exact .pure fun _ => hsame
  | some o =>
    have hmoves : Ends service (fun found _ => found.isSome = true) (fun e _ => w.excused e)
        (do
          promote oid (← statement (.projectsWithOid oid .pending))
          statement (.markOidCommitted oid)
          findObject oid) t := by
      refine (h.statement_ends ht hstands (.projectsWithOid oid .pending) rfl).bind
        fun names u hu => ?_
      refine (h.promote_ends oid names hu.1 hu.2).bind fun _ v hv => ?_
      refine (h.statement_ends hv.1 hv.2 (.markOidCommitted oid) rfl).bind fun _ x hx => ?_
      exact h.findObject_ends_of_standing hx.1 hx.2
    refine hmoves.mono (fun found _ hsome hnone => ?_) fun _ _ => .inl
    rw [hnone] at hsome
    exact nomatch hsome

/-- **Over a store that is alone with its caller the steps leave no trace when they fail**, but for
the failure of a statement. -/
theorem steps_spare : storage.StepsSpare service w where
  passwordHash user := h.reads_statement (.findUser user) trivial
  find := h.reads_findObject
  register r _ hs := h.register_ends r hs
  commit oid _ hs := h.commit_ends oid hs
  insertUser _ _ := (h.spares_statement _ (by simp)).map _
  deleteUser _ := h.spares_statement _ (by simp)
  userNames := (h.reads_statement .allUsers trivial).map _
  ensureProject _ := h.spares_statement _ (by simp)
  projects := (h.reads_statement .allProjects trivial).map _
  objects := (h.reads_statement .allProjects trivial).bind fun _ =>
    (h.reads_statement .allOids trivial).map _

end Alone

/-! ### Scripted sessions -/

/-- Open tables with or without a row of an object. -/
def Tables.Stands (oid : String) (b : Bool) (t : Tables) : Prop :=
  t.closed = false ∧ (t.oids.get? oid).isSome = b

/-- A scripted session, of which its tables are watched. The failures of its script are not accounted
for. -/
def Session.watch (script : Script) : Watch Session Tables where
  view := tables
  valid s := s.script = script
  excused e := ∃ p ∈ script.faults, e = .backend (.reported p.what)

theorem Tables.stands_step {t : Tables} {oid : String} {b : Bool} {c : Call} (h : t.Stands oid b)
    (hc : c.Concerns oid) : (t.step c).2.Stands oid b := by
  obtain ⟨hopen, hrow⟩ := h
  refine ⟨(closed_step hc.ne_close).trans hopen, ?_⟩
  rw [step_of_open hopen, get?_oids_answer]
  cases c with
  | markOidCommitted x =>
    obtain rfl : x = oid := hc
    simp [hrow]
  | findOid | projectsWithOid | ensureProject | addProjectOid | removePendingProjectOid =>
    exact hrow
  | insertPendingOid | allOids | allProjects | findUser | insertUserIfAbsent | deleteUser | allUsers
  | close => exact hc.elim

/-- What is to happen at a statement is planned. -/
theorem exists_of_plannedFor {α : Type} {plans : List (Planned α)} {kind : Kind} {nth : Nat} {a : α}
    {rest : List α} (h : plannedFor plans kind nth = a :: rest) : ∃ p ∈ plans, p.what = a := by
  have hmem : a ∈ plannedFor plans kind nth := by
    rw [h]
    exact List.mem_cons_self
  obtain ⟨p, hp, hwhat⟩ := List.mem_map.mp hmem
  exact ⟨p, List.mem_of_mem_filter hp, hwhat⟩

namespace Session

variable {script : Script} {s : Session}

/-- The tables that a statement finds, after those that others make before it. -/
def found (s : Session) (c : Call) : Tables :=
  (plannedFor s.script.races c.kind
    ((c :: s.log).filter fun c' => c'.kind == c.kind).length).foldl Tables.runAll s.tables

/-- A statement fails by the script or is made on the tables that it finds, where a reversed answer
is the only difference. -/
theorem step_cases_found (s : Session) (c : Call) :
    (∃ p ∈ s.script.faults, s.step c = (.error (.backend (.reported p.what)),
        { s with tables := s.found c, log := c :: s.log })) ∨
      s.step c = (if s.script.reversed then ((s.found c).step c).1.map (reverseAnswer c)
          else ((s.found c).step c).1,
        { s with tables := ((s.found c).step c).2, log := c :: s.log }) := by
  unfold step found
  simp only
  split
  · next text rest hplanned =>
    obtain ⟨p, hp, rfl⟩ := exists_of_plannedFor hplanned
    exact .inl ⟨p, hp, rfl⟩
  · exact .inr rfl

/-- A statement that no others precede fails by the script or is made on the tables, where a reversed
answer is the only difference. -/
theorem step_cases (hraces : s.script.races = []) (c : Call) :
    (∃ p ∈ s.script.faults, s.step c =
        (.error (.backend (.reported p.what)), { s with log := c :: s.log })) ∨
      s.step c = (if s.script.reversed then (s.tables.step c).1.map (reverseAnswer c)
          else (s.tables.step c).1,
        { s with tables := (s.tables.step c).2, log := c :: s.log }) := by
  have hfound : s.found c = s.tables := by
    unfold found
    rw [hraces]
    rfl
  have hcases := s.step_cases_found c
  rw [hfound] at hcases
  exact hcases

/-- A statement on open tables fails by the script only. -/
theorem excused_of_open (hraces : s.script.races = []) (hopen : s.tables.closed = false) {c : Call}
    {e : Error} (h : (s.step c).1 = .error e) :
    ∃ p ∈ s.script.faults, e = .backend (.reported p.what) := by
  rcases step_cases hraces c with ⟨p, hp, hstep⟩ | hstep
  · rw [hstep] at h
    exact ⟨p, hp, (Except.error.inj h).symm⟩
  · rw [hstep, Tables.step_of_open hopen] at h
    split at h
    · exact nomatch h
    · exact nomatch h

/-- A statement that answers was made on open tables, and leaves them as it leaves the tables. -/
theorem step_of_ok (hraces : s.script.races = []) {c : Call} {a : c.Answer} (hc : c ≠ .close)
    (h : (s.step c).1 = .ok a) : s.tables.closed = false ∧
      (s.step c).2.tables = (s.tables.answer c).2 ∧
      a = if s.script.reversed then reverseAnswer c (s.tables.answer c).1
        else (s.tables.answer c).1 := by
  rcases step_cases hraces c with ⟨p, hp, hstep⟩ | hstep
  · rw [hstep] at h
    exact nomatch h
  · rw [hstep] at h ⊢
    cases hclosed : s.tables.closed with
    | true =>
      rw [Tables.step_of_closed hclosed hc] at h
      split at h
      · exact nomatch h
      · exact nomatch h
    | false =>
      rw [Tables.step_of_open hclosed] at h ⊢
      refine ⟨rfl, rfl, ?_⟩
      split at h
      · next hreversed =>
        rw [if_pos hreversed]
        exact (Except.ok.inj h).symm
      · next hreversed =>
        rw [if_neg hreversed]
        exact (Except.ok.inj h).symm

/-- **A scripted session whose statements no others precede is alone with its caller.** -/
theorem alone (hraces : script.races = []) :
    Alone step (watch script) Tables.Stands where
  valid {s c} _ hs := by
    obtain rfl : s.script = script := hs
    rcases step_cases hraces c with ⟨p, hp, hstep⟩ | hstep
    · rw [hstep]
      rfl
    · rw [hstep]
      rfl
  reads {s c} hc hs := by
    obtain rfl : s.script = script := hs
    have hkeep : (s.tables.step c).2 = s.tables := by
      cases hclosed : s.tables.closed with
      | true => exact Tables.step_tables_of_closed hclosed c
      | false =>
        rw [Tables.step_of_open hclosed]
        cases c with
        | findOid | allOids | projectsWithOid | allProjects | findUser | allUsers => rfl
        | insertPendingOid | markOidCommitted | ensureProject | addProjectOid
        | removePendingProjectOid | insertUserIfAbsent | deleteUser | close => exact hc.elim
    rcases step_cases hraces c with ⟨p, hp, hstep⟩ | hstep
    · rw [hstep]
      rfl
    · rw [hstep]
      exact hkeep
  fails {s c e} hc hs he := by
    obtain rfl : s.script = script := hs
    cases hclosed : s.tables.closed with
    | false => exact .inl (excused_of_open hraces hclosed he)
    | true =>
      right
      rcases step_cases hraces c with ⟨p, hp, hstep⟩ | hstep
      · rw [hstep]
        rfl
      · rw [hstep]
        exact Tables.step_tables_of_closed hclosed c
  found {s oid row} hs hrow := by
    obtain rfl : s.script = script := hs
    obtain ⟨hopen, -, rfl⟩ := step_of_ok hraces (by simp) hrow
    refine ⟨hopen, ?_⟩
    split
    · exact (Option.isSome_map ..).symm
    · exact (Option.isSome_map ..).symm
  unique h h' := h.2.symm.trans h'.2
  concerns {s oid b c} hs hb hc := by
    obtain rfl : s.script = script := hs
    refine .intro (fun a ha => ?_) fun e he => excused_of_open hraces hb.1 he
    obtain ⟨hopen, hafter, -⟩ := step_of_ok hraces hc.ne_close ha
    have hstands := Tables.stands_step hb hc
    rw [Tables.step_of_open hb.1] at hstands
    exact (congrArg (Tables.Stands oid b) hafter).mpr hstands
  inserts {s oid} size hs hb := by
    obtain rfl : s.script = script := hs
    refine .intro (fun won hwon => ?_) fun e he => excused_of_open hraces hb.1 he
    obtain ⟨-, -, hwon⟩ := step_of_ok hraces (by simp) hwon
    have hnone : s.tables.oids.contains oid = false := hb.2
    have hanswer : (s.tables.answer (.insertPendingOid oid size)).1 = true := by
      simp [Tables.answer, hnone]
    split at hwon
    · exact hwon.trans hanswer
    · exact hwon.trans hanswer

end Session

/-! ### Connections to clusters -/

namespace Rows

variable {r : Rows} {oid : String} {b : Bool}

/-- The values of a row of an object as a look-up asks for them. -/
def oidCellsOf (oid : String) (row : Row) : Cells :=
  [some (.text oid), row.get? "size", row.get? "pending"]

/-- There is a row of an object and it can be read, or there is none. -/
def Stands (oid : String) (b : Bool) (r : Rows) : Prop :=
  match r.oids.get? oid with
  | none => b = false
  | some row => b = true ∧ ∃ o, oidRowOf (oidCellsOf oid row) = .ok o

/-- What a look-up of an object reads. -/
theorem read_findOid (r : Rows) (oid : String) (pageRows : Nat) :
    (Call.findOid oid).read (Cluster.firstPage pageRows
        (r.execute (.select ["oid", "size", "pending"] .oids (.key oid))).1) =
      firstOf oidRowOf ((r.oids.get? oid).map (oidCellsOf oid)).toList := by
  show (Call.findOid oid).read (Cluster.firstPage pageRows (.rows (r.select _ _ _).reverse)) = _
  rw [select_key, Cluster.firstPage_toList]
  rfl

theorem stands_of_read {found : Option OidRow}
    (h : firstOf oidRowOf ((r.oids.get? oid).map (oidCellsOf oid)).toList = .ok found) :
    r.Stands oid found.isSome := by
  unfold Stands
  cases hrow : r.oids.get? oid with
  | none =>
    rw [hrow] at h
    exact Except.ok.inj h ▸ rfl
  | some row =>
    rw [hrow] at h
    change (oidRowOf (oidCellsOf oid row)).map some = .ok found at h
    cases hread : oidRowOf (oidCellsOf oid row) with
    | ok o =>
      rw [hread] at h
      exact ⟨(Except.ok.inj h) ▸ rfl, o, hread⟩
    | error e =>
      rw [hread] at h
      exact nomatch h

theorem read_of_stands (h : r.Stands oid b) :
    ∃ found, firstOf oidRowOf ((r.oids.get? oid).map (oidCellsOf oid)).toList = .ok found := by
  unfold Stands at h
  cases hrow : r.oids.get? oid with
  | none => exact ⟨none, rfl⟩
  | some row =>
    rw [hrow] at h
    obtain ⟨-, o, ho⟩ := h
    exact ⟨some o, congrArg (Except.map some) ho⟩

theorem stands_unique {b' : Bool} (h : r.Stands oid b) (h' : r.Stands oid b') : b = b' := by
  unfold Stands at h h'
  cases hrow : r.oids.get? oid with
  | none =>
    rw [hrow] at h h'
    exact h.trans h'.symm
  | some row =>
    rw [hrow] at h h'
    exact h.1.trans h'.1.symm

/-- A change of a project leaves the objects. -/
theorem oids_execute_projects (r : Rows) (column : String) (ch : Change) (name : String) :
    (r.execute (.update .projects column ch name false)).2.oids = r.oids := by
  by_cases h : ((r.get .projects).contains name || makesRow ch) = true
  · simp [execute, h, put]
  · simp [execute, h]

/-- A row that can be read still can be with its flag cleared. -/
theorem read_oidCellsOf_clear {row : Row} {o : OidRow}
    (h : oidRowOf (oidCellsOf oid row) = .ok o) :
    ∃ o', oidRowOf (oidCellsOf oid (row.insert "pending" (.flag false))) = .ok o' := by
  unfold oidCellsOf at h ⊢
  rw [Table.get?_insert, Table.get?_insert, if_pos rfl, if_neg (by decide)]
  cases hsize : row.get? "size" with
  | none =>
    rw [hsize] at h
    exact nomatch h
  | some size =>
    rw [hsize] at h
    cases size with
    | int n => exact ⟨_, rfl⟩
    | text | flag | set => exact nomatch h

/-- A statement about the object does not change how it stands. -/
theorem stands_execute (h : r.Stands oid b) {c : Call} {st : Statement} (hc : c.Concerns oid)
    (hst : c.statement? = some st) : (r.execute st).2.Stands oid b := by
  cases c with
  | findOid x | projectsWithOid x =>
    obtain rfl := Option.some.inj hst
    exact h
  | ensureProject name =>
    obtain rfl := Option.some.inj hst
    exact h
  | addProjectOid name x m | removePendingProjectOid name x =>
    obtain rfl := Option.some.inj hst
    unfold Stands
    rw [oids_execute_projects]
    exact h
  | markOidCommitted x =>
    obtain rfl := Option.some.inj hst
    obtain rfl : x = oid := hc
    unfold Stands at h
    unfold execute
    simp only [if_true]
    cases hrow : r.oids.get? x with
    | none =>
      rw [hrow] at h
      rw [if_neg (by simp [get, Table.contains, hrow])]
      unfold Stands
      rw [hrow]
      exact h
    | some row =>
      rw [hrow] at h
      obtain ⟨rfl, o, ho⟩ := h
      rw [if_pos (by simp [get, Table.contains, hrow])]
      unfold Stands
      simp only [put, get, hrow, Option.getD_some, Table.get?_insert, if_true, true_and]
      exact read_oidCellsOf_clear ho
  | insertPendingOid | allOids | allProjects | findUser | insertUserIfAbsent | deleteUser | allUsers
  | close => exact hc.elim

theorem contains_of_stands (h : r.Stands oid false) : r.oids.contains oid = false := by
  unfold Stands at h
  cases hrow : r.oids.get? oid with
  | none => simp [Table.contains, hrow]
  | some row =>
    rw [hrow] at h
    cases h.1

/-- An insertion tells that there was no row. -/
theorem execute_insert_ifAbsent (r : Rows) (t : TableName) (key : String)
    (fields : List (String × Term)) :
    (r.execute (.insert t key fields true)).1 = applied (!(r.get t).contains key) := by
  cases h : (r.get t).contains key with
  | true => simp [execute, h]
  | false => simp [execute, h]

/-- A change of a row tells that there was one. -/
theorem execute_update_ifPresent (r : Rows) (t : TableName) (column : String) (ch : Change)
    (key : String) :
    (r.execute (.update t column ch key true)).1 = applied ((r.get t).contains key) := by
  cases h : (r.get t).contains key with
  | true => simp [execute, h]
  | false => simp [execute, h]

/-- A statement that reads leaves the rows. -/
theorem execute_of_reads {c : Call} {st : Statement} (hc : c.Reads)
    (hst : c.statement? = some st) : (r.execute st).2 = r := by
  cases c with
  | findOid | allOids | projectsWithOid | allProjects | findUser | allUsers =>
    obtain rfl := Option.some.inj hst
    rfl
  | insertPendingOid | markOidCommitted | ensureProject | addProjectOid | removePendingProjectOid
  | insertUserIfAbsent | deleteUser | close => exact hc.elim

end Rows

theorem Cluster.firstPage_applied (pageRows : Nat) (b : Bool) :
    firstPage pageRows (Rows.applied b) = Rows.applied b :=
  firstPage_toList pageRows (some [some (.flag b)])

theorem Cluster.mem_firstPage {pageRows : Nat} {rows page : List Cells}
    (h : firstPage pageRows (.rows rows) = .rows page) {row : Cells} (hrow : row ∈ page) :
    row ∈ rows := by
  obtain rfl := Result.rows.inj h
  split at hrow
  · exact hrow
  · exact List.mem_of_mem_take hrow

/-- Rows of one name each can be read. -/
theorem mapM_nameOf {rows : List Cells} (h : ∀ row ∈ rows, ∃ name, row = [some (.text name)]) :
    ∃ names, rows.mapM nameOf = .ok names := by
  induction rows with
  | nil => exact ⟨[], rfl⟩
  | cons row rows ih =>
    obtain ⟨name, rfl⟩ := h row List.mem_cons_self
    obtain ⟨names, hnames⟩ := ih fun row hrow => h row (List.mem_cons_of_mem _ hrow)
    rw [List.mapM_cons, hnames]
    exact ⟨name :: names, rfl⟩

/-- The answer to a statement that writes, or that lists the projects of an object, can always be
read. -/
theorem Call.read_execute (r : Rows) (pageRows : Nat) {c : Call} {st : Statement}
    (hst : c.statement? = some st) (hc : ¬ c.Reads ∨ ∃ oid m, c = .projectsWithOid oid m) :
    ∃ a, c.read (Cluster.firstPage pageRows (r.execute st).1) = .ok a := by
  cases c with
  | ensureProject | addProjectOid | removePendingProjectOid => exact ⟨(), rfl⟩
  | insertPendingOid | insertUserIfAbsent =>
    obtain rfl := Option.some.inj hst
    rw [Rows.execute_insert_ifAbsent, Cluster.firstPage_applied]
    exact ⟨_, rfl⟩
  | markOidCommitted oid =>
    obtain rfl := Option.some.inj hst
    rw [Rows.execute_update_ifPresent, Cluster.firstPage_applied]
    exact ⟨(), rfl⟩
  | deleteUser name =>
    obtain rfl := Option.some.inj hst
    exact ⟨(), congrArg (Call.read (.deleteUser name)) (Cluster.firstPage_applied pageRows _)⟩
  | projectsWithOid oid m =>
    obtain rfl := Option.some.inj hst
    refine mapM_nameOf fun row hrow => ?_
    obtain ⟨e, -, rfl⟩ := List.mem_map.mp (List.mem_reverse.mp (Cluster.mem_firstPage rfl hrow))
    exact ⟨e.1, rfl⟩
  | close => exact nomatch hst
  | findOid | allOids | allProjects | findUser | allUsers =>
    rcases hc with hc | ⟨oid, m, hc⟩
    · exact absurd trivial hc
    · exact nomatch hc

/-- So can the answer to a statement about an object that stands in some way. -/
theorem Call.read_of_concerns {r : Rows} {oid : String} {b : Bool} (h : r.Stands oid b)
    (pageRows : Nat) {c : Call} {st : Statement} (hc : c.Concerns oid)
    (hst : c.statement? = some st) :
    ∃ a, c.read (Cluster.firstPage pageRows (r.execute st).1) = .ok a := by
  cases c with
  | findOid x =>
    obtain rfl := Option.some.inj hst
    obtain rfl : x = oid := hc
    rw [Rows.read_findOid]
    exact Rows.read_of_stands h
  | projectsWithOid x m => exact read_execute r pageRows hst (.inr ⟨x, m, rfl⟩)
  | ensureProject | addProjectOid | removePendingProjectOid | markOidCommitted =>
    exact read_execute r pageRows hst (.inl id)
  | insertPendingOid | allOids | allProjects | findUser | insertUserIfAbsent | deleteUser | allUsers
  | close => exact hc.elim

namespace Cluster

variable {n : Cluster} {planned : Prop}

theorem takePlan_spec (text : String) (plans : List Misanswer) :
    (∀ m ∈ (takePlan text plans).2, ∃ m' ∈ plans, m'.answer = m.answer) ∧
      ∀ a, (takePlan text plans).1 = some a → ∃ m ∈ plans, m.answer = a := by
  induction plans with
  | nil => exact ⟨fun m hm => (nomatch hm), fun a ha => (nomatch ha)⟩
  | cons m rest ih =>
    unfold takePlan
    split
    · split
      · refine ⟨fun m' hm' => ⟨m', List.mem_cons_of_mem _ hm', rfl⟩, fun a ha => ?_⟩
        exact ⟨m, List.mem_cons_self, Option.some.inj ha⟩
      · refine ⟨fun m' hm' => ?_, fun a ha => nomatch ha⟩
        rcases List.mem_cons.mp hm' with rfl | hm'
        · exact ⟨m, List.mem_cons_self, rfl⟩
        · exact ⟨m', List.mem_cons_of_mem _ hm', rfl⟩
    · refine ⟨fun m' hm' => ?_, fun a ha => ?_⟩
      · rcases List.mem_cons.mp hm' with rfl | hm'
        · exact ⟨m', List.mem_cons_self, rfl⟩
        · obtain ⟨m'', hm'', heq⟩ := ih.1 m' hm'
          exact ⟨m'', List.mem_cons_of_mem _ hm'', heq⟩
      · obtain ⟨m', hm', heq⟩ := ih.2 a ha
        exact ⟨m', List.mem_cons_of_mem _ hm', heq⟩

/-- The plans of a cluster are errors only, and there are any only if some were planned. -/
def OnlyFails (planned : Prop) (n : Cluster) : Prop :=
  ∀ m ∈ n.misanswers, m.answer = none ∧ planned

/-- What a statement comes to in a cluster that answers right or not at all. -/
theorem execute_cases (h : n.OnlyFails planned) (st : Statement) :
    (n.execute st).2.OnlyFails planned ∧
      ((planned ∧ (n.execute st).1 = .error failed ∧ (n.execute st).2.rows = n.rows) ∨
        ((n.execute st).1 = .ok (n.rows.execute st).1 ∧
          (n.execute st).2.rows = (n.rows.execute st).2)) := by
  obtain ⟨hleft, htaken⟩ := takePlan_spec st.text n.misanswers
  have hplans : ∀ m ∈ (takePlan st.text n.misanswers).2, m.answer = none ∧ planned := by
    intro m hm
    obtain ⟨m', hm', heq⟩ := hleft m hm
    exact ⟨heq ▸ (h m' hm').1, (h m' hm').2⟩
  unfold execute
  simp only
  split
  · next answer hplan =>
    obtain ⟨m, hm, heq⟩ := htaken _ hplan
    exact nomatch heq.symm.trans (h m hm).1
  · next hplan =>
    obtain ⟨m, hm, -⟩ := htaken _ hplan
    exact ⟨hplans, .inl ⟨(h m hm).2, rfl, rfl⟩⟩
  · exact ⟨hplans, .inr ⟨rfl, rfl⟩⟩

/-- What the statement of a call comes to there: a first page of the answer, or all of it where the
call reads all pages. -/
theorem asked_cases (h : n.OnlyFails planned) {c : Call} {st : Statement}
    (hst : c.statement? = some st) :
    (eval Cluster.step c.asked n).2.OnlyFails planned ∧
      ((planned ∧ (eval Cluster.step c.asked n).1 = .error failed ∧
          (eval Cluster.step c.asked n).2.rows = n.rows) ∨
        ∃ pageRows, (c.readsAll = true → pageRows = 0) ∧
          (eval Cluster.step c.asked n).1 = .ok (firstPage pageRows (n.rows.execute st).1) ∧
          (eval Cluster.step c.asked n).2.rows = (n.rows.execute st).2) := by
  have hexecute := execute_cases h st
  unfold Call.asked
  rw [hst]
  cases c.readsAll with
  | true =>
    have hstep : eval Cluster.step (executeAll st) n = n.step (.all st) := rfl
    simp only [if_true, hstep, step]
    rcases hexecute with ⟨hplans, ⟨hplanned, hfailed, hrows⟩ | ⟨hanswer, hrows⟩⟩
    · cases hexec : n.execute st with
      | mk reply n' =>
        rw [hexec] at hplans hfailed hrows
        obtain rfl : reply = .error failed := hfailed
        exact ⟨hplans, .inl ⟨hplanned, rfl, hrows⟩⟩
    · cases hexec : n.execute st with
      | mk reply n' =>
        rw [hexec] at hplans hanswer hrows
        obtain rfl : reply = _ := hanswer
        refine ⟨hplans, .inr ⟨0, fun _ => rfl, ?_, hrows⟩⟩
        cases (n.rows.execute st).1 with
        | nothing | entered | rows => rfl
  | false =>
    have hstep : eval Cluster.step (Column.execute st) n =
        ((n.execute st).1.map (firstPage (n.execute st).2.pageRows), (n.execute st).2) := rfl
    simp only [Bool.false_eq_true, if_false, hstep]
    rcases hexecute with ⟨hplans, ⟨hplanned, hfailed, hrows⟩ | ⟨hanswer, hrows⟩⟩
    · exact ⟨hplans, .inl ⟨hplanned, by rw [hfailed]; rfl, hrows⟩⟩
    · exact ⟨hplans, .inr ⟨_, fun h => (nomatch h), by rw [hanswer]; rfl, hrows⟩⟩

end Cluster

namespace Connection

/-- A connection to a cluster, of which the rows are watched and whether it is closed. The planned
failures of the cluster are not accounted for. -/
def watch (planned : Prop) : Watch Connection (Rows × Bool) where
  view n := (n.cluster.rows, n.closed)
  valid n := n.cluster.OnlyFails planned
  excused e := planned ∧ e = Cluster.failed

/-- An open connection over rows among which there is one of an object that can be read, or none. -/
def Stands (oid : String) (b : Bool) (v : Rows × Bool) : Prop := v.2 = false ∧ v.1.Stands oid b

variable {n : Connection} {planned : Prop}

/-- A call over an open connection fails as planned, or reads a first page of the answer to its
statement, or all of it. -/
theorem step_cases (hopen : n.closed = false) (h : n.cluster.OnlyFails planned) {c : Call}
    (hc : c ≠ .close) : ∃ st, c.statement? = some st ∧
      (n.step c).2.cluster.OnlyFails planned ∧ (n.step c).2.closed = false ∧
      ((planned ∧ (n.step c).1 = .error Cluster.failed ∧
          (n.step c).2.cluster.rows = n.cluster.rows) ∨
        ∃ pageRows, (c.readsAll = true → pageRows = 0) ∧
          (n.step c).1 = c.read (Cluster.firstPage pageRows (n.cluster.rows.execute st).1) ∧
          (n.step c).2.cluster.rows = (n.cluster.rows.execute st).2) := by
  obtain ⟨st, hst⟩ : ∃ st, c.statement? = some st := by
    cases c <;> first | exact ⟨_, rfl⟩ | exact absurd rfl hc
  refine ⟨st, hst, ?_⟩
  rw [step_eq, Link.step_of_open (n := n.link) hopen hc]
  obtain ⟨hplans, hcases⟩ := Cluster.asked_cases h hst
  refine ⟨hplans, hopen, ?_⟩
  rcases hcases with ⟨hplanned, hfailed, hrows⟩ | ⟨pageRows, hpages, hanswer, hrows⟩
  · refine .inl ⟨hplanned, ?_, hrows⟩
    exact congrArg (· >>= c.read) hfailed
  · refine .inr ⟨pageRows, hpages, ?_, hrows⟩
    exact congrArg (· >>= c.read) hanswer

theorem step_of_closed (hclosed : n.closed = true) {c : Call} (hc : c ≠ .close) :
    n.step c = (.error .closed, n) := by
  rw [step_eq, Link.step_of_closed (n := n.link) hclosed hc]
  rfl

/-- **A connection to a cluster that answers right or not at all is alone with its caller.** -/
theorem alone : Alone step (watch planned) Stands where
  valid {n c} hc hn := by
    cases hclosed : n.closed with
    | true =>
      rw [step_of_closed hclosed hc]
      exact hn
    | false =>
      obtain ⟨st, -, hplans, -⟩ := step_cases hclosed hn hc
      exact hplans
  reads {n c} hc hn := by
    cases hclosed : n.closed with
    | true => rw [step_of_closed hclosed hc.ne_close]
    | false =>
      obtain ⟨st, hst, -, hopen, hcases⟩ := step_cases hclosed hn hc.ne_close
      refine Prod.ext ?_ (hopen.trans hclosed.symm)
      rcases hcases with ⟨-, -, hrows⟩ | ⟨pageRows, -, -, hrows⟩
      · exact hrows
      · exact hrows.trans (Rows.execute_of_reads hc hst)
  fails {n c e} hc hn he := by
    cases hclosed : n.closed with
    | true =>
      rw [step_of_closed hclosed hc]
      exact .inr rfl
    | false =>
      obtain ⟨st, hst, -, hopen, hcases⟩ := step_cases hclosed hn hc
      rcases hcases with ⟨hplanned, hfailed, -⟩ | ⟨pageRows, -, hanswer, hrows⟩
      · exact .inl ⟨hplanned, Except.error.inj (he.symm.trans hfailed)⟩
      · by_cases hreads : c.Reads
        · refine .inr (Prod.ext ?_ (hopen.trans hclosed.symm))
          exact hrows.trans (Rows.execute_of_reads hreads hst)
        · obtain ⟨a, ha⟩ := Call.read_execute n.cluster.rows pageRows hst (.inl hreads)
          exact nomatch (he.symm.trans hanswer).trans ha
  found {n oid found} hn hfound := by
    cases hclosed : n.closed with
    | true =>
      rw [step_of_closed hclosed (by simp)] at hfound
      exact nomatch hfound
    | false =>
      obtain ⟨st, hst, -, -, hcases⟩ := step_cases hclosed hn (c := .findOid oid) (by simp)
      obtain rfl := Option.some.inj hst
      rcases hcases with ⟨-, hfailed, -⟩ | ⟨pageRows, -, hanswer, -⟩
      · exact nomatch hfound.symm.trans hfailed
      · rw [Rows.read_findOid] at hanswer
        exact ⟨hclosed, Rows.stands_of_read (hanswer.symm.trans hfound)⟩
  unique h h' := Rows.stands_unique h.2 h'.2
  concerns {n oid b c} hn hb hc := by
    obtain ⟨st, hst, -, hopen, hcases⟩ := step_cases hb.1 hn hc.ne_close
    refine .intro (fun a ha => ⟨hopen, ?_⟩) fun e he => ?_
    · rcases hcases with ⟨-, hfailed, -⟩ | ⟨pageRows, -, -, hrows⟩
      · exact nomatch ha.symm.trans hfailed
      · exact (congrArg (Rows.Stands oid b) hrows).mpr (Rows.stands_execute hb.2 hc hst)
    · rcases hcases with ⟨hplanned, hfailed, -⟩ | ⟨pageRows, -, hanswer, -⟩
      · exact ⟨hplanned, Except.error.inj (he.symm.trans hfailed)⟩
      · obtain ⟨a, ha⟩ := Call.read_of_concerns hb.2 pageRows hc hst
        exact nomatch (he.symm.trans hanswer).trans ha
  inserts {n oid} size hn hb := by
    obtain ⟨st, hst, -, -, hcases⟩ :=
      step_cases hb.1 hn (c := .insertPendingOid oid size) (by simp)
    have hanswer : (n.cluster.rows.execute st).1 = Rows.applied true := by
      obtain rfl := Option.some.inj hst
      rw [Rows.execute_insert_ifAbsent]
      exact congrArg (fun b => Rows.applied !b) (Rows.contains_of_stands hb.2)
    refine .intro (fun won hwon => ?_) fun e he => ?_
    · rcases hcases with ⟨-, hfailed, -⟩ | ⟨pageRows, -, hread, -⟩
      · exact nomatch hwon.symm.trans hfailed
      · rw [hanswer, Cluster.firstPage_applied] at hread
        exact Except.ok.inj (hwon.symm.trans hread)
    · rcases hcases with ⟨hplanned, hfailed, -⟩ | ⟨pageRows, -, hread, -⟩
      · exact ⟨hplanned, Except.error.inj (he.symm.trans hfailed)⟩
      · rw [hanswer, Cluster.firstPage_applied] at hread
        exact nomatch he.symm.trans hread

end Connection

end Depot.Column
