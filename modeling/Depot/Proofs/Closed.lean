import Depot.Proofs.Registry.Unserved
import Depot.Proofs.Reopening
import Depot.Proofs.Traceless

/-!
# Closed backends

A backend that has been closed fails every call but another closing, each kind of storage in its own
place: an embedded database holds no tables to work on, a relational one no connections, and every
statement over column tables asks first whether they are open. A closing changes nothing but that,
so that opening the same tables again undoes it. Tables in memory do not outlast the connections of
a relational database.

Headlines
* **`Backend.closed_serves_nothing`**: after a closing every operation ends with an error of its own
  and changes no table, and opening again what lasts gives back the backend, from a disk that keeps
  it.
* `Backend.memory_is_forgotten`: a database in memory comes back empty.
-/

namespace Depot

open Credential (Gate)
open Registry (Breakdown Fails Caused Operation eval eval_bind)

/-! ### Embedded databases -/

namespace Embedded

variable {d : Database}

theorem fails_transaction (h : d.closed = true) {c : Call} (hc : c ≠ .close) :
    Fails Database.step (· = d) (Caused (· = .closed) .backend) (transaction c) :=
  .of_eval (Database.step_of_closed h hc)

/-- Every step over a closed database fails. -/
theorem steps_break (h : d.closed = true) :
    storage.StepsBreak Database.step (· = d) (· = .closed) where
  caused := ⟨_, rfl⟩
  passwordHash user := fails_transaction h (c := .passwordHash user) (by simp)
  find oid := fails_transaction h (by simp)
  register r := (fails_transaction h (by simp)).bind
  commit oid := fails_transaction h (by simp)
  deleteUser name := fails_transaction h (by simp)
  userNames := fails_transaction h (by simp)
  ensureProject name := fails_transaction h (by simp)
  projects := fails_transaction h (by simp)
  objects := (fails_transaction h (by simp)).bind

end Embedded

/-! ### Relational databases -/

namespace Relational

variable {d : Database}

theorem fails_transaction (h : d.closed = true) {c : Call} (hc : c ≠ .close) :
    Fails Database.step (· = d) (Caused (· = .poolClosed) .backend) (transaction c) :=
  .of_eval (Database.step_of_closed h hc)

/-- Every step over closed connections fails. -/
theorem steps_break (h : d.closed = true) :
    storage.StepsBreak Database.step (· = d) (· = .poolClosed) where
  caused := ⟨_, rfl⟩
  passwordHash user := fails_transaction h (c := .passwordHash user) (by simp)
  find oid := fails_transaction h (by simp)
  register r := fails_transaction h (by simp)
  commit oid := fails_transaction h (by simp)
  deleteUser name := fails_transaction h (by simp)
  userNames := fails_transaction h (by simp)
  ensureProject name := fails_transaction h (by simp)
  projects := (fails_transaction h (by simp)).bind
  objects := (fails_transaction h (by simp)).bind

end Relational

/-! ### Column tables -/

namespace Column

section

variable {σ : Type} {service : Service σ Call Call.Reply} {shut : σ → Prop}
  {cause : Breakdown → Prop}

/-- Every step begins with a statement, so it fails if every statement does. -/
theorem steps_break (hcaused : ∃ why, cause why)
    (h : ∀ c, c ≠ .close → Fails service shut (Caused cause .backend) (statement c)) :
    storage.StepsBreak service shut cause where
  caused := hcaused
  passwordHash user := h (.findUser user) (by simp)
  find oid := (h (.findOid oid) (by simp)).bind
  register r := (h (.findOid r.oid) (by simp)).bind.bind
  commit oid := (h (.findOid oid) (by simp)).bind.bind
  deleteUser name := h (.deleteUser name) (by simp)
  userNames := (h .allUsers (by simp)).bind
  ensureProject name := h (.ensureProject name) (by simp)
  projects := (h .allProjects (by simp)).bind
  objects := (h .allProjects (by simp)).bind

end

/-- Closed tables are left alone by whatever statements others make. -/
theorem Tables.runAll_of_closed {t : Tables} (h : t.closed = true) (cs : List Call) :
    t.runAll cs = t := by
  unfold runAll
  induction cs with
  | nil => rfl
  | cons c rest ih => rw [List.foldl_cons, step_tables_of_closed h, ih]

namespace Session

variable {s : Session}

/-- Why statements fail by the script. -/
def Plans (s : Session) (why : Breakdown) : Prop := ∃ p ∈ s.script.faults, why = .reported p.what

/-- A statement over closed tables fails by the script or is made on them, where a reversed answer
is the only difference. It leaves the tables and the script, whatever others do before it. -/
theorem step_cases_of_closed (h : s.tables.closed = true) (c : Call) :
    (s.step c).2.tables = s.tables ∧ (s.step c).2.script = s.script ∧
      ((∃ why, s.Plans why ∧ (s.step c).1 = .error (.backend why)) ∨
        (s.step c).1 = if s.script.reversed then (s.tables.step c).1.map (reverseAnswer c)
          else (s.tables.step c).1) := by
  have hraces : ∀ races : List (List Call), races.foldl Tables.runAll s.tables = s.tables := by
    intro races
    induction races with
    | nil => rfl
    | cons race rest ih => rw [List.foldl_cons, Tables.runAll_of_closed h, ih]
  have hfound : s.found c = s.tables := hraces _
  obtain ⟨p, hp, hstep⟩ | hstep := s.step_cases_found c
  · rw [hstep]
    exact ⟨hfound, rfl, .inl ⟨_, ⟨p, hp, rfl⟩, rfl⟩⟩
  · rw [hstep, hfound]
    exact ⟨Tables.step_tables_of_closed h c, rfl, .inr rfl⟩

/-- The session has the tables and the script of another one. -/
def Resumes (s s' : Session) : Prop := s'.tables = s.tables ∧ s'.script = s.script

theorem fails_statement (h : s.tables.closed = true) {c : Call} (hc : c ≠ .close) :
    Fails step s.Resumes (Caused (fun why => why = .closed ∨ s.Plans why) .backend)
      (statement c) := by
  refine ⟨fun s' hs' => ?_⟩
  obtain ⟨htables, hscript⟩ := hs'
  obtain ⟨hkeep, hkeep', hcases⟩ := step_cases_of_closed (s := s') (htables ▸ h) c
  have hfails : ∃ why, (why = .closed ∨ s.Plans why) ∧ (s'.step c).1 = .error (.backend why) := by
    rcases hcases with ⟨why, ⟨p, hp, hwhy⟩, hreply⟩ | hreply
    · exact ⟨why, .inr ⟨p, hscript ▸ hp, hwhy⟩, hreply⟩
    · refine ⟨.closed, .inl rfl, hreply.trans ?_⟩
      rw [Tables.step_of_closed (htables ▸ h) hc]
      exact ite_self _
  obtain ⟨why, hwhy, hreply⟩ := hfails
  refine .intro (fun a ha => nomatch hreply.symm.trans ha) fun e he => ?_
  exact ⟨⟨why, hwhy, (Except.error.inj (hreply.symm.trans he)).symm⟩, hkeep.trans htables,
    hkeep'.trans hscript⟩

/-- Another closing of closed tables succeeds or fails by the script. -/
theorem step_close_of_closed (h : s.tables.closed = true) :
    (s.step .close).1 = .ok () ∨
      ∃ why, s.Plans why ∧ (s.step .close).1 = .error (.backend why) := by
  obtain ⟨-, -, hfails | hreply⟩ := step_cases_of_closed h .close
  · exact .inr hfails
  · refine .inl (hreply.trans ?_)
    have hkind : (s.tables.step .close).1 = .ok () := by
      unfold Tables.step
      rw [h]
      rfl
    rw [hkind]
    exact ite_self _

/-- A closing that succeeds has reached the tables, and leaves the script. -/
theorem closed_of_step_close (h : (s.step .close).1 = .ok ()) :
    (s.step .close).2.tables.closed = true ∧ (s.step .close).2.script = s.script := by
  obtain ⟨p, -, hstep⟩ | hstep := s.step_cases_found .close
  · rw [hstep] at h
    exact nomatch h
  · rw [hstep]
    refine ⟨?_, rfl⟩
    cases hclosed : (s.found .close).closed with
    | true => exact (congrArg Tables.closed (Tables.step_tables_of_closed hclosed _)).trans hclosed
    | false =>
      rw [Tables.step_of_open hclosed]
      rfl

/-- Every step over closed tables fails. -/
theorem steps_break (h : s.tables.closed = true) :
    storage.StepsBreak step s.Resumes (fun why => why = .closed ∨ s.Plans why) :=
  Column.steps_break ⟨_, .inl rfl⟩ fun _ hc => fails_statement h hc

end Session

/-- Every step over a closed connection fails. -/
theorem Connection.steps_break {n : Connection} (h : n.closed = true) :
    storage.StepsBreak step (· = n) (· = .closed) :=
  Column.steps_break ⟨_, rfl⟩ fun _ hc => .of_eval (step_of_closed h hc)

end Column

/-! ### Backends -/

namespace Backend

variable {b : Backend}

/-- No call but a closing is served any more. -/
def Shut : Backend → Prop
  | .embedded d => d.closed = true
  | .relational d => d.closed = true
  | .column s => s.tables.closed = true
  | .cluster n => n.closed = true

/-- The second backend is the first one, but for the log of its statements. -/
def Resumes : Backend → Backend → Prop
  | .column s, b => ∃ s', b = .column s' ∧ s.Resumes s'
  | b, b' => b' = b

/-- Why calls are made to fail, closings among them. -/
def Plans (why : Breakdown) : Backend → Prop
  | .column s => s.Plans why
  | _ => False

/-- Why calls over a closed backend fail. -/
def closedFor : Backend → Breakdown
  | .relational _ => .poolClosed
  | .embedded _ | .column _ | .cluster _ => .closed

/-- Opening again what is closed undoes the closing. -/
def Reopens : Backend → Prop
  | .embedded d => d.closed = false
  | .relational d => d.closed = false ∧ d.lasting = true
  | .column _ | .cluster _ => False

theorem Resumes.refl (b : Backend) : b.Resumes b := by
  cases b with
  | column s => exact ⟨s, rfl, rfl, rfl⟩
  | embedded | relational | cluster => rfl

theorem Resumes.trans {b' b'' : Backend} (h : b.Resumes b') (h' : b'.Resumes b'') :
    b.Resumes b'' := by
  cases b with
  | column s =>
    obtain ⟨s', rfl, htables, hscript⟩ := h
    obtain ⟨s'', rfl, htables', hscript'⟩ := h'
    exact ⟨s'', rfl, htables'.trans htables, hscript'.trans hscript⟩
  | embedded | relational | cluster =>
    obtain rfl := h
    exact h'

/-- What a backend that resumes another one has of it. -/
theorem Resumes.keeps {b' : Backend} (h : b.Resumes b') :
    (b.Shut → b'.Shut) ∧ b'.closedFor = b.closedFor ∧ ∀ why, b'.Plans why ↔ b.Plans why := by
  cases b with
  | column s =>
    obtain ⟨s', rfl, htables, hscript⟩ := h
    refine ⟨fun hshut => (congrArg Column.Tables.closed htables).trans hshut, rfl, fun why => ?_⟩
    show s'.Plans why ↔ s.Plans why
    unfold Column.Session.Plans
    rw [hscript]
  | embedded | relational | cluster =>
    obtain rfl := h
    exact ⟨id, rfl, fun _ => .rfl⟩

/-- A call over a closed backend ends with its error, and leaves the backend. -/
theorem perform_of_shut (h : b.Shut) (gate : Gate) {op : Operation} (hop : op ≠ .close) :
    (∃ why, (why = b.closedFor ∨ b.Plans why) ∧
        (b.perform gate op).1 = .error (op.unserved gate why)) ∧
      b.Resumes (b.perform gate op).2 := by
  cases b with
  | embedded d =>
    obtain ⟨⟨why, hwhy, houtcome⟩, hkeep⟩ := (Embedded.steps_break h).perform gate hop rfl
    exact ⟨⟨why, .inl hwhy, houtcome⟩, congrArg embedded hkeep⟩
  | relational d =>
    obtain ⟨⟨why, hwhy, houtcome⟩, hkeep⟩ := (Relational.steps_break h).perform gate hop rfl
    exact ⟨⟨why, .inl hwhy, houtcome⟩, congrArg relational hkeep⟩
  | column s =>
    obtain ⟨houtcome, hkeep⟩ :=
      (Column.Session.steps_break h).perform gate hop ⟨rfl, rfl⟩
    exact ⟨houtcome, _, rfl, hkeep⟩
  | cluster n =>
    obtain ⟨⟨why, hwhy, houtcome⟩, hkeep⟩ :=
      (Column.Connection.steps_break h).perform gate hop rfl
    exact ⟨⟨why, .inl hwhy, houtcome⟩, congrArg cluster hkeep⟩

/-- Over column tables a closing is one statement. -/
theorem perform_close_column (gate : Gate) (s : Column.Session) :
    (column s).perform gate .close =
      ((s.step .close).1.map fun _ => .unit, column (s.step .close).2) := by
  have hclose : eval Column.Session.step (Column.statement .close) s = s.step .close := rfl
  have hrun : Column.storage.perform gate Column.Session.step s .close =
      ((s.step .close).1.map fun _ => .unit, (s.step .close).2) := by
    show eval Column.Session.step
      (Column.statement .close >>= fun _ => pure Registry.Answer.unit) s = _
    rw [eval_bind, hclose]
    split
    · next heq =>
      rw [heq]
      rfl
    · next heq =>
      rw [heq]
      rfl
  exact congrArg (fun r => (r.1, column r.2)) hrun

/-- Another closing succeeds or is made to fail, and leaves the backend. -/
theorem close_of_shut (h : b.Shut) (gate : Gate) :
    ((b.perform gate .close).1 = .ok .unit ∨
        ∃ why, b.Plans why ∧ (b.perform gate .close).1 = .error (.backend why)) ∧
      b.Resumes (b.perform gate .close).2 := by
  cases b with
  | embedded d =>
    obtain ⟨tables, closed⟩ := d
    obtain rfl : closed = true := h
    exact ⟨.inl rfl, rfl⟩
  | relational d =>
    obtain ⟨tables, closed, lasting⟩ := d
    obtain rfl : closed = true := h
    exact ⟨.inl rfl, rfl⟩
  | column s =>
    obtain ⟨htables, hscript, -⟩ := Column.Session.step_cases_of_closed h .close
    rw [perform_close_column]
    refine ⟨?_, _, rfl, htables, hscript⟩
    obtain hok | ⟨why, hwhy, herror⟩ := Column.Session.step_close_of_closed h
    · rw [hok]
      exact .inl rfl
    · rw [herror]
      exact .inr ⟨why, hwhy, rfl⟩
  | cluster n =>
    obtain ⟨cluster, closed⟩ := n
    obtain rfl : closed = true := h
    exact ⟨.inl rfl, rfl⟩

/-- A closing that succeeds shuts the backend, which fails for the reasons of its kind then. -/
theorem shut_of_close {gate : Gate} (h : (b.perform gate .close).1 = .ok .unit) :
    (b.perform gate .close).2.Shut ∧ (b.perform gate .close).2.closedFor = b.closedFor ∧
      ∀ why, (b.perform gate .close).2.Plans why ↔ b.Plans why := by
  cases b with
  | embedded d => exact ⟨rfl, rfl, fun _ => .rfl⟩
  | relational d => exact ⟨rfl, rfl, fun _ => .rfl⟩
  | column s =>
    rw [perform_close_column] at h ⊢
    have hclose : (s.step .close).1 = .ok () := by
      cases hreply : (s.step .close).1 with
      | ok a => rfl
      | error e =>
        rw [hreply] at h
        exact nomatch h
    obtain ⟨hclosed, hscript⟩ := Column.Session.closed_of_step_close hclose
    refine ⟨hclosed, rfl, fun why => ?_⟩
    show Column.Session.Plans _ why ↔ s.Plans why
    unfold Column.Session.Plans
    rw [hscript]
  | cluster n => exact ⟨rfl, rfl, fun _ => .rfl⟩

/-- Whatever calls follow a closing, they leave the backend. -/
theorem performAll_of_shut (gate : Gate) (ops : List Operation) {b : Backend} (h : b.Shut) :
    b.Resumes (b.performAll gate ops).2 := by
  induction ops generalizing b with
  | nil => exact .refl b
  | cons op rest ih =>
    have hstep : b.Resumes (b.perform gate op).2 := by
      by_cases hop : op = .close
      · subst hop
        exact (close_of_shut h gate).2
      · exact (perform_of_shut h gate hop).2
    exact hstep.trans (ih (hstep.keeps.1 h))

/-- Opening again undoes a closing of what outlasts it. -/
theorem reopen_of_close (h : b.Reopens) (gate : Gate) :
    (b.perform gate .close).2.reopen = b := by
  cases b with
  | embedded d =>
    obtain ⟨tables, closed⟩ := d
    obtain rfl : closed = false := h
    rfl
  | relational d =>
    obtain ⟨tables, closed, lasting⟩ := d
    obtain ⟨hopen, hlasting⟩ := h
    obtain rfl : closed = false := hopen
    obtain rfl : lasting = true := hlasting
    rfl
  | column | cluster => exact h.elim

/-- What resumes a backend reopens as it does, where reopening gives back a closed backend. -/
theorem Resumes.reopen {b' : Backend} (h : b.Resumes b') {c : Backend} (hc : c.Reopens)
    (hreopen : b.reopen = c) : b'.reopen = c := by
  cases b with
  | column s =>
    subst hreopen
    exact hc.elim
  | embedded | relational | cluster =>
    obtain rfl := h
    exact hreopen

/-- **A closed backend serves nothing.** From every backend, once a closing has succeeded and
whatever calls have followed it, every call but another closing ends with the error that follows
from the call, its reason being that the store is closed (or what a scripted statement was made to
fail with), and leaves the backend as it is. Another closing leaves it too. Opening a lasting
database again gives back the backend from before the closing, which is what comes of opening it from
a disk that keeps what the closed backend has, and the disk keeps it then. -/
theorem closed_serves_nothing (b : Backend) (gate : Gate) (later : List Operation)
    (hclose : (b.perform gate .close).1 = .ok .unit) :
    let closed := (b.perform gate .close).2
    let after := (closed.performAll gate later).2
    closed.Resumes after ∧
      (∀ op, op ≠ .close →
        (∃ why, (why = b.closedFor ∨ b.Plans why) ∧
            (after.perform gate op).1 = .error (op.unserved gate why)) ∧
          after.Resumes (after.perform gate op).2) ∧
      ((after.perform gate .close).1 = .ok .unit ∨
          ∃ why, b.Plans why ∧ (after.perform gate .close).1 = .error (.backend why)) ∧
      after.Resumes (after.perform gate .close).2 ∧
      (b.Reopens → after.reopen = b) ∧
      ∀ (d : Disk) (a : Disk.Address), d.Keeps a after →
        ∃ d', d.openBackend a = (.ok after.reopen, d') ∧ d'.Keeps a after.reopen := by
  intro closed after
  obtain ⟨hshut, hfor, hplans⟩ := shut_of_close hclose
  have hafter : closed.Resumes after := performAll_of_shut gate later hshut
  obtain ⟨hkeeps, hfor', hplans'⟩ := hafter.keeps
  have hcause : ∀ why, (why = after.closedFor ∨ after.Plans why) →
      why = b.closedFor ∨ b.Plans why := fun why hwhy =>
    hwhy.imp (fun h => h.trans (hfor'.trans hfor)) fun h => (hplans why).mp ((hplans' why).mp h)
  have hclosing := close_of_shut (hkeeps hshut) gate
  refine ⟨hafter, fun op hop => ?_, ?_, hclosing.2, fun hopens => ?_, fun d a hkept => ?_⟩
  · obtain ⟨⟨why, hwhy, houtcome⟩, hkeep⟩ := perform_of_shut (hkeeps hshut) gate hop
    exact ⟨⟨why, hcause why hwhy, houtcome⟩, hkeep⟩
  · exact hclosing.1.imp_right fun ⟨why, hwhy, houtcome⟩ =>
      ⟨why, (hplans why).mp ((hplans' why).mp hwhy), houtcome⟩
  · exact hafter.reopen hopens (reopen_of_close hopens gate)
  · have hopened := hkept.open_again
    exact ⟨(d.openBackend a).2, Prod.ext hopened rfl, Disk.keeps_of_open hopened⟩

/-- A closing succeeds unless it is made to fail. -/
theorem close_succeeds (h : ∀ why, ¬ b.Plans why) (gate : Gate) :
    (b.perform gate .close).1 = .ok .unit := by
  cases b with
  | column s =>
    rw [perform_close_column]
    obtain ⟨p, hp, -⟩ | hstep := s.step_cases_found .close
    · exact absurd ⟨p, hp, rfl⟩ (h (.reported p.what))
    · have hok : ((s.found .close).step .close).1 = .ok () := by
        simp [Column.Tables.step, Column.Tables.answer, Column.Call.kind]
      rw [hstep, hok]
      simp only [Except.map, Column.reverseAnswer, ite_self]
  | embedded | relational | cluster => rfl

/-- Relational tables with a project. -/
def shelf : Relational.Tables := ({} : Relational.Tables).insertProject "books"

/-- A relational database that lasts. -/
def shelved : Backend := relational { tables := shelf }

/-- A disk with its file. -/
def cabinet : Disk := ({} : Disk).putRelational ["books.db"] shelf

/-- It refuses callers and their projects while it is closed, and has its project again when it is
opened from its file. -/
theorem shelved_reopens :
    let after := ((shelved.perform .internal .close).2.performAll .internal [.projects, .close]).2
    (shelved.perform .internal .close).1 = .ok .unit ∧
      (after.perform .internal (.addProject " ")).1 =
        .error (.invalidRequest (.blankName "project")) ∧
      (after.perform .internal .projects).1 = .error (.backend .poolClosed) ∧
      after.reopen = shelved ∧
      (cabinet.openBackend (.location { file := some "books.db" })).1 = .ok shelved := by
  intro after
  have hclose : (shelved.perform .internal .close).1 = .ok .unit := close_succeeds (fun _ => id) _
  obtain ⟨hafter, hcalls, -, -, hreopen, hopen⟩ :=
    closed_serves_nothing shelved .internal [.projects, .close] hclose
  have hsame : after.reopen = shelved := hreopen ⟨rfl, rfl⟩
  have htrim : (Text.trim " ").isEmpty = true := by decide +kernel
  have hblank : ∀ why, (Operation.addProject " ").unserved .internal why =
      .invalidRequest (.blankName "project") := fun why => by
    show Registry.unnamed "project" " " (.backend why) = _
    unfold Registry.unnamed
    rw [if_pos htrim]
  have hclosed : after = (shelved.perform .internal .close).2 := hafter
  have hkept : cabinet.Keeps (.location { file := some "books.db" }) after := by
    have hfile : ({ file := some "books.db" } : Relational.Location).file = some "books.db" := rfl
    have hpath : Files.Path.ofString "books.db" = ["books.db"] := by decide +kernel
    rw [hclosed]
    refine .relational hfile rfl ?_
    rw [hpath]
    exact (Table.get?_insert ..).trans (if_pos rfl)
  refine ⟨hclose, ?_, ?_, hsame, ?_⟩
  · obtain ⟨⟨why, -, houtcome⟩, -⟩ := hcalls (.addProject " ") (by simp)
    exact houtcome.trans (congrArg Except.error (hblank why))
  · obtain ⟨⟨why, rfl | hplans, houtcome⟩, -⟩ := hcalls .projects (by simp)
    · exact houtcome
    · exact hplans.elim
  · obtain ⟨d', hopened, -⟩ := hopen cabinet _ hkept
    rw [hopened]
    exact congrArg Except.ok hsame

/-- A database in memory. -/
def inMemory : Relational.Database := { lasting := false }

/-- A database in memory is forgotten when its connections are closed: the project that it lists
before a closing is gone after it has been opened again. -/
theorem memory_is_forgotten :
    let filled := ((relational inMemory).perform .everyone (.addProject "books")).2
    let reopened := (filled.perform .everyone .close).2.reopen
    (Disk.connectRelational {} "sqlite::memory:").1 = .ok (.sqlite, inMemory) ∧
      (filled.perform .everyone .projects).1 = .ok (.projects [Registry.Project.empty "books"]) ∧
      (reopened.perform .everyone .projects).1 = .ok (.projects []) := by
  decide +kernel

end Backend

end Depot
