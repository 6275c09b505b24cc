import Depot.Command
import Depot.Proofs.Files.Store

/-!
# What an audit finds

An audit of content in files reports what it finds on the way as events, and comes to a summary of
its findings.

Headlines
* **`total_of`**: a report accounts for every finding once.
* **`report_of_map`**: it names and counts the objects by the verdict on each.
* **`run_auditAll_files`**: an audit comes to the report on what a survey of the files finds, and
  leaves nothing but events and what the survey leaves.
* **`auditAll_of_holds`**: where the content of all committed objects is stored, an audit checks
  them all and finds nothing wrong.
-/

namespace Depot

open Credential (Gate)
open Registry (Object)

namespace Audit

variable {σ Call : Type} {Reply : Call → Type} {service : Service σ Call Reply} {s : σ}
  {verify : Object → Program Call Reply (Except Content.Error Unit)} {objects : List Object}

/-- Objects that are each verified without a change are found as they are verified. -/
theorem survey_of_still {outcome : Object → Except Content.Error Unit}
    (h : ∀ o ∈ objects, (verify o).run service s = (outcome o, s)) :
    (survey verify objects).run service s = (objects.map fun o => ⟨o, outcome o⟩, s) := by
  induction objects with
  | nil => rfl
  | cons o objects ih =>
    unfold survey
    rw [Program.run_bind, h o List.mem_cons_self, Program.run_bind,
      ih fun o' ho' => h o' (List.mem_cons_of_mem o ho')]
    rfl

/-- A survey has a finding on each object, whatever the verifications come to. -/
theorem length_survey (verify : Object → Program Call Reply (Except Content.Error Unit))
    (objects : List Object) (service : Service σ Call Reply) (s : σ) :
    ((survey verify objects).run service s).1.length = objects.length := by
  induction objects generalizing s with
  | nil => rfl
  | cons o objects ih =>
    unfold survey
    rw [Program.run_bind, Program.run_bind]
    exact congrArg (· + 1) (ih _)

/-- The report on objects with a verdict each. -/
def Report.on (v : Object → Verdict) (objects : List Object) : Report where
  checked := objects.countP fun o => v o == .sound
  missing := (objects.filter fun o => v o == .missing).map Object.oid
  corrupt := (objects.filter fun o => v o == .corrupt).map Object.oid
  errors := objects.countP fun o => v o == .failed
  unsupported := objects.countP fun o => v o == .unsupported

/-- A report counts none for a verdict that no object has. -/
theorem countP_eq_zero_of_ne {v : Object → Verdict} {x : Verdict} (h : ∀ o ∈ objects, v o ≠ x) :
    (objects.countP fun o => v o == x) = 0 :=
  List.countP_eq_zero.mpr fun o ho hv => h o ho (beq_iff_eq.mp hv)

/-- A report names none but the objects that it is on. -/
theorem mem_of_named {v : Object → Verdict} {oid : String}
    (h : oid ∈ (Report.on v objects).missing ∨ oid ∈ (Report.on v objects).corrupt) :
    ∃ o ∈ objects, o.oid = oid := by
  have hfilter : ∀ p : Object → Bool, (objects.filter p).map Object.oid ⊆ objects.map Object.oid :=
    fun p => (List.filter_sublist.map _).subset
  exact List.mem_map.mp (h.elim (fun h => hfilter _ h) fun h => hfilter _ h)

/-- The report on objects that are found each in some way. -/
theorem report_of_map (outcome : Object → Except Content.Error Unit) (objects : List Object) :
    Report.of (objects.map fun o => ⟨o, outcome o⟩) =
      Report.on (fun o => verdict (outcome o)) objects := by
  have hnames : ∀ v, withVerdict v (objects.map fun o => ⟨o, outcome o⟩) =
      (objects.filter fun o => verdict (outcome o) == v).map Object.oid := by
    intro v
    unfold withVerdict
    rw [List.filter_map, List.map_map]
    rfl
  have hcount : ∀ v, countVerdict v (objects.map fun o => ⟨o, outcome o⟩) =
      objects.countP fun o => verdict (outcome o) == v := by
    intro v
    unfold countVerdict
    rw [List.countP_map]
    rfl
  unfold Report.of Report.on
  simp only [hnames, hcount]

/-- A report on sound objects counts them and names none. -/
theorem report_on_sound (objects : List Object) :
    Report.on (fun _ => .sound) objects = { checked := objects.length } := by
  simp [Report.on]

/-- The number of objects that a report accounts for. -/
def Report.total (r : Report) : Nat :=
  r.checked + r.missing.length + r.corrupt.length + r.errors + r.unsupported

theorem length_withVerdict (v : Verdict) (findings : List Finding) :
    (withVerdict v findings).length = countVerdict v findings := by
  unfold withVerdict countVerdict
  rw [List.length_map, List.countP_eq_length_filter]

/-- **A report accounts for every finding once.** -/
theorem total_of (findings : List Finding) : (Report.of findings).total = findings.length := by
  unfold Report.total Report.of
  simp only [length_withVerdict]
  unfold countVerdict
  induction findings with
  | nil => rfl
  | cons f findings ih =>
    -- Each finding has one verdict, which adds to one of the five numbers.
    simp only [List.countP_cons, List.length_cons]
    cases f.verdict <;> simp <;> omega

end Audit

namespace Command

open Audit (Finding Report)

variable {α β : Type}

theorem run_bind_of_ok {x : Step α} {f : α → Step β} {s s' : State} {a : α}
    (h : x.run s = (.ok a, s')) : (x >>= f).run s = (f a).run s' := by
  show (match x.run s with
    | (r, s') => (ExceptT.bindCont f r : StateM State (Except String β)) s') = _
  rw [h]
  rfl

theorem run_report (level : Log.Level) (part message : String)
    (fields : List (String × Log.Value)) (s : State) :
    ∃ events, (report level part message fields).run s = (.ok (), { s with events := events }) :=
  ⟨_, rfl⟩

/-- Reporting a finding adds events. -/
theorem run_reportFinding (f : Finding) (s : State) :
    ∃ events, (reportFinding f).run s = (.ok (), { s with events := events }) := by
  unfold reportFinding
  cases f.verdict <;> exact ⟨_, rfl⟩

/-- Steps that add events add events one after another. -/
theorem run_forM {f : α → Step Unit}
    (h : ∀ a s, ∃ events, (f a).run s = (.ok (), { s with events := events })) (l : List α)
    (s : State) : ∃ events, (l.forM f).run s = (.ok (), { s with events := events }) := by
  induction l generalizing s with
  | nil => exact ⟨s.events, rfl⟩
  | cons a l ih =>
    obtain ⟨events, hfirst⟩ := h a s
    obtain ⟨events', hrest⟩ := ih { s with events := events }
    exact ⟨events', (run_bind_of_ok hfirst).trans hrest⟩

/-- A state of the command with other files and events. -/
def State.leave (s : State) (files : Files.Tree) (events : List Log.Event) : State :=
  { world := { s.world with disk := { s.world.disk with files := files } }, events := events }

/-- What a survey of files finds, and the files after it. -/
def surveyFiles (base : Files.Path) (objects : List Object) (files : Files.Tree) :
    List Finding × Files.Tree :=
  Program.run Files.Tree.step (Audit.survey (fun o => (Files.verify base o).run) objects) files

/-- An audit of files comes to the report on what a survey of them finds. -/
theorem run_audit_files (base : Files.Path) (objects : List Object) (s : State) :
    ∃ events, (audit (.files base) objects).run s =
      (.ok (Report.of (surveyFiles base objects s.world.disk.files).1),
        s.leave (surveyFiles base objects s.world.disk.files).2 events) := by
  generalize hfound : surveyFiles base objects s.world.disk.files = found
  have hsurvey : ∀ events, (survey (.files base) objects).run { s with events := events } =
      (.ok found.1, s.leave found.2 events) := by
    intro events
    rw [← hfound]
    rfl
  obtain ⟨started, hstart⟩ := run_report .info "::audit" "Starting audit"
    [("objects", .number objects.length)] s
  obtain ⟨reported, hreports⟩ := run_forM run_reportFinding found.1 (s.leave found.2 started)
  unfold audit
  rw [run_bind_of_ok hstart, run_bind_of_ok (hsurvey started), run_bind_of_ok hreports]
  exact ⟨_, rfl⟩

/-- **An audit comes to the report on what a survey of the files finds**, once the objects are
listed, and leaves nothing but events and what the survey leaves. -/
theorem run_auditAll_files {records : Backend} {gate : Gate} {objects : List Object}
    (hlisted : (records.perform gate .objects).1 = .ok (.objects objects)) (base : Files.Path)
    (s : State) :
    ∃ events, (auditAll records gate (.files base)).run s =
      (.ok (Report.of (surveyFiles base objects s.world.disk.files).1),
        s.leave (surveyFiles base objects s.world.disk.files).2 events) := by
  obtain ⟨events, haudit⟩ := run_audit_files base objects s
  unfold auditAll
  rw [hlisted]
  exact ⟨_, (run_bind_of_ok haudit).trans rfl⟩

/-- **Where the content of all committed objects is stored an audit checks them all**, finds nothing
wrong, and leaves nothing but events. -/
theorem auditAll_of_holds {records : Backend} {gate : Gate} {objects : List Object}
    (hlisted : (records.perform gate .objects).1 = .ok (.objects objects)) {base : Files.Path}
    {s : State} (h : ∀ o ∈ objects, Files.Holds base o.oid o.size s.world.disk.files) :
    ∃ events, (auditAll records gate (.files base)).run s =
      (.ok { checked := objects.length }, { s with events := events }) := by
  obtain ⟨events, haudit⟩ := run_auditAll_files hlisted base s
  have hfound : surveyFiles base objects s.world.disk.files =
      (objects.map fun o => ⟨o, .ok ()⟩, s.world.disk.files) :=
    Audit.survey_of_still fun o ho => Files.verify_of_holds (h o ho)
  have hreport : Report.of (objects.map fun o => ⟨o, .ok ()⟩) = { checked := objects.length } :=
    (Audit.report_of_map (fun _ => .ok ()) objects).trans (Audit.report_on_sound objects)
  rw [hfound, hreport] at haudit
  exact ⟨events, haudit⟩

end Command

end Depot
