import Depot.Proofs.Column.Race
import Depot.Proofs.Column.Refinement

/-!
# Reads that a commitment overtakes

A look-up reads the row of an object and then the one membership set that the row's flag names; a
listing reads the projects and then the rows. A commitment that moves the object in between makes
such a read miss the project that the object was registered with. Nothing else does: a look-up that
finds the flag cleared, and so a successful `get` and a commitment, name the project.

Headlines
* `History.Told` is what a look-up promises of an object, `History.Listed` what a listing does.
* **`reads_name_unless_overtaken`**: in every run an answer names the project of the registration,
  unless a commitment has moved the object since the row, or the projects, were read.
-/

namespace Depot.Column

open Credential (Gate)
open Registry

namespace History

/-- A record names the project that its object was registered with, or it was found pending and a
commitment has added the object to the committed set of that project. -/
def Told (w : History) (oid : String) (o : Object) : Prop :=
  ∀ r, w.Registered oid r → r.repo ≠ "" →
    r.repo ∈ o.projects ∨ (o.existing = false ∧ w.Holds .committed r.repo oid)

/-- The projects of a record were read by a listing, and the project that its object was registered
with is among them, unless the object was pending at that time. -/
def Listed (w : History) (o : Object) : Prop :=
  ∃ x ∈ w.log, x.operation = .objects ∧ x.call = .allProjects ∧
    o.projects = sortNames (x.tables.answer (.projectsWithOid o.oid .committed)).1 ∧
    ∀ r, w.Registered o.oid r → r.repo ≠ "" →
      r.repo ∈ o.projects ∨ ∀ e, x.tables.oids.get? o.oid = some e → e.pending = true

theorem Told.later {v w : History} {oid : String} {o : Object} (h : v.Told oid o)
    (hrow : v.HasRow oid) (hg : Grows v w) : w.Told oid o := by
  intro r hr hne
  rcases h r (hg.settled hrow hr) hne with hin | ⟨hpending, hcom⟩
  · exact Or.inl hin
  · exact Or.inr ⟨hpending, hg.committed hcom⟩

end History

open History

variable {gate : Gate} {op : Operation} {α β : Type} {post : β → History → Prop} {w : History}

/-! ### Look-ups -/

/-- A look-up that finds the flag set reads the pending sets after it. The object is in one of them,
or has been moved. -/
theorem findObject_told (oid : String) :
    Assures gate op (fun found t => ∀ o, found = some o → t.HasRow oid ∧ t.Told oid o)
      (findObject oid) w := by
  unfold findObject
  refine permitted_bind (by simp) (fun _ _ _ => trivial) fun t _ _ _ => ?_
  cases hrow : t.tables.oids.get? oid with
  | none =>
    simp only [Tables.answer, hrow, Option.map_none]
    exact Keeps.pure fun _ _ _ o h => absurd h (by simp)
  | some e =>
    simp only [Tables.answer, hrow, Option.map_some]
    refine permitted_bind (by simp) (fun _ _ _ => trivial) fun u hu hgu _ => Keeps.pure ?_
    have hread : Grows t (t.serve op (.findOid oid)).2 := serve_grows trivial
    have hrowu : u.HasRow oid := (hread.trans hgu).row ⟨e, hrow⟩
    intro v _ hgv
    have hlist : Grows u (u.serve op (.projectsWithOid oid (membershipOf ⟨oid, e.size, e.pending⟩))).2 :=
      serve_grows trivial
    have huv : Grows u v := hlist.trans hgv
    rintro o ⟨⟩
    refine ⟨huv.row hrowu, fun r hr hne => ?_⟩
    have hru : u.Registered oid r := huv.settled hrowu hr
    have hnamed : ∀ m, membershipOf ⟨oid, e.size, e.pending⟩ = m → u.Holds m r.repo oid →
        r.repo ∈ sortNames (u.tables.answer (.projectsWithOid oid
          (membershipOf ⟨oid, e.size, e.pending⟩))).1 := by
      rintro m rfl hm
      exact mem_sortNames.mpr (Tables.mem_projectsWithOid.mpr hm)
    cases hp : e.pending with
    | false =>
      left
      refine hnamed .committed (by simp [membershipOf, hp]) (hu.committed hru hne ?_)
      exact (hread.trans hgu).flagged ⟨e, hrow, hp⟩
    | true =>
      rcases hu.held hru hne with hpend | hcom
      · exact Or.inl (hnamed .pending (by simp [membershipOf, hp]) hpend)
      · exact Or.inr ⟨by simp [objectOf, Tables.oidRow, hp], huv.committed hcom⟩

/-- Who inserts the row is the one that the object is registered for. -/
theorem settled_insert {r : Request} {v x : History} (hv : v.Consistent)
    (hp : Permitted (.put r) v (.insertPendingOid r.oid r.size)) (hopen : v.tables.closed = false)
    (hnone : v.row r.oid = none)
    (hg : Grows (v.serve (.put r) (.insertPendingOid r.oid r.size)).2 x) {q : Request}
    (hq : x.Registered r.oid q) : q = r := by
  have hself : (v.serve (.put r) (.insertPendingOid r.oid r.size)).2.Registered r.oid r :=
    registered_serve.mpr (Or.inr ⟨rfl, rfl, hopen, hnone⟩)
  have hrow := (serve_consistent hv hp).row hself
  rcases registered_serve.mp (hg.settled hrow hq) with hold | ⟨hop, -⟩
  · obtain ⟨e, he⟩ := hv.row hold
    exact absurd (hnone.symm.trans he) (by simp)
  · cases hop
    rfl

theorem register_told (r : Request) :
    Assures gate (.put r) (fun found t => ∀ o, found = some o → t.Told r.oid o) (register r) w := by
  unfold register
  refine Keeps.bind (findObject_told r.oid) fun found t _ _ hfound => ?_
  cases found with
  | some o =>
    obtain ⟨hrow, htold⟩ := hfound o rfl
    refine Keeps.pure fun u _ hg => ?_
    rintro o' ⟨⟩
    exact htold.later hrow hg
  | none =>
    refine Keeps.bind (addPending_assures r.projects) fun _ u _ _ hheld => ?_
    have hpermitted : ∀ v, v.Consistent → Grows u v →
        Permitted (.put r) v (.insertPendingOid r.oid r.size) := by
      refine fun v _ hg => ⟨r, rfl, rfl, rfl, fun hne => hg.held (hheld r.repo ?_)⟩
      simp [Request.projects, hne]
    refine permitted_bind (by simp) hpermitted fun v hv hg hopen => ?_
    cases hrow : v.tables.oids.get? r.oid with
    | some e =>
      simp only [Tables.answer, Table.contains, hrow, Option.isSome_some, if_true]
      exact Keeps.weaken (findObject_told r.oid) fun found x _ h o ho => (h o ho).2
    | none =>
      simp only [Tables.answer, Table.contains, hrow]
      refine Keeps.pure fun x _ hgx => ?_
      rintro o ⟨⟩ q hq hne
      obtain rfl := settled_insert hv (hpermitted v hv hg) hopen hrow hgx hq
      exact Or.inl (by simp [Request.pendingObject, Request.projects, hne])

/-! ### Listings -/

/-- Histories are kept. -/
def recording : Regime History where
  valid _ := True
  grows v w := v.log <:+ w.log
  refl := racing.refl
  trans := @racing.trans

/-- Everything that is made is recorded. -/
theorem records_safe {p : Program Call Call.Reply β} :
    Safe (registry gate) recording op (fun _ _ => True) p w := by
  have hmakes : ∀ p : Program Call Call.Reply β, p.Makes fun _ => True := by
    intro p
    induction p with
    | done b => trivial
    | call c next ih => exact ⟨trivial, ih⟩
  exact Safe.of_makes (fun c t _ _ => ⟨trivial, log_serve op t c⟩) (hmakes p)

/-- The discipline is kept and everything is recorded. -/
abbrev chronicle : Regime History := discipline.both recording

/-- What an action promises by the discipline it promises of recorded histories. -/
theorem Keeps.recorded {x : Action β} (h : Assures gate op post x w) :
    Sure (registry gate) chronicle op post x w :=
  ⟨(h.safe.both records_safe).weaken fun _ _ _ hpost => hpost.1⟩

/-- The projects that a listing finds for an object are those whose committed sets held it. -/
theorem holders_allProjects (t : Tables) (oid : String) :
    holders (t.answer .allProjects).1 oid = (t.answer (.projectsWithOid oid .committed)).1 :=
  holders_projectRow t.projects.entries oid

/-- Each object of a listing has the projects that were found for it. -/
theorem projects_of_mem_listing {rows : List ProjectRow} {t : Tables} {o : Object}
    (h : o ∈ assemble rows [] ((t.answer .allOids).1.filter fun row => !row.pending)) :
    o.projects = sortNames (holders rows o.oid) := by
  have hnodup : (((t.answer .allOids).1.filter fun row => !row.pending).map OidRow.oid).Nodup := by
    refine List.Nodup.sublist (List.Sublist.map _ List.filter_sublist) ?_
    show ((t.oids.entries.map Tables.oidRow).map OidRow.oid).Nodup
    rw [List.map_map]
    exact (Table.keys_ascending t.oids).nodup
  rw [assemble_eq_map rows [] _ hnodup fun _ _ => List.not_mem_nil] at h
  obtain ⟨row, -, rfl⟩ := List.mem_map.mp h
  rfl

/-- A listing names the project of an object that was committed when it read the projects. -/
theorem objects_listed :
    Keeps (operation gate) serve chronicle .objects (fun os t => ∀ o ∈ os, t.Listed o) objects w := by
  have hstep : ∀ t c, chronicle.valid t → (∀ op, Permitted op t c) →
      chronicle.valid (serve .objects t c).2 ∧ chronicle.grows t (serve .objects t c).2 :=
    fun t c hv hp => ⟨⟨serve_consistent hv.1 (hp _), trivial⟩, serve_grows (hp _), log_serve _ t c⟩
  refine Keeps.permitted_bind hstep (fun _ _ _ _ => trivial) fun t rows ht _ hrows => ?_
  obtain ⟨-, rfl⟩ := Tables.open_of_step_ok (by simp) hrows
  refine Keeps.permitted_bind hstep (fun _ _ _ _ => trivial) fun u oids _ hgu hoids => ?_
  obtain ⟨-, rfl⟩ := Tables.open_of_step_ok (by simp) hoids
  refine Keeps.pure fun v _ hgv o ho => ?_
  have hprojects : o.projects =
      sortNames (t.tables.answer (.projectsWithOid o.oid .committed)).1 := by
    rw [projects_of_mem_listing (List.mem_mergeSort.mp ho), holders_allProjects]
  have hread : Grows t (t.serve .objects .allProjects).2 := serve_grows trivial
  have hrest : Grows u (u.serve .objects .allOids).2 := serve_grows trivial
  have htv : Grows t v := ((hread.trans hgu.1).trans hrest).trans hgv.1
  have hlog : (t.serve .objects .allProjects).2.log <:+ v.log :=
    (hgu.2.trans (log_serve _ u _)).trans hgv.2
  refine ⟨⟨.objects, .allProjects, t.tables⟩, hlog.subset List.mem_cons_self, rfl, rfl,
    hprojects, fun r hr hne => ?_⟩
  by_cases hflagged : t.Flagged o.oid
  · left
    have hrt : t.Registered o.oid r := htv.settled hflagged.hasRow hr
    rw [hprojects]
    exact mem_sortNames.mpr (Tables.mem_projectsWithOid.mpr (ht.1.committed hrt hne hflagged))
  · right
    intro e he
    cases hp : e.pending with
    | true => rfl
    | false => exact absurd ⟨e, he, hp⟩ hflagged

/-! ### Operations -/

/-- What the steps of a column registry promise. -/
def readings : Promise History where
  found oid o w := w.Told oid o
  registered r o w := w.Told r.oid o
  committed r o w := w.Names r.oid o
  listed os w := ∀ o ∈ os, w.Listed o

theorem steps_keep (op : Operation) :
    storage.StepsKeep (registry gate) chronicle op readings where
  passwordHash user _ :=
    (Keeps.recorded (silent_statement (c := .findUser user) fun _ => trivial)).safe.weaken
      fun _ _ _ _ => trivial
  find oid _ := (Keeps.recorded (findObject_told oid)).weaken fun _ _ _ h o ho => (h o ho).2
  register r _ hop := hop ▸ Keeps.recorded (register_told r)
  commit r _ hop := hop ▸ (Keeps.recorded (commit_assures r)).weaken fun _ _ _ h o ho => (h o ho).2
  insertUser name hash _ := Keeps.recorded (silent_bind
    (silent_statement (c := .insertUserIfAbsent name hash) fun _ => trivial) fun _ _ => silent_pure _)
  deleteUser name _ := Keeps.recorded (silent_statement (c := .deleteUser name) fun _ => trivial)
  userNames _ := Keeps.recorded (silent_bind
    (silent_statement (c := .allUsers) fun _ => trivial) fun _ _ => silent_pure _)
  ensureProject name _ :=
    Keeps.recorded (silent_statement (c := .ensureProject name) fun _ => trivial)
  projects _ := Keeps.recorded projects_assures
  objects _ hop := hop ▸ ⟨objects_listed.safe⟩
  close _ := Keeps.recorded (silent_statement (c := .close) fun _ => trivial)

/-! ### Runs -/

/-- In every run the answers are as promised from the end of their operations on. -/
theorem run_readings (gate : Gate) (users : Table String String)
    (turns : List (Turn Operation Breakdown)) :
    ∀ t ∈ ((registry gate).run (vacant users) turns).tasks, ∀ a, t.rest = .done (.ok a) →
      readings.Kept t.origin a ((registry gate).run (vacant users) turns).state := by
  have hstart : Protocol.Sound (registry gate) chronicle
      (fun op r t => ∀ a, r = .ok a → readings.Kept op a t) (vacant users) :=
    Protocol.sound_idle ⟨consistent_vacant users, trivial⟩
  have hrun := (Protocol.run_sound
    (fun op w _ => (Storage.run_keeps (steps_keep op) w).safe) hstart turns).1
  exact fun t ht a ha => hrun.result ht ha a rfl

/-- **An answer names the project of the registration unless a commitment has overtaken it.** In
every run, of an object whose row was made for `r` with a repository: whoever gets or commits it is
told of the repository; whoever registers it or looks it up in either state is told of it, or finds
the object pending while a commitment has moved it there; and a listing tells of it, or has read the
projects when the object was pending, in which case its projects are those that held the object in
their committed sets then. -/
theorem reads_name_unless_overtaken (gate : Gate) (users : Table String String)
    (turns : List (Turn Operation Breakdown)) (oid : String) (r : Request)
    (hr : ((registry gate).run (vacant users) turns).state.Registered oid r)
    (hrepo : r.repo ≠ "") :
    let s := (registry gate).run (vacant users) turns
    ∀ t ∈ s.tasks, ∀ a, t.rest = .done (.ok a) →
      (∀ q : Request, q.oid = oid → t.origin = .get q ∨ t.origin = .commit q →
        ∃ o, a = .object o ∧ r.repo ∈ o.projects) ∧
      (∀ q : Request, q.oid = oid → t.origin = .getPending q ∨ t.origin = .put q →
        ∃ o, a = .object o ∧
          (r.repo ∈ o.projects ∨ (o.existing = false ∧ s.state.Moved r.repo oid))) ∧
      (t.origin = .objects → ∃ os, a = .objects os ∧ ∀ o ∈ os, o.oid = oid →
        r.repo ∈ o.projects ∨
          ∃ x ∈ s.state.log, x.operation = .objects ∧ x.call = .allProjects ∧
            (∀ e, x.tables.oids.get? oid = some e → e.pending = true) ∧
            o.projects = sortNames (x.tables.answer (.projectsWithOid oid .committed)).1) := by
  intro s t ht a ha
  have hkept := run_readings gate users turns t ht a ha
  obtain ⟨hconsistent, -⟩ := run_consistent gate users turns
  have htold : ∀ o, s.state.Told oid o →
      r.repo ∈ o.projects ∨ (o.existing = false ∧ s.state.Moved r.repo oid) := fun o ho =>
    (ho r hr hrepo).imp_right fun h => ⟨h.1, (hconsistent.moved h.2).2⟩
  refine ⟨?_, ?_, ?_⟩
  · rintro q rfl (ho | ho)
    · rw [ho] at hkept
      obtain ⟨o, rfl, hex, hfound⟩ := hkept
      refine ⟨o, rfl, (htold o hfound).resolve_right ?_⟩
      rintro ⟨hpending, -⟩
      exact absurd (hex.symm.trans hpending) (by simp)
    · rw [ho] at hkept
      obtain ⟨o, rfl, hnames⟩ := hkept
      exact ⟨o, rfl, hnames r hr hrepo⟩
  · rintro q rfl (ho | ho)
    · rw [ho] at hkept
      obtain ⟨o, rfl, hfound⟩ := hkept
      exact ⟨o, rfl, htold o hfound⟩
    · rw [ho] at hkept
      obtain ⟨o, rfl, hfound⟩ := hkept
      exact ⟨o, rfl, htold o hfound⟩
  · intro ho
    rw [ho] at hkept
    obtain ⟨os, rfl, hlisted⟩ := hkept
    refine ⟨os, rfl, ?_⟩
    rintro o hin rfl
    obtain ⟨x, hx, hop, hcall, hprojects, hnamed⟩ := hlisted o hin
    rcases hnamed r hr hrepo with hin | hpending
    · exact Or.inl hin
    · exact Or.inr ⟨x, hx, hop, hcall, hpending, hprojects⟩

/-- An object is registered. A look-up, another registration and a listing make their first
statements, then the object is committed, and then they go on. -/
def outrun : List (Turn Operation Breakdown) :=
  undisturbed 0 (.put specimen) 4 ++ undisturbed 1 (.getPending specimen) 1 ++
    undisturbed 2 (.put specimen) 1 ++ undisturbed 3 .objects 1 ++
    undisturbed 4 (.commit specimen) 8 ++
    [.call 1 .answered, .call 2 .answered, .call 3 .answered]

set_option maxRecDepth 100000 in
theorem outrun_answers :
    ((registry .everyone).run (vacant ∅) outrun).tasks.map Task.result? =
      [some (.ok (.object ⟨specimen.oid, 1, ["r"], false⟩)),
        some (.ok (.object ⟨specimen.oid, 1, sortNames [], false⟩)),
        some (.ok (.object ⟨specimen.oid, 1, sortNames [], false⟩)),
        some (.ok (.objects ([⟨specimen.oid, 1, sortNames [], true⟩].mergeSort
          fun a b => (compare a.oid b.oid).isLE))),
        some (.ok (.object ⟨specimen.oid, 1, sortNames ["r"], true⟩))] := by
  rfl

/-- A look-up, a registration and a listing that a commitment overtakes name no project of an object
that was registered with one. -/
theorem overtaken_reads_miss :
    let s := (registry .everyone).run (vacant ∅) outrun
    s.state.Registered specimen.oid specimen ∧
      s.tasks.map Task.result? =
        [some (.ok (.object ⟨specimen.oid, 1, ["r"], false⟩)),
          some (.ok (.object ⟨specimen.oid, 1, [], false⟩)),
          some (.ok (.object ⟨specimen.oid, 1, [], false⟩)),
          some (.ok (.objects [⟨specimen.oid, 1, [], true⟩])),
          some (.ok (.object ⟨specimen.oid, 1, ["r"], true⟩))] := by
  have hnone : sortNames [] = [] := sortNames_of_ascending (by decide)
  have hone : sortNames ["r"] = ["r"] := sortNames_of_ascending (by decide)
  have hanswers := outrun_answers
  rw [hnone, hone, List.mergeSort_singleton] at hanswers
  refine ⟨?_, hanswers⟩
  decide +kernel

theorem outrun_reads :
    let s := (registry .everyone).run (vacant ∅) outrun
    s.state.Registered specimen.oid specimen ∧ specimen.repo ≠ "" ∧
    ∀ t ∈ s.tasks, ∀ a, t.rest = .done (.ok a) →
      (∀ q : Request, q.oid = specimen.oid → t.origin = .get q ∨ t.origin = .commit q →
        ∃ o, a = .object o ∧ specimen.repo ∈ o.projects) ∧
      (∀ q : Request, q.oid = specimen.oid → t.origin = .getPending q ∨ t.origin = .put q →
        ∃ o, a = .object o ∧ (specimen.repo ∈ o.projects ∨
          (o.existing = false ∧ s.state.Moved specimen.repo specimen.oid))) ∧
      (t.origin = .objects → ∃ os, a = .objects os ∧ ∀ o ∈ os, o.oid = specimen.oid →
        specimen.repo ∈ o.projects ∨
          ∃ x ∈ s.state.log, x.operation = .objects ∧ x.call = .allProjects ∧
            (∀ e, x.tables.oids.get? specimen.oid = some e → e.pending = true) ∧
            o.projects =
              sortNames (x.tables.answer (.projectsWithOid specimen.oid .committed)).1) :=
  have hr : ((registry .everyone).run (vacant ∅) outrun).state.Registered specimen.oid
      specimen := by decide +kernel
  have hrepo : specimen.repo ≠ "" := by decide
  ⟨hr, hrepo, reads_name_unless_overtaken .everyone ∅ outrun specimen.oid specimen hr hrepo⟩

end Depot.Column
