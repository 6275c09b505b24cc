import Depot.Proofs.Column.Refinement
import Depot.Proofs.Registry.Simulation

/-!
# The order of answers

A registry over a column store sorts whatever it lists, so it does not matter in which order the
store answers rows and the members of sets. A store that answers each statement as the tables in
memory do, up to that order, is the same store to the registry.

Headlines
* **`promote_comm`**: moving an object between the sets of projects leads to the same tables in
  every order of the projects.
* **`Mirrors.stepsMatch`**: over a store that mirrors tables every step comes to what it comes to
  over the tables.
-/

namespace Depot.Column

open Registry (AlikeOutcome Matches Object Project Request eval eval_bind_of_error eval_bind_of_ok
  mergeSort_eq_of_perm sortNames sortNames_eq_of_perm sortNames_perm)

/-! ### Answers in another order -/

/-- A row with its sets in ascending order. -/
def ProjectRow.arranged (row : ProjectRow) : ProjectRow :=
  ⟨row.name, sortNames row.oids, sortNames row.pending⟩

/-- The same answer but for the order of rows and of the members of sets. -/
def Alike : (c : Call) → c.Answer → c.Answer → Prop
  | .allOids, a, b => a.Perm b
  | .projectsWithOid _ _, a, b => a.Perm b
  | .allProjects, a, b => (a.map ProjectRow.arranged).Perm (b.map ProjectRow.arranged)
  | .allUsers, a, b => a.Perm b
  | .findOid _, a, b => a = b
  | .insertPendingOid _ _, a, b => a = b
  | .markOidCommitted _, a, b => a = b
  | .ensureProject _, a, b => a = b
  | .addProjectOid _ _ _, a, b => a = b
  | .removePendingProjectOid _ _, a, b => a = b
  | .findUser _, a, b => a = b
  | .insertUserIfAbsent _ _, a, b => a = b
  | .deleteUser _, a, b => a = b
  | .close, a, b => a = b

/-- The same reply but for such an order. -/
def AlikeReply (c : Call) : c.Reply → c.Reply → Prop
  | .ok a, .ok b => Alike c a b
  | .error e, .error e' => e = e'
  | _, _ => False

theorem alikeReply_iff {c : Call} {r r' : c.Reply} :
    AlikeReply c r r' ↔ AlikeOutcome (Alike c) r r' := by
  cases r <;> cases r' <;> exact Iff.rfl

/-- Objects are added only to the sets of projects that are there. -/
def Fits (t : Tables) : Call → Prop
  | .addProjectOid name _ _ => t.projects.contains name = true
  | _ => True

section

variable {σ : Type}

/-- A store whose states are related to tables answers as they do, up to order, and the states
afterwards are related again. -/
structure Mirrors (service : Service σ Call Call.Reply) (R : σ → Tables → Prop) : Prop where
  reply : ∀ {s t c}, R s t → Fits t c → AlikeReply c (service s c).1 (t.step c).1
  related : ∀ {s t c}, R s t → Fits t c → R (service s c).2 (t.step c).2

end

/-! ### What is made of answers -/

section

theorem sortNames_sortNames (names : List String) : sortNames (sortNames names) = sortNames names :=
  sortNames_eq_of_perm (sortNames_perm names)

theorem objectOf_eq_of_perm (row : OidRow) {names names' : List String}
    (h : names.Perm names') : objectOf row names = objectOf row names' := by
  unfold objectOf
  rw [sortNames_eq_of_perm h]

theorem projectOf_arranged (row : ProjectRow) : projectOf row.arranged = projectOf row := by
  unfold projectOf ProjectRow.arranged
  rw [sortNames_sortNames]

/-- The same projects are listed for rows in another order. -/
theorem listed_eq_of_alike {rows rows' : List ProjectRow}
    (h : (rows.map ProjectRow.arranged).Perm (rows'.map ProjectRow.arranged))
    (hnodup : (rows'.map ProjectRow.name).Nodup) :
    (rows.mergeSort fun a b => (compare a.name b.name).isLE).map projectOf =
      (rows'.mergeSort fun a b => (compare a.name b.name).isLE).map projectOf := by
  have hmap : ∀ l : List ProjectRow,
      (l.mergeSort fun a b => (compare a.name b.name).isLE).map projectOf =
        ((l.map ProjectRow.arranged).map projectOf).mergeSort fun a b =>
          (compare a.name b.name).isLE := by
    intro l
    refine (List.map_mergeSort (s := fun a b : Project => (compare a.name b.name).isLE)
      fun _ _ _ _ => rfl).trans ?_
    rw [List.map_map]
    refine congrArg (List.mergeSort · _) (List.map_congr_left fun row _ => ?_)
    exact (projectOf_arranged row).symm
  rw [hmap, hmap]
  refine mergeSort_eq_of_perm (f := Project.name) (h.map projectOf) fun p hp q hq hname => ?_
  refine List.inj_on_of_nodup_map (f := Project.name) ?_ hp hq hname
  rw [List.map_map, List.map_map]
  exact hnodup

theorem filter_eq_of_perm {l m : List String} (h : l.Perm m) (oid : String) :
    l.filter (· == oid) = m.filter (· == oid) := by
  rw [List.filter_beq, List.filter_beq, h.count_eq]

theorem holders_arranged (rows : List ProjectRow) (oid : String) :
    holders (rows.map ProjectRow.arranged) oid = holders rows oid := by
  unfold holders
  rw [List.flatMap_map]
  refine congrArg (List.flatMap · rows) (funext fun row => ?_)
  show ((sortNames row.oids).filter (· == oid)).map (fun _ => row.name) = _
  rw [filter_eq_of_perm (sortNames_perm row.oids) oid]

theorem holders_eq_of_alike {rows rows' : List ProjectRow}
    (h : (rows.map ProjectRow.arranged).Perm (rows'.map ProjectRow.arranged)) (oid : String) :
    sortNames (holders rows oid) = sortNames (holders rows' oid) := by
  rw [← holders_arranged rows, ← holders_arranged rows']
  exact sortNames_eq_of_perm (h.flatMap_right _)

/-- The same objects are listed for rows in another order. -/
theorem assembled_eq_of_alike {rows rows' : List ProjectRow} {oids oids' : List OidRow}
    (h : (rows.map ProjectRow.arranged).Perm (rows'.map ProjectRow.arranged))
    (hoids : oids.Perm oids') (hnodup : (oids'.map OidRow.oid).Nodup) :
    ((assemble rows [] (oids.filter fun row => !row.pending)).mergeSort fun a b =>
        (compare a.oid b.oid).isLE) =
      (assemble rows' [] (oids'.filter fun row => !row.pending)).mergeSort fun a b =>
        (compare a.oid b.oid).isLE := by
  have hperm := hoids.filter fun row => !row.pending
  have hdistinct : ((oids'.filter fun row => !row.pending).map OidRow.oid).Nodup :=
    hnodup.sublist (List.filter_sublist.map _)
  rw [assemble_eq_map _ _ _ ((hperm.map OidRow.oid).nodup_iff.mpr hdistinct)
      fun _ _ => List.not_mem_nil,
    assemble_eq_map _ _ _ hdistinct fun _ _ => List.not_mem_nil]
  simp only [holders_eq_of_alike h]
  refine mergeSort_eq_of_perm (f := Object.oid) (hperm.map _) fun o ho o' ho' hoid => ?_
  refine List.inj_on_of_nodup_map (f := Object.oid) ?_ ho ho' hoid
  rw [List.map_map]
  exact hdistinct

end

/-- **Moving an object between the sets of projects leads to the same tables in every order of the
projects.** -/
theorem promote_comm {t : Tables} (h : t.closed = false) (oid : String) {names names' : List String}
    (hmem : ∀ name, name ∈ names ↔ name ∈ names') :
    eval Tables.step (promote oid names) t = eval Tables.step (promote oid names') t := by
  obtain ⟨u, hu, hb⟩ := promote_eval oid names h
  obtain ⟨u', hu', hb'⟩ := promote_eval oid names' h
  have hviews : u.oids = u'.oids ∧ u.projects = u'.projects := by
    refine Tables.ext_views (fun x => ?_) (fun name => ?_) fun m name x => ?_
    · rw [hb.row, hb'.row]
    · rw [Bool.eq_iff_iff, hb.project, hb'.project, hmem]
    · rw [Bool.eq_iff_iff, hb.holds, hb'.holds, hmem]
  have hu_eq : u = u' := by
    obtain ⟨oids, projects, users, closed⟩ := u
    obtain ⟨oids', projects', users', closed'⟩ := u'
    obtain ⟨rfl, rfl⟩ : oids = oids' ∧ projects = projects' := hviews
    obtain rfl : users = users' := hb.users.trans hb'.users.symm
    obtain rfl : closed = closed' := hb.closed.trans hb'.closed.symm
    rfl
  rw [hu, hu', hu_eq]

/-! ### The steps -/

/-- The projects after a statement on open tables. -/
theorem project_answer_iff {t : Tables} (h : t.closed = false) {c : Call} {name : String} :
    (t.answer c).2.projects.contains name = true ↔
      (c = .ensureProject name ∨ ∃ oid m, c = .addProjectOid name oid m) ∨
        t.projects.contains name = true := by
  have hstep : (t.step c).2.projects.contains name = true ↔ _ := Tables.project_step_iff
  rw [Tables.step_of_open h, h] at hstep
  simpa using hstep

theorem nodup_projectRows (t : Tables) :
    ((t.answer .allProjects).1.map ProjectRow.name).Nodup := by
  show ((t.projects.entries.map Tables.projectRow).map ProjectRow.name).Nodup
  rw [List.map_map]
  exact (Table.keys_ascending t.projects).nodup

theorem nodup_oidRows (t : Tables) : ((t.answer .allOids).1.map OidRow.oid).Nodup := by
  show ((t.oids.entries.map Tables.oidRow).map OidRow.oid).Nodup
  rw [List.map_map]
  exact (Table.keys_ascending t.oids).nodup

namespace Mirrors

variable {σ α : Type} {service : Service σ Call Call.Reply} {R : σ → Tables → Prop}
  (h : Mirrors service R) {s : σ} {t : Tables}

include h

/-- What follows a statement need match only for answers that are alike, the tables open before
it. -/
theorem bind_statement (hR : R s t) (c : Call) (hfits : Fits t c) (hclose : c ≠ .close)
    {f g : c.Answer → Action α}
    (hf : ∀ a s', t.closed = false → Alike c a (t.answer c).1 → R s' (t.answer c).2 →
      Matches service Tables.step R (f a) (g (t.answer c).1) s' (t.answer c).2) :
    Matches service Tables.step R (statement c >>= f) (statement c >>= g) s t := by
  refine Matches.bind_of_alike (P := fun a b => t.closed = false ∧ Alike c a b) ?_
    (h.related hR hfits) fun a b s' t' ⟨hopen, hab⟩ hR hb => ?_
  · have hreply := h.reply hR hfits
    show AlikeOutcome _ (service s c).1 (t.step c).1
    by_cases hclosed : t.closed = true
    · rw [Tables.step_of_closed hclosed hclose] at hreply ⊢
      cases hs : (service s c).1 <;> rw [hs] at hreply
      · exact hreply
      · exact hreply.elim
    · have hopen := Bool.eq_false_iff.mpr hclosed
      rw [Tables.step_of_open hopen] at hreply ⊢
      cases hs : (service s c).1 <;> rw [hs] at hreply
      · exact hreply.elim
      · exact ⟨hopen, hreply⟩
  · obtain ⟨hanswer, rfl⟩ := Prod.ext_iff.mp ((statement_eval hopen c).symm.trans hb)
    obtain rfl := Except.ok.inj hanswer
    exact hf a s' hopen hab hR

/-- A statement whose answer has no order. -/
theorem statement (hR : R s t) (c : Call) (hfits : Fits t c)
    (hexact : ∀ a b, Alike c a b → a = b) :
    Matches service Tables.step R (statement c) (statement c) s t :=
  Matches.of_alike (alikeReply_iff.mp (h.reply hR hfits)) (h.related hR hfits) hexact

theorem findObject (hR : R s t) (oid : String) :
    Matches service Tables.step R (findObject oid) (findObject oid) s t := by
  refine h.bind_statement hR (.findOid oid) trivial (by simp) fun a s' _ ha hR => ?_
  obtain rfl : a = _ := ha
  cases (t.answer (.findOid oid)).1 with
  | none => exact .pure hR none
  | some row =>
    refine h.bind_statement hR (.projectsWithOid oid (membershipOf row)) trivial (by simp)
      fun names s' _ hnames hR => ?_
    rw [objectOf_eq_of_perm row hnames]
    exact .pure hR _

theorem addPending (oid : String) (names : List String) (hR : R s t) :
    Matches service Tables.step R (addPending oid names) (addPending oid names) s t := by
  induction names generalizing s t with
  | nil => exact .pure hR ()
  | cons name rest ih =>
    refine h.bind_statement hR (.ensureProject name) trivial (by simp) fun _ s' hopen _ hR => ?_
    have hthere : (t.answer (.ensureProject name)).2.projects.contains name = true :=
      (project_answer_iff hopen).mpr (.inl (.inl rfl))
    exact h.bind_statement hR (.addProjectOid name oid .pending) hthere (by simp)
      fun _ s' _ _ hR => ih hR

theorem promote (oid : String) (names : List String) (hR : R s t)
    (hthere : ∀ name ∈ names, t.projects.contains name = true) :
    Matches service Tables.step R (promote oid names) (promote oid names) s t := by
  induction names generalizing s t with
  | nil => exact .pure hR ()
  | cons name rest ih =>
    refine h.bind_statement hR (.addProjectOid name oid .committed)
      (hthere name List.mem_cons_self) (by simp) fun _ s' hopen _ hR => ?_
    refine h.bind_statement hR (.removePendingProjectOid name oid) trivial (by simp)
      fun _ s' hopen' _ hR => ih hR fun x hx => ?_
    refine (project_answer_iff hopen').mpr (.inr ((project_answer_iff hopen).mpr (.inr ?_)))
    exact hthere x (List.mem_cons_of_mem name hx)

theorem register (hR : R s t) (r : Request) :
    Matches service Tables.step R (register r) (register r) s t := by
  refine (h.findObject hR r.oid).bind fun found s t hR _ => ?_
  cases found with
  | some o => exact .pure hR _
  | none =>
    refine (h.addPending r.oid r.projects hR).bind fun _ s t hR _ => ?_
    refine h.bind_statement hR (.insertPendingOid r.oid r.size) trivial (by simp)
      fun won s' _ hwon hR => ?_
    obtain rfl : won = _ := hwon
    cases (t.answer (.insertPendingOid r.oid r.size)).1 with
    | true => exact .pure hR _
    | false => exact h.findObject hR r.oid

theorem commit (hR : R s t) (oid : String) :
    Matches service Tables.step R (commit oid) (commit oid) s t := by
  refine (h.findObject hR oid).bind fun found s t hR _ => ?_
  cases found with
  | none => exact .pure hR none
  | some o =>
    refine h.bind_statement hR (.projectsWithOid oid .pending) trivial (by simp)
      fun names s' hopen hnames hR => ?_
    have hmoved : Matches service Tables.step R (Column.promote oid names)
        (Column.promote oid (t.answer (.projectsWithOid oid .pending)).1) s' t := by
      refine (h.promote oid names hR fun name hname => ?_).congr_right
        (promote_comm hopen oid fun name => hnames.mem_iff)
      exact Tables.contains_of_holds (Tables.mem_projectsWithOid.mp (hnames.mem_iff.mp hname))
    refine hmoved.bind fun _ s t hR _ => ?_
    exact h.bind_statement hR (.markOidCommitted oid) trivial (by simp)
      fun _ s' _ _ hR => h.findObject hR oid

theorem projects (hR : R s t) : Matches service Tables.step R projects projects s t := by
  refine h.bind_statement hR .allProjects trivial (by simp) fun rows s' _ hrows hR => ?_
  rw [listed_eq_of_alike hrows (nodup_projectRows t)]
  exact .pure hR _

theorem objects (hR : R s t) : Matches service Tables.step R objects objects s t := by
  refine h.bind_statement hR .allProjects trivial (by simp) fun rows s' _ hrows hR => ?_
  refine h.bind_statement hR .allOids trivial (by simp) fun oids s' _ hoids hR => ?_
  dsimp only
  rw [assembled_eq_of_alike hrows hoids (nodup_oidRows t)]
  exact .pure hR _

/-- **Over a store that mirrors tables every step comes to what it comes to over the tables.** -/
theorem stepsMatch : storage.StepsMatch service Tables.step R where
  passwordHash user s t hR := h.statement hR (.findUser user) trivial fun _ _ he => he
  find oid s t hR := h.findObject hR oid
  register r s t hR := h.register hR r
  commit oid s t hR := h.commit hR oid
  insertUser name hash s t hR :=
    (h.statement hR (.insertUserIfAbsent name hash) trivial fun _ _ he => he).map fun _ => ()
  deleteUser name s t hR := h.statement hR (.deleteUser name) trivial fun _ _ he => he
  userNames s t hR := by
    refine h.bind_statement hR .allUsers trivial (by simp) fun names s' _ hnames hR => ?_
    rw [sortNames_eq_of_perm hnames]
    exact .pure hR _
  ensureProject name s t hR := h.statement hR (.ensureProject name) trivial fun _ _ he => he
  projects s t hR := h.projects hR
  objects s t hR := h.objects hR
  close s t hR := h.statement hR .close trivial fun _ _ he => he

end Mirrors

end Depot.Column
