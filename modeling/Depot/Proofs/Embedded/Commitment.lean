import Depot.Proofs.Registry.Decoded
import Depot.Proofs.Registry.Listing
import Depot.Proofs.Transactions
import Mathlib.Logic.Function.Iterate

/-!
# A commitment on any tables

What a commitment makes of an embedded database, whatever is in its tables. The projects of the
record are read, changed and written one after another, a project that is named twice being read the
second time as it was written the first time. That works because what has been read can be written,
and what is written is read back, unless a list outgrows the 32 bits that there are for its length.

Headlines
* **`foldlM_enlist_view`**: what listing an object under projects makes of each row, step by step.
* **`Tables.commit_of_garbled`**, **`Tables.commit_of_readable`**: a commitment fails if a row that
  it reads cannot be read, and makes its rows otherwise.
* **`listed_ascending`**: an ascending list gets the object once, however often it is named.
* **`commit_on_any_tables`**: what a commitment replies and leaves.
-/

namespace Depot.Embedded

open Registry (Object Project Writable TextsWritable insertOid insertOid_spec)

variable {oid name : String} {l : List String} {p : Project} {n m : Nat}
  {projects : Table String Bytes} {t : Tables} {o : Object} {b : Bytes}

/-! ### Listing an object so many times -/

/-- A project after an object has been listed under it so many times. -/
def listed (oid : String) (n : Nat) (p : Project) : Project :=
  ⟨p.name, (fun l => (insertOid l oid).2)^[n] p.oids⟩

theorem listed_succ (oid : String) (n : Nat) (p : Project) :
    listed oid (n + 1) p = listed oid n (p.insert oid) := rfl

theorem listed_succ' (oid : String) (n : Nat) (p : Project) :
    listed oid (n + 1) p = (listed oid n p).insert oid := by
  unfold listed Project.insert
  rw [Function.iterate_succ_apply']

/-- An insertion adds nothing but the oid. -/
theorem mem_of_mem_insertOid {x : String} (h : x ∈ (insertOid l oid).2) : x = oid ∨ x ∈ l := by
  unfold insertOid at h
  split at h
  · exact .inr h
  · rcases List.mem_append.mp h with h | h
    · exact .inr (List.mem_of_mem_take h)
    · exact (List.mem_cons.mp h).imp_right List.mem_of_mem_drop

theorem length_le_insertOid (l : List String) (oid : String) :
    l.length ≤ (insertOid l oid).2.length := by
  unfold insertOid
  split
  · exact Nat.le_refl _
  · simp only [List.length_append, List.length_take, List.length_cons, List.length_drop]
    omega

theorem length_listed_le (oid : String) (p : Project) (h : m ≤ n) :
    (listed oid m p).oids.length ≤ (listed oid n p).oids.length := by
  induction h with
  | refl => exact Nat.le_refl _
  | step _ ih =>
    rw [listed_succ']
    exact Nat.le_trans ih (length_le_insertOid _ oid)

theorem mem_of_mem_listed {x : String} (h : x ∈ (listed oid n p).oids) : x = oid ∨ x ∈ p.oids := by
  induction n with
  | zero => exact .inr h
  | succ n ih =>
    rw [listed_succ'] at h
    exact (mem_of_mem_insertOid h).elim .inl ih

/-- A project that can be written can be written with the object as well, while its list does not
outgrow the bits for its length. -/
theorem listed_writable (hp : p.Writable) (hoid : Writable oid)
    (h : (listed oid n p).oids.length < 2 ^ 32) : (listed oid n p).Writable := by
  refine ⟨hp.name, h, fun x hx => ?_⟩
  rcases mem_of_mem_listed hx with rfl | hx
  · exact hoid
  · exact hp.oids.texts x hx

/-- An object that is in an ascending list is not inserted again. -/
theorem insertOid_of_mem (hl : Ascending l) (h : oid ∈ l) : (insertOid l oid).2 = l := by
  obtain ⟨hascending, hmem⟩ := insertOid_spec hl oid
  refine hascending.ext hl fun x => ?_
  rw [hmem, or_iff_right_of_imp]
  rintro rfl
  exact h

/-- **An ascending list gets the object once**, however often it is named. -/
theorem listed_ascending (h : Ascending p.oids) (hn : n ≠ 0) :
    Ascending (listed oid n p).oids ∧ oid ∈ (listed oid n p).oids ∧
      ∀ m, listed oid m (listed oid n p) = listed oid n p := by
  have hfirst : Ascending (listed oid n p).oids ∧ oid ∈ (listed oid n p).oids := by
    obtain ⟨n, rfl⟩ := Nat.exists_eq_succ_of_ne_zero hn
    rw [Nat.succ_eq_add_one]
    clear hn
    have hrest : Ascending (listed oid n p).oids := by
      induction n with
      | zero => exact h
      | succ n ih =>
        rw [listed_succ']
        exact (insertOid_spec ih oid).1
    obtain ⟨hascending, hmem⟩ := insertOid_spec hrest oid
    rw [listed_succ']
    exact ⟨hascending, (hmem oid).mpr (.inl rfl)⟩
  refine ⟨hfirst.1, hfirst.2, fun m => ?_⟩
  induction m with
  | zero => rfl
  | succ m ih =>
    rw [listed_succ', ih]
    exact congrArg (Project.mk _) (insertOid_of_mem hfirst.1 hfirst.2)

/-! ### Rows of projects -/

/-- The project under a name: the one in its row, if that can be read, and a new one where there is
no row. -/
def projectAt? (projects : Table String Bytes) (name : String) : Option Project :=
  match projects.get? name with
  | some b => Project.decode? b
  | none => some (Project.empty name)

theorem projectAt?_writable (hname : Writable name) (h : projectAt? projects name = some p) :
    p.Writable := by
  unfold projectAt? at h
  split at h
  · exact Project.writable_of_decode? h
  · obtain rfl := Option.some.inj h
    exact ⟨hname, (by decide : 0 < 2 ^ 32), nofun⟩

/-- A project that is written is read as it was written. -/
theorem projectAt?_insert (hp : p.Writable) (x : String) :
    projectAt? (projects.insert name p.encode) x =
      if x = name then some p else projectAt? projects x := by
  have hread := Project.decode?_encode_append hp []
  rw [List.append_nil] at hread
  unfold projectAt?
  rw [Table.get?_insert]
  by_cases hx : x = name
  · simp only [if_pos hx, hread]
  · simp only [if_neg hx]

theorem enlist_of_readable (h : projectAt? projects name = some p) :
    Tables.enlist oid projects name = .ok (projects.insert name (p.insert oid).encode) := by
  unfold projectAt? at h
  unfold Tables.enlist
  cases hget : projects.get? name with
  | none =>
    rw [hget] at h
    obtain rfl := Option.some.inj h
    rfl
  | some b =>
    rw [hget] at h
    have hread : readProject b = .ok p := by
      unfold readProject
      rw [show Project.decode? b = some p from h]
    show (readProject b).bind _ = _
    rw [hread]
    rfl

theorem enlist_of_garbled (h : projectAt? projects name = none) :
    Tables.enlist oid projects name = .error undecodable := by
  unfold projectAt? at h
  unfold Tables.enlist
  cases hget : projects.get? name with
  | none =>
    rw [hget] at h
    exact nomatch h
  | some b =>
    rw [hget] at h
    have hread : readProject b = .error undecodable := by
      unfold readProject
      rw [show Project.decode? b = none from h]
    show (readProject b).bind _ = _
    rw [hread]
    rfl

/-- The lists of the named projects have lengths of 32 bits, also with the object in them. -/
def Spacious (oid : String) (names : List String) (projects : Table String Bytes) : Prop :=
  Writable oid ∧ ∀ name ∈ names, ∀ p, projectAt? projects name = some p →
    (listed oid (names.count name) p).oids.length < 2 ^ 32

/-- Once an object has been listed under the first project, there is room for the others. -/
theorem Spacious.tail {names : List String} (h : Spacious oid (name :: names) projects)
    (hp : projectAt? projects name = some p) (hwritable : (p.insert oid).Writable) :
    Spacious oid names (projects.insert name (p.insert oid).encode) := by
  refine ⟨h.1, fun x hx q hq => ?_⟩
  rw [projectAt?_insert hwritable] at hq
  split at hq
  · rename_i hxname
    obtain rfl := hxname
    obtain rfl := Option.some.inj hq
    have hroom := h.2 x List.mem_cons_self p hp
    rwa [List.count_cons_self, listed_succ] at hroom
  · rename_i hne
    have hroom := h.2 x (List.mem_cons_of_mem name hx) q hq
    rwa [List.count_cons_of_ne (Ne.symm hne)] at hroom

/-- After an object has been listed under the first of some projects, it can be written. -/
theorem Spacious.head {names : List String} (h : Spacious oid (name :: names) projects)
    (hname : Writable name) (hp : projectAt? projects name = some p) :
    (p.insert oid).Writable := by
  have hlength := h.2 name List.mem_cons_self p hp
  have hpos : 1 ≤ (name :: names).count name := by
    rw [List.count_cons_self]
    omega
  exact listed_writable (projectAt?_writable hname hp) h.1
    (Nat.lt_of_le_of_lt (length_listed_le oid p hpos) hlength)

/-- Listing an object under projects fails if one of them cannot be read. -/
theorem foldlM_enlist_of_garbled {names : List String} (hnames : ∀ name ∈ names, Writable name)
    (h : Spacious oid names projects) (hgarbled : ∃ name ∈ names, projectAt? projects name = none) :
    names.foldlM (Tables.enlist oid) projects = .error undecodable := by
  induction names generalizing projects with
  | nil =>
    obtain ⟨name, hname, -⟩ := hgarbled
    exact absurd hname List.not_mem_nil
  | cons name names ih =>
    rw [List.foldlM_cons]
    cases hp : projectAt? projects name with
    | none => rw [enlist_of_garbled hp]; rfl
    | some p =>
      have hwritable := h.head (hnames name List.mem_cons_self) hp
      rw [enlist_of_readable hp]
      refine ih (fun x hx => hnames x (List.mem_cons_of_mem name hx)) (h.tail hp hwritable) ?_
      obtain ⟨x, hx, hnone⟩ := hgarbled
      have hne : x ≠ name := by
        rintro rfl
        exact nomatch hnone.symm.trans hp
      refine ⟨x, (List.mem_cons.mp hx).resolve_left hne, ?_⟩
      rw [projectAt?_insert hwritable, if_neg hne]
      exact hnone

/-- **Listing an object under projects** that can be read gives each of them the object as often as
it is named, and leaves the others. -/
theorem foldlM_enlist_view {names : List String} (hnames : ∀ name ∈ names, Writable name)
    (h : Spacious oid names projects)
    (hread : ∀ name ∈ names, ∃ p, projectAt? projects name = some p) :
    ∃ after, names.foldlM (Tables.enlist oid) projects = .ok after ∧
      (∀ x ∈ names, ∀ p, projectAt? projects x = some p →
        after.get? x = some (listed oid (names.count x) p).encode) ∧
      ∀ x ∉ names, after.get? x = projects.get? x := by
  induction names generalizing projects with
  | nil => exact ⟨projects, rfl, nofun, fun _ _ => rfl⟩
  | cons name names ih =>
    obtain ⟨p, hp⟩ := hread name List.mem_cons_self
    have hwritable := h.head (hnames name List.mem_cons_self) hp
    have hview : ∀ x, projectAt? (projects.insert name (p.insert oid).encode) x =
        if x = name then some (p.insert oid) else projectAt? projects x :=
      projectAt?_insert hwritable
    obtain ⟨after, hafter, hthere, helsewhere⟩ := ih
      (fun x hx => hnames x (List.mem_cons_of_mem name hx)) (h.tail hp hwritable) fun x hx => by
        rw [hview]
        split
        · exact ⟨_, rfl⟩
        · exact hread x (List.mem_cons_of_mem name hx)
    refine ⟨after, ?_, fun x hx q hq => ?_, fun x hx => ?_⟩
    · rw [List.foldlM_cons, enlist_of_readable hp]
      exact hafter
    · by_cases hxname : x = name
      · subst hxname
        obtain rfl := Option.some.inj (hp.symm.trans hq)
        rw [List.count_cons_self, listed_succ]
        by_cases hagain : x ∈ names
        · exact hthere x hagain _ (by rw [hview, if_pos rfl])
        · rw [helsewhere x hagain, Table.get?_insert, if_pos rfl, List.count_eq_zero.mpr hagain]
          rfl
      · rw [List.count_cons_of_ne (Ne.symm hxname)]
        exact hthere x ((List.mem_cons.mp hx).resolve_left hxname) q
          (by rw [hview, if_neg hxname]; exact hq)
    · obtain ⟨hxname, hx⟩ := not_or.mp fun hk => hx (List.mem_cons.mpr hk)
      rw [helsewhere x hx, Table.get?_insert, if_neg hxname]

/-! ### Commitments -/

/-- A row that a commitment reads cannot be read: that of the object, or that of a project which the
object names. -/
def Tables.Garbled (t : Tables) (oid : String) : Prop :=
  ∃ b, t.objects.get? oid = some b ∧ (Object.decode? b = none ∨
    ∃ stored, Object.decode? b = some stored ∧
      ∃ name ∈ stored.projects, ∃ b', t.projects.get? name = some b' ∧ Project.decode? b' = none)

/-- No list outgrows the 32 bits for its length when an object is committed. -/
def Tables.HasRoom (t : Tables) (oid : String) : Prop :=
  ∀ b stored, t.objects.get? oid = some b → Object.decode? b = some stored →
    Spacious oid stored.projects t.projects

theorem findObject_of_decode? {decoded : Option Object} (hget : t.objects.get? oid = some b)
    (h : Object.decode? b = decoded) : t.findObject oid =
      decoded.elim (.error undecodable) fun o => .ok (some o) := by
  unfold Tables.findObject readObject
  rw [hget]
  simp only [h]
  cases decoded with
  | none => rfl
  | some o => rfl

theorem projectAt?_eq_none_iff : projectAt? projects name = none ↔
    ∃ b, projects.get? name = some b ∧ Project.decode? b = none := by
  unfold projectAt?
  cases projects.get? name with
  | none => simp
  | some b => simp

theorem Tables.commit_of_absent (h : t.objects.get? oid = none) : t.commit oid = .ok (none, t) := by
  unfold commit findObject
  rw [h]
  rfl

/-- **A commitment fails if a row that it reads cannot be read.** -/
theorem Tables.commit_of_garbled (hroom : t.HasRoom oid) (h : t.Garbled oid) :
    t.commit oid = .error undecodable := by
  obtain ⟨b, hget, hnone | ⟨stored, hdecode, name, hname, hgarbled⟩⟩ := h
  · unfold commit
    rw [findObject_of_decode? hget hnone]
    rfl
  · have hwritable := Object.writable_of_decode? hdecode
    have hlist := foldlM_enlist_of_garbled hwritable.projects.texts (hroom b stored hget hdecode)
      ⟨name, hname, projectAt?_eq_none_iff.mpr hgarbled⟩
    unfold commit
    rw [findObject_of_decode? hget hdecode]
    show (stored.projects.foldlM (enlist oid) t.projects).bind _ = _
    rw [hlist]
    rfl

/-- The rows after a commitment: those of the object and of the projects that it names are made,
and all others are left. -/
structure Tables.Committed (t : Tables) (oid : String) (o : Object) (u : Tables) : Prop where
  objects : u.objects = t.objects.insert oid o.encode
  users : u.users = t.users
  /-- A project that is named keeps its name, and has the object listed as often as it is named. -/
  named : ∀ name ∈ o.projects, ∃ p, projectAt? t.projects name = some p ∧
    u.projects.get? name = some (listed oid (o.projects.count name) p).encode ∧
    projectAt? u.projects name = some (listed oid (o.projects.count name) p)
  others : ∀ name ∉ o.projects, u.projects.get? name = t.projects.get? name

/-- **A commitment makes its rows if those that it reads can be read.** -/
theorem Tables.commit_of_readable (hroom : t.HasRoom oid) (hget : t.objects.get? oid = some b)
    (hdecode : Object.decode? b = some o) (h : ¬ t.Garbled oid) :
    ∃ u, t.commit oid = .ok (some { o with existing := true }, u) ∧
      t.Committed oid { o with existing := true } u := by
  have hwritable := Object.writable_of_decode? hdecode
  have hspacious := hroom b o hget hdecode
  have hread : ∀ name ∈ o.projects, ∃ p, projectAt? t.projects name = some p := by
    intro name hname
    refine Option.ne_none_iff_exists'.mp fun hnone => h ?_
    exact ⟨b, hget, .inr ⟨o, hdecode, name, hname, projectAt?_eq_none_iff.mp hnone⟩⟩
  obtain ⟨after, hafter, hnamed, hothers⟩ :=
    foldlM_enlist_view hwritable.projects.texts hspacious hread
  refine ⟨{ t with
    objects := t.objects.insert oid (Object.encode { o with existing := true })
    projects := after }, ?_, rfl, rfl, fun name hname => ?_, hothers⟩
  · unfold commit
    rw [findObject_of_decode? hget hdecode]
    show (o.projects.foldlM (enlist oid) t.projects).bind _ = _
    rw [hafter]
    rfl
  · obtain ⟨p, hp⟩ := hread name hname
    have hrow := hnamed name hname p hp
    refine ⟨p, hp, hrow, ?_⟩
    have hlisted := listed_writable (projectAt?_writable (hwritable.projects.texts name hname) hp)
      hspacious.1 (hspacious.2 name hname p hp)
    have hback := Project.decode?_encode_append hlisted []
    rw [List.append_nil] at hback
    unfold projectAt?
    rw [hrow]
    exact hback

/-! ### Committing again -/

/-- The lists of the projects that an object names are ascending. -/
def AscendingLists (o : Object) (projects : Table String Bytes) : Prop :=
  ∀ name ∈ o.projects, ∀ p, projectAt? projects name = some p → Ascending p.oids

/-- Ascending lists stay ascending. -/
theorem Tables.Committed.ascending {u : Tables} (h : t.Committed oid o u)
    (hlists : AscendingLists o t.projects) : AscendingLists o u.projects := by
  intro name hname q hq
  obtain ⟨p, hp, -, hview⟩ := h.named name hname
  obtain rfl := Option.some.inj (hview.symm.trans hq)
  have hcount : o.projects.count name ≠ 0 := fun h0 => List.count_eq_zero.mp h0 hname
  exact (listed_ascending (hlists name hname p hp) hcount).1

/-- In ascending lists the object is listed once and for all. -/
theorem Tables.Committed.listed_again {u : Tables} (h : t.Committed oid o u)
    (hlists : AscendingLists o t.projects) (hname : name ∈ o.projects)
    (hp : projectAt? u.projects name = some p) (m : Nat) : listed oid m p = p := by
  obtain ⟨q, hq, -, hview⟩ := h.named name hname
  obtain rfl := Option.some.inj (hview.symm.trans hp)
  have hcount : o.projects.count name ≠ 0 := fun h0 => List.count_eq_zero.mp h0 hname
  exact (listed_ascending (hlists name hname q hq) hcount).2.2 m

/-- After a commitment the row of the object is that of the record. -/
theorem Tables.Committed.get?_objects {u : Tables} (h : t.Committed oid o u) :
    u.objects.get? oid = some o.encode := by
  rw [h.objects, Table.get?_insert, if_pos rfl]

/-- After a commitment the rows that it has made can be read. -/
theorem Tables.Committed.readable {u : Tables} (h : t.Committed oid o u)
    (hdecode : Object.decode? o.encode = some o) : ¬ u.Garbled oid := by
  rintro ⟨b, hb, hnone | ⟨stored, hstored, name, hname, hgarbled⟩⟩
  · obtain rfl := Option.some.inj (h.get?_objects.symm.trans hb)
    exact nomatch hdecode.symm.trans hnone
  · obtain rfl := Option.some.inj (h.get?_objects.symm.trans hb)
    obtain rfl := Option.some.inj (hdecode.symm.trans hstored)
    obtain ⟨q, -, -, hview⟩ := h.named name hname
    exact nomatch hview.symm.trans (projectAt?_eq_none_iff.mpr hgarbled)

/-- A commitment after another one makes the rows that are there, if the lists are ascending. -/
theorem Tables.Committed.eq_of_again {u w : Tables} (h : t.Committed oid o u)
    (hlists : AscendingLists o t.projects) (hw : u.Committed oid o w) : w = u := by
  have hobjects : w.objects = u.objects := by
    rw [hw.objects]
    refine Table.ext_get? fun x => ?_
    rw [Table.get?_insert]
    split
    · rename_i hx
      rw [hx, h.get?_objects]
    · rfl
  have hprojects : w.projects = u.projects := by
    refine Table.ext_get? fun x => ?_
    by_cases hx : x ∈ o.projects
    · obtain ⟨q, -, hrow, hview⟩ := h.named x hx
      obtain ⟨q', hq', hrow', -⟩ := hw.named x hx
      obtain rfl := Option.some.inj (hview.symm.trans hq')
      rw [hrow', hrow, h.listed_again hlists hx hview]
    · exact hw.others x hx
  cases w
  cases u
  simp only [Tables.mk.injEq]
  exact ⟨hobjects, hprojects, hw.users⟩

/-- **A second commitment changes nothing**, if the lists are ascending. -/
theorem Tables.Committed.again {u : Tables} (h : t.Committed oid o u) (ho : o.Writable)
    (hexisting : o.existing = true) (hoid : Writable oid)
    (hlength : ∀ name ∈ o.projects, ∀ p, projectAt? u.projects name = some p →
      p.oids.length < 2 ^ 32)
    (hlists : AscendingLists o t.projects) : u.commit oid = .ok (some o, u) := by
  have hdecode : Object.decode? o.encode = some o := by
    have hread := Object.decode?_encode_append ho []
    rwa [List.append_nil] at hread
  have hroom : u.HasRoom oid := by
    intro b stored hb hstored
    obtain rfl := Option.some.inj (h.get?_objects.symm.trans hb)
    obtain rfl := Option.some.inj (hdecode.symm.trans hstored)
    refine ⟨hoid, fun name hname p hp => ?_⟩
    rw [h.listed_again hlists hname hp]
    exact hlength name hname p hp
  obtain ⟨w, hcommit, hw⟩ :=
    Tables.commit_of_readable hroom h.get?_objects hdecode (h.readable hdecode)
  have hsame : { o with existing := true } = o := by rw [← hexisting]
  rw [hsame] at hcommit hw
  rw [hcommit, h.eq_of_again hlists hw]

/-! ### Every table content -/

theorem step_commit_of_ok {found : Option Object} {u : Tables} (h : t.commit oid = .ok (found, u)) :
    ({ tables := t } : Database).step (.commit oid) = (.ok found, { tables := u }) := by
  have hc : Call.commit oid ≠ .close := nofun
  exact Database.step_of_ok (d := { tables := t }) rfl hc h

theorem step_commit_of_error {e : Registry.Error} (h : t.commit oid = .error e) :
    ({ tables := t } : Database).step (.commit oid) = (.error e, { tables := t }) := by
  have hc : Call.commit oid ≠ .close := nofun
  have htransact : t.transact (.commit oid) = .error e := h
  rw [Database.step_of_open rfl hc, htransact]

/-- A commitment finds no row, cannot read one that it needs, or can read them all. -/
theorem step_commit_cases (hroom : t.HasRoom oid) :
    (t.objects.get? oid = none ∧
      ({ tables := t } : Database).step (.commit oid) = (.ok none, { tables := t })) ∨
    (t.Garbled oid ∧
      ({ tables := t } : Database).step (.commit oid) = (.error undecodable, { tables := t })) ∨
    ∃ b stored u, t.objects.get? oid = some b ∧ Object.decode? b = some stored ∧
      ¬ t.Garbled oid ∧ t.Committed oid { stored with existing := true } u ∧
      ({ tables := t } : Database).step (.commit oid) =
        (.ok (some { stored with existing := true }), { tables := u }) := by
  cases hget : t.objects.get? oid with
  | none => exact .inl ⟨rfl, step_commit_of_ok (Tables.commit_of_absent hget)⟩
  | some b =>
    by_cases h : t.Garbled oid
    · exact .inr (.inl ⟨h, step_commit_of_error (Tables.commit_of_garbled hroom h)⟩)
    · obtain ⟨stored, hdecode⟩ := Option.ne_none_iff_exists'.mp fun hnone =>
        h ⟨b, hget, .inl hnone⟩
      obtain ⟨u, hcommit, hu⟩ := Tables.commit_of_readable hroom hget hdecode h
      exact .inr (.inr ⟨b, stored, u, rfl, hdecode, h, hu, step_commit_of_ok hcommit⟩)

theorem Tables.Garbled.ne_none (h : t.Garbled oid) : t.objects.get? oid ≠ none := by
  obtain ⟨b, hget, -⟩ := h
  rw [hget]
  exact nofun

/-- **What a commitment replies and leaves**, whatever is in the tables. It finds nothing just if the
object has no row. It fails just if a row that it reads cannot be read, and leaves the database then.
Otherwise it replies with the record marked as committed, writes that, lists the object under each
project as often as the record names it, and leaves all other rows. Ascending lists stay ascending,
and committing again replies the same and changes nothing. -/
theorem commit_on_any_tables (t : Tables) (oid : String) (hroom : t.HasRoom oid) :
    let d : Database := { tables := t }
    let r := d.step (.commit oid)
    (r.1 = .ok none ↔ t.objects.get? oid = none) ∧
    ((∃ e, r.1 = .error e) ↔ t.Garbled oid) ∧
    ((r.1 = .ok none ∨ ∃ e, r.1 = .error e) → r.2 = d) ∧
    ∀ b stored, t.objects.get? oid = some b → Object.decode? b = some stored → ¬ t.Garbled oid →
      let o : Object := { stored with existing := true }
      r.1 = .ok (some o) ∧ t.Committed oid o r.2.tables ∧
        (AscendingLists o t.projects → AscendingLists o r.2.tables.projects ∧
          r.2.step (.commit oid) = (.ok (some o), r.2)) := by
  intro d r
  rcases step_commit_cases hroom with ⟨hnone, hstep⟩ | ⟨hgarbled, hstep⟩ |
    ⟨b, stored, u, hget, hdecode, hreadable, hu, hstep⟩
  · have hr : r = (.ok none, d) := hstep
    have hwhole : ¬ t.Garbled oid := fun h => h.ne_none hnone
    rw [hr]
    refine ⟨by simp [hnone], by simp [hwhole], fun _ => rfl, fun b stored hget => ?_⟩
    exact nomatch hnone.symm.trans hget
  · have hr : r = (.error undecodable, d) := hstep
    rw [hr]
    exact ⟨by simp [hgarbled.ne_none], by simp [hgarbled], fun _ => rfl,
      fun b stored _ _ hreadable => absurd hgarbled hreadable⟩
  · have hr : r = (.ok (some { stored with existing := true }), { tables := u }) := hstep
    rw [hr]
    refine ⟨by simp [hget], by simp [hreadable], by simp, fun b' stored' hget' hdecode' _ => ?_⟩
    obtain rfl := Option.some.inj (hget.symm.trans hget')
    obtain rfl := Option.some.inj (hdecode.symm.trans hdecode')
    refine ⟨rfl, hu, fun hlists => ⟨hu.ascending hlists, ?_⟩⟩
    obtain ⟨hoid, hlength⟩ := hroom b stored hget hdecode
    have hwritable := Object.writable_of_decode? hdecode
    refine step_commit_of_ok (hu.again ⟨hwritable.oid, hwritable.size, hwritable.projects⟩ rfl hoid
      (fun name hname p hp => ?_) hlists)
    obtain ⟨q, hq, -, hview⟩ := hu.named name hname
    obtain rfl := Option.some.inj (hview.symm.trans hp)
    exact hlength name hname q hq

/-- A row of an object that names one project twice and one that has no row. -/
def twiceNamed : Tables where
  objects := Table.ofList [("k", Object.encode ⟨"k", 1, ["p", "q", "p"], false⟩)]
  projects := Table.ofList [("p", Project.encode ⟨"p", ["j"]⟩), ("r", [0xc1])]

/-- The object is listed once under the project, whose list stays ascending. The other row of the
projects cannot be read, which does not matter. -/
theorem twiceNamed_committed :
    let r := ({ tables := twiceNamed } : Database).step (.commit "k")
    twiceNamed.HasRoom "k" ∧ ¬ twiceNamed.Garbled "k" ∧
      r.1 = .ok (some ⟨"k", 1, ["p", "q", "p"], true⟩) ∧
      r.2.tables.projects.get? "p" = some (Project.encode ⟨"p", ["j", "k"]⟩) ∧
      r.2.tables.projects.get? "q" = some (Project.encode ⟨"q", ["k"]⟩) ∧
      r.2.tables.projects.get? "r" = some [0xc1] ∧
      r.2.step (.commit "k") = (r.1, r.2) := by
  intro r
  have hget : twiceNamed.objects.get? "k" =
      some (Object.encode ⟨"k", 1, ["p", "q", "p"], false⟩) := by decide +kernel
  have hdecode : Object.decode? (Object.encode ⟨"k", 1, ["p", "q", "p"], false⟩) =
      some ⟨"k", 1, ["p", "q", "p"], false⟩ := by decide +kernel
  have hp : projectAt? twiceNamed.projects "p" = some ⟨"p", ["j"]⟩ := by decide +kernel
  have hq : projectAt? twiceNamed.projects "q" = some ⟨"q", []⟩ := by decide +kernel
  -- Whatever the row of the object is read as, it names these two projects.
  have hnames : ∀ name ∈ ["p", "q", "p"], name = "p" ∨ name = "q" := by decide
  have hroom : twiceNamed.HasRoom "k" := by
    intro b stored hb hstored
    obtain rfl := Option.some.inj (hget.symm.trans hb)
    obtain rfl := Option.some.inj (hdecode.symm.trans hstored)
    refine ⟨by decide, fun name hname p hread => ?_⟩
    rcases hnames name hname with rfl | rfl
    · obtain rfl := Option.some.inj (hp.symm.trans hread)
      decide +kernel
    · obtain rfl := Option.some.inj (hq.symm.trans hread)
      decide +kernel
  have hreadable : ¬ twiceNamed.Garbled "k" := by
    rintro ⟨b, hb, hnone | ⟨stored, hstored, name, hname, hgarbled⟩⟩
    · obtain rfl := Option.some.inj (hget.symm.trans hb)
      exact nomatch hdecode.symm.trans hnone
    · obtain rfl := Option.some.inj (hget.symm.trans hb)
      obtain rfl := Option.some.inj (hdecode.symm.trans hstored)
      rcases hnames name hname with rfl | rfl
      · exact nomatch hp.symm.trans (projectAt?_eq_none_iff.mpr hgarbled)
      · exact nomatch hq.symm.trans (projectAt?_eq_none_iff.mpr hgarbled)
  obtain ⟨-, -, -, hmade⟩ := commit_on_any_tables twiceNamed "k" hroom
  obtain ⟨hreply, hcommitted, hagain⟩ := hmade _ _ hget hdecode hreadable
  have hlists : AscendingLists ⟨"k", 1, ["p", "q", "p"], true⟩ twiceNamed.projects := by
    intro name hname p hread
    rcases hnames name hname with rfl | rfl
    · obtain rfl := Option.some.inj (hp.symm.trans hread)
      exact List.pairwise_singleton _ _
    · obtain rfl := Option.some.inj (hq.symm.trans hread)
      exact List.Pairwise.nil
  obtain ⟨p, hpread, hprow, -⟩ := hcommitted.named "p" (by decide)
  obtain ⟨q, hqread, hqrow, -⟩ := hcommitted.named "q" (by decide)
  obtain rfl := Option.some.inj (hp.symm.trans hpread)
  obtain rfl := Option.some.inj (hq.symm.trans hqread)
  have hplisted : listed "k" (List.count "p" ["p", "q", "p"]) ⟨"p", ["j"]⟩ = ⟨"p", ["j", "k"]⟩ := by
    decide +kernel
  have hqlisted : listed "k" (List.count "q" ["p", "q", "p"]) ⟨"q", []⟩ = ⟨"q", ["k"]⟩ := by
    decide +kernel
  refine ⟨hroom, hreadable, hreply, hprow.trans ?_, hqrow.trans ?_,
    (hcommitted.others "r" (by decide)).trans (by decide +kernel),
    (hagain hlists).2.trans (by rw [hreply])⟩
  · exact congrArg (fun p => some (Project.encode p)) hplisted
  · exact congrArg (fun p => some (Project.encode p)) hqlisted

end Depot.Embedded
