import Depot.Proofs.Column.History

/-!
# Membership in a column registry

Nothing spans two statements of a column registry, so what its operations guarantee together rests
on the order of their statements: a registration adds the object to its project before it inserts
the row, and a commitment adds the object to the committed set before it takes it out of the pending
one, and does both before it clears the flag. `Consistent` is what this order keeps between any two
statements, and `Permitted` what an operation knows when it makes each of them.

Headlines
* **`serve_consistent`**, **`serve_grows`**: a permitted statement keeps histories consistent, and
  never takes back a row, a cleared flag or a membership.
* **`membership_never_lost`**: in every run the project that an object was registered with holds it,
  in the committed set once the flag is cleared, and successful look-ups and commitments name it.
* **`committed_set_of_uncommitted`**: an object in a committed set has a row, which is pending only
  while a commitment of the object has not come to its end.
-/

namespace Depot.Column

open Credential (Gate)
open Registry (Answer Breakdown Error Object Operation Outcome Request Storage sortNames)

namespace History

/-- There is a row of an object. -/
def HasRow (w : History) (oid : String) : Prop := ∃ e, w.row oid = some e

/-- There is a row of an object, and its pending flag is cleared. -/
def Flagged (w : History) (oid : String) : Prop := ∃ e, w.row oid = some e ∧ e.pending = false

/-- One of the sets of a project holds an object. -/
def Held (w : History) (name oid : String) : Prop :=
  w.Holds .pending name oid ∨ w.Holds .committed name oid

/-- A record names the project that its object was registered with. -/
def Names (w : History) (oid : String) (o : Object) : Prop :=
  ∀ r, w.Registered oid r → r.repo ≠ "" → r.repo ∈ o.projects

/-- What the order of statements keeps at every time. -/
structure Consistent (w : History) : Prop where
  registered : ∀ {oid}, w.HasRow oid → ∃ r, w.Registered oid r
  row : ∀ {oid r}, w.Registered oid r → w.HasRow oid
  held : ∀ {oid r}, w.Registered oid r → r.repo ≠ "" → w.Held r.repo oid
  committed : ∀ {oid r}, w.Registered oid r → r.repo ≠ "" → w.Flagged oid →
    w.Holds .committed r.repo oid
  moved : ∀ {name oid}, w.Holds .committed name oid → w.HasRow oid ∧ w.Moved name oid
  cleared : ∀ {oid}, w.Cleared oid → w.Flagged oid

/-- What later histories keep of earlier ones. Who registered an object is settled by its row. -/
structure Grows (v w : History) : Prop where
  row : ∀ {oid}, v.HasRow oid → w.HasRow oid
  flagged : ∀ {oid}, v.Flagged oid → w.Flagged oid
  committed : ∀ {name oid}, v.Holds .committed name oid → w.Holds .committed name oid
  held : ∀ {name oid}, v.Held name oid → w.Held name oid
  settled : ∀ {oid r}, v.HasRow oid → w.Registered oid r → v.Registered oid r

/-- What an operation has made sure of when it makes a statement. -/
def Permitted (op : Operation) (w : History) : Call → Prop
  | .insertPendingOid oid size =>
    ∃ r : Request, op = .put r ∧ r.oid = oid ∧ r.size = size ∧
      (r.repo ≠ "" → w.Held r.repo oid)
  | .markOidCommitted oid =>
    w.HasRow oid ∧ ∀ r, w.Registered oid r → r.repo ≠ "" → w.Holds .committed r.repo oid
  | .addProjectOid _ oid .committed =>
    w.HasRow oid ∧ ∃ r : Request, op = .commit r ∧ r.oid = oid
  | .removePendingProjectOid name oid => w.Holds .committed name oid
  | _ => True

theorem Flagged.hasRow {w : History} {oid : String} (h : w.Flagged oid) : w.HasRow oid :=
  ⟨h.choose, h.choose_spec.1⟩

theorem Grows.refl (w : History) : Grows w w := ⟨id, id, id, id, fun _ h => h⟩

theorem Grows.trans {u v w : History} (h : Grows u v) (k : Grows v w) : Grows u w where
  row hr := k.row (h.row hr)
  flagged hf := k.flagged (h.flagged hf)
  committed hc := k.committed (h.committed hc)
  held hh := k.held (h.held hh)
  settled hr hw := h.settled hr (k.settled (h.row hr) hw)

/-- A record names the right project for good. -/
theorem Names.later {v w : History} {oid : String} {o : Object} (h : v.Names oid o)
    (hrow : v.HasRow oid) (hg : Grows v w) : w.Names oid o :=
  fun r hr => h r (hg.settled hrow hr)

/-! ### One statement -/

section

variable {op : Operation} {w : History} {c : Call}

theorem hasRow_serve {oid : String} (h : w.HasRow oid) : (w.serve op c).2.HasRow oid := by
  obtain ⟨e, he⟩ := h
  obtain ⟨e', he', -, -⟩ := Tables.row_kept c he
  exact ⟨e', he'⟩

theorem flagged_serve {oid : String} (h : w.Flagged oid) : (w.serve op c).2.Flagged oid := by
  obtain ⟨e, he, hp⟩ := h
  obtain ⟨e', he', -, hk⟩ := Tables.row_kept c he
  exact ⟨e', he', hk hp⟩

/-- A flag that is cleared now was so before, or has been cleared by this statement. -/
theorem flagged_serve_cases {oid : String} (h : (w.serve op c).2.Flagged oid) :
    w.Flagged oid ∨ (c = .markOidCommitted oid ∧ w.HasRow oid) := by
  obtain ⟨e, he, hp⟩ := h
  obtain h | ⟨-, -, -, hpend⟩ | ⟨rfl, -, e', he', -⟩ := Tables.row_step_cases he
  · exact Or.inl ⟨e, h, hp⟩
  · exact absurd (hp.symm.trans hpend) (by simp)
  · exact Or.inr ⟨rfl, e', he'⟩

theorem committed_serve {name oid : String} (h : w.Holds .committed name oid) :
    (w.serve op c).2.Holds .committed name oid :=
  Tables.holds_step_iff.mpr (Or.inr ⟨h, fun hr => absurd hr.2.2 (by simp)⟩)

/-- Only what is in the committed set already is taken out of the pending one. -/
theorem held_serve (hp : Permitted op w c) {name oid : String} (h : w.Held name oid) :
    (w.serve op c).2.Held name oid := by
  rcases h with h | h
  · by_cases hc : c = .removePendingProjectOid name oid
    · subst hc
      exact Or.inr (committed_serve hp)
    · exact Or.inl (Tables.holds_step_iff.mpr (Or.inr ⟨h, fun hr => hc hr.2.1⟩))
  · exact Or.inr (committed_serve h)

/-- **A permitted statement takes nothing back.** -/
theorem serve_grows (hp : Permitted op w c) : Grows w (w.serve op c).2 where
  row := hasRow_serve
  flagged := flagged_serve
  committed := committed_serve
  held := held_serve hp
  settled := by
    intro oid r ⟨e, he⟩ hr
    rcases registered_serve.mp hr with hr | ⟨-, -, -, hnone⟩
    · exact hr
    · exact absurd (he.symm.trans hnone) (by simp)

/-- **A permitted statement keeps a history consistent.** -/
theorem serve_consistent (hw : w.Consistent) (hp : Permitted op w c) :
    (w.serve op c).2.Consistent where
  registered := by
    rintro oid ⟨e, he⟩
    obtain h | ⟨rfl, hopen, hnone, -⟩ | ⟨-, -, e', he', -⟩ := Tables.row_step_cases he
    · obtain ⟨r, hr⟩ := hw.registered ⟨e, h⟩
      exact ⟨r, registered_serve.mpr (Or.inl hr)⟩
    · obtain ⟨r, rfl, -, hsize, -⟩ := hp
      exact ⟨r, registered_serve.mpr (Or.inr ⟨rfl, by rw [hsize], hopen, hnone⟩)⟩
    · obtain ⟨r, hr⟩ := hw.registered ⟨e', he'⟩
      exact ⟨r, registered_serve.mpr (Or.inl hr)⟩
  row := by
    intro oid r hr
    rcases registered_serve.mp hr with hr | ⟨-, rfl, hopen, hnone⟩
    · exact hasRow_serve (hw.row hr)
    · refine ⟨⟨r.size, true⟩, ?_⟩
      show (w.tables.step _).2.oids.get? oid = _
      rw [Tables.step_of_open hopen, Tables.get?_oids_answer]
      exact if_pos ⟨rfl, hnone⟩
  held := by
    intro oid r hr hne
    rcases registered_serve.mp hr with hr | ⟨rfl, rfl, -, -⟩
    · exact held_serve hp (hw.held hr hne)
    · obtain ⟨r', hop, -, -, hheld⟩ := id hp
      cases hop
      exact held_serve hp (hheld hne)
  committed := by
    intro oid r hr hne hf
    rcases registered_serve.mp hr with hold | ⟨rfl, rfl, -, hnone⟩
    · obtain hf | ⟨rfl, -⟩ := flagged_serve_cases hf
      · exact committed_serve (hw.committed hold hne hf)
      · exact committed_serve (hp.2 r hold hne)
    · -- a row that has just been inserted is pending
      obtain ⟨e, he⟩ | ⟨hc, -⟩ := flagged_serve_cases hf
      · exact absurd (he.1.symm.trans hnone) (by simp)
      · exact absurd hc (by simp)
  moved := by
    intro name oid h
    rcases Tables.holds_step_iff.mp h with ⟨hopen, rfl⟩ | ⟨h, -⟩
    · obtain ⟨hrow, hop⟩ := hp
      exact ⟨hasRow_serve hrow, moved_serve.mpr (Or.inr ⟨hop, rfl, hopen⟩)⟩
    · obtain ⟨hrow, hm⟩ := hw.moved h
      exact ⟨hasRow_serve hrow, moved_serve.mpr (Or.inl hm)⟩
  cleared := by
    intro oid h
    rcases cleared_serve.mp h with h | ⟨rfl, hopen⟩
    · exact flagged_serve (hw.cleared h)
    · obtain ⟨⟨e, he⟩, -⟩ := hp
      refine ⟨{ e with pending := false }, ?_, rfl⟩
      show (w.tables.step _).2.oids.get? oid = _
      rw [Tables.step_of_open hopen, Tables.get?_oids_answer]
      simp only [if_true]
      rw [show w.tables.oids.get? oid = some e from he]
      rfl

end

end History

/-! ### Actions -/

open History

/-- What holds of histories at every time, and how they go on. -/
def discipline : Regime History := ⟨Consistent, Grows, Grows.refl, Grows.trans⟩

variable {gate : Gate} {op : Operation} {α β : Type} {post : β → History → Prop} {w : History}

/-- An action of an operation keeps the discipline, and what it promises of an answer holds from
then on. -/
abbrev Assures (gate : Gate) (op : Operation) (post : β → History → Prop) (x : Action β)
    (w : History) : Prop :=
  Keeps (operation gate) serve discipline op post x w

/-- A permitted statement and what follows it. -/
theorem permitted_bind {c : Call} {f : c.Answer → Action β} (hc : c ≠ .close)
    (h : ∀ t, t.Consistent → Grows w t → Permitted op t c)
    (hf : ∀ t, t.Consistent → Grows w t → t.tables.closed = false →
      Assures gate op post (f (t.tables.answer c).1) (t.serve op c).2) :
    Assures gate op post (statement c >>= f) w := by
  refine Keeps.permitted_bind (fun t c hv hp => ?_) h fun t a hv ht ha => ?_
  · exact ⟨serve_consistent hv hp, serve_grows hp⟩
  · obtain ⟨hopen, rfl⟩ := Tables.open_of_step_ok hc ha
    exact hf t hv ht hopen

theorem authorize_assures (r : Request) :
    Assures gate op (fun _ _ => True) (storage.authorize gate r) w := by
  refine Keeps.weaken (Keeps.authorize gate r (fun t => t.tables.users.get?) ?_)
    fun _ _ _ _ => trivial
  refine fun user t hv _ => ⟨serve_consistent hv trivial, serve_grows trivial, fun found hf => ?_⟩
  obtain ⟨-, rfl⟩ := Tables.open_of_step_ok (by simp) hf
  rfl

/-- What a look-up that began at `w` has found at `t`. -/
structure Found (w : History) (oid : String) (found : Option Object) (t : History) : Prop where
  row : ∀ {o}, found = some o → t.HasRow oid
  names : ∀ {o}, found = some o → o.existing = true → t.Names oid o
  existing : w.Flagged oid → ∃ o, found = some o ∧ o.existing = true

/-- A look-up that finds the flag cleared reads the committed sets after it, so that it names the
project of the registration; one that begins after the flag has been cleared finds it so. -/
theorem findObject_assures (oid : String) :
    Assures gate op (Found w oid) (findObject oid) w := by
  unfold findObject
  refine permitted_bind (by simp) (fun _ _ _ => trivial) fun t hv ht hopen => ?_
  cases hrow : t.tables.oids.get? oid with
  | none =>
    simp only [Tables.answer, hrow, Option.map_none]
    refine Keeps.pure fun u _ _ => ⟨fun h => absurd h (by simp), fun h => absurd h (by simp), ?_⟩
    intro hf
    obtain ⟨e, he, -⟩ := ht.flagged hf
    exact absurd (he.symm.trans hrow) (by simp)
  | some e =>
    simp only [Tables.answer, hrow, Option.map_some]
    have hrow' : (t.serve op (.findOid oid)).2.HasRow oid := hasRow_serve ⟨e, hrow⟩
    refine permitted_bind (by simp) (fun _ _ _ => trivial) fun u hu hgu _ => Keeps.pure ?_
    have hread : Grows t (t.serve op (.findOid oid)).2 := serve_grows trivial
    have hgtu : Grows t u := hread.trans hgu
    intro v hv' hgv
    have hlist : Grows u (u.serve op (.projectsWithOid oid (membershipOf ⟨oid, e.size, e.pending⟩))).2 :=
      serve_grows trivial
    have huv : Grows u v := hlist.trans hgv
    refine ⟨fun _ => huv.row (hgu.row hrow'), ?_, fun hf => ⟨_, rfl, ?_⟩⟩
    · intro o ho hex r hr hne
      cases ho
      have hp : e.pending = false := by simpa [objectOf, Tables.oidRow] using hex
      have hrt : t.Registered oid r := (hgtu.trans huv).settled ⟨e, hrow⟩ hr
      have hcom : u.Holds .committed r.repo oid :=
        hgtu.committed (hv.committed hrt hne ⟨e, hrow, hp⟩)
      refine List.mem_mergeSort.mpr (Tables.mem_projectsWithOid.mpr ?_)
      simpa [membershipOf, Tables.oidRow, hp, Holds] using hcom
    · obtain ⟨e', he', hp⟩ := ht.flagged hf
      obtain rfl := Option.some.inj (he'.symm.trans hrow)
      simpa [objectOf, Tables.oidRow] using hp

/-- After the membership statements of a registration each of its projects holds the object. -/
theorem addPending_assures {r : Request} :
    ∀ (names : List String) {w : History},
      Assures gate (.put r) (fun _ t => ∀ name ∈ names, t.Held name r.oid)
        (addPending r.oid names) w
  | [], w => Keeps.pure fun _ _ _ _ h => absurd h List.not_mem_nil
  | name :: rest, w => by
    refine permitted_bind (by simp) (fun _ _ _ => trivial) fun t _ _ _ => ?_
    refine permitted_bind (by simp) (fun _ _ _ => trivial) fun u _ _ hopen => ?_
    have hheld : (u.serve (.put r) (.addProjectOid name r.oid .pending)).2.Held name r.oid :=
      Or.inl (Tables.holds_step_iff.mpr (Or.inl ⟨hopen, rfl⟩))
    refine Keeps.weaken (Keeps.remember (addPending_assures rest)) ?_
    intro _ v _ ⟨hrest, hg⟩ name' hname'
    rcases List.mem_cons.mp hname' with rfl | hname'
    · exact hg.held hheld
    · exact hrest name' hname'

theorem register_assures (r : Request) :
    Assures gate (.put r) (fun _ _ => True) (register r) w := by
  unfold register
  refine Keeps.bind (findObject_assures r.oid) fun found t _ _ _ => ?_
  cases found with
  | some o => exact Keeps.pure fun _ _ _ => trivial
  | none =>
    refine Keeps.bind (addPending_assures r.projects) fun _ u _ _ hheld => ?_
    refine permitted_bind (by simp) ?_ fun v _ _ _ => ?_
    · refine fun v _ hg => ⟨r, rfl, rfl, rfl, fun hne => hg.held (hheld r.repo ?_)⟩
      simp [Request.projects, hne]
    · split
      · exact Keeps.pure fun _ _ _ => trivial
      · exact Keeps.weaken (findObject_assures r.oid) fun _ _ _ _ => trivial

/-- After the moves of a commitment the committed set of each project holds the object. -/
theorem promote_assures {r : Request} :
    ∀ (names : List String) {w : History}, w.HasRow r.oid →
      Assures gate (.commit r) (fun _ t => ∀ name ∈ names, t.Holds .committed name r.oid)
        (promote r.oid names) w
  | [], _, _ => Keeps.pure fun _ _ _ _ h => absurd h List.not_mem_nil
  | name :: rest, w, hrow => by
    refine permitted_bind (by simp) (fun t _ ht => ⟨ht.row hrow, r, rfl, rfl⟩) fun t _ ht hopen => ?_
    have hadd : (t.serve (.commit r) (.addProjectOid name r.oid .committed)).2.Holds .committed
        name r.oid := Tables.holds_step_iff.mpr (Or.inl ⟨hopen, rfl⟩)
    refine permitted_bind (by simp) (fun u _ hu => hu.committed hadd) fun u _ hu _ => ?_
    have hcom : (u.serve (.commit r) (.removePendingProjectOid name r.oid)).2.Holds .committed
        name r.oid := committed_serve (hu.committed hadd)
    have hrow' : (u.serve (.commit r) (.removePendingProjectOid name r.oid)).2.HasRow r.oid :=
      hasRow_serve (hu.row (hasRow_serve (ht.row hrow)))
    refine Keeps.weaken (Keeps.remember (promote_assures rest hrow')) ?_
    intro _ v _ ⟨hrest, hg⟩ name' hname'
    rcases List.mem_cons.mp hname' with rfl | hname'
    · exact hg.committed hcom
    · exact hrest name' hname'

/-- What a commitment answers at its end: the flag is cleared, and the record names the project. -/
theorem commit_assures (r : Request) :
    Assures gate (.commit r)
      (fun found t => ∀ o, found = some o → t.Flagged r.oid ∧ t.Names r.oid o)
      (commit r.oid) w := by
  unfold commit
  refine Keeps.bind (findObject_assures r.oid) fun found t _ _ hfound => ?_
  cases found with
  | none => exact Keeps.pure fun _ _ _ o h => absurd h (by simp)
  | some o =>
    have hrow : t.HasRow r.oid := hfound.row rfl
    refine permitted_bind (by simp) (fun _ _ _ => trivial) fun u hu hgu _ => ?_
    have hrowu : u.HasRow r.oid := hgu.row hrow
    -- the project of the registration is in the list read, or has been moved already
    have hread : ∀ q, u.Registered r.oid q → q.repo ≠ "" →
        q.repo ∈ (u.tables.answer (.projectsWithOid r.oid .pending)).1 ∨
          u.Holds .committed q.repo r.oid := fun q hq hne =>
      (hu.held hq hne).imp_left Tables.mem_projectsWithOid.mpr
    refine Keeps.bind (promote_assures _ (hasRow_serve hrowu)) fun _ v _ hgv hmoved => ?_
    have hlist : Grows u (u.serve (.commit r) (.projectsWithOid r.oid .pending)).2 :=
      serve_grows trivial
    have hguv : Grows u v := hlist.trans hgv
    refine permitted_bind (by simp) ?_ fun x _ hgx hopen => ?_
    · intro x _ hgx
      have hgux := hguv.trans hgx
      refine ⟨hgux.row hrowu, fun q hq hne => ?_⟩
      rcases hread q (hgux.settled hrowu hq) hne with hin | hcom
      · exact hgx.committed (hmoved _ hin)
      · exact hgux.committed hcom
    · have hclear : (x.serve (.commit r) (.markOidCommitted r.oid)).2.Flagged r.oid := by
        obtain ⟨e, he⟩ := (hguv.trans hgx).row hrowu
        refine ⟨{ e with pending := false }, ?_, rfl⟩
        show (x.tables.step _).2.oids.get? r.oid = _
        rw [Tables.step_of_open hopen, Tables.get?_oids_answer]
        simp only [if_true]
        rw [show x.tables.oids.get? r.oid = some e from he]
        rfl
      refine Keeps.weaken (Keeps.remember (findObject_assures r.oid)) ?_
      intro found y _ ⟨hf, hgy⟩ o ho
      obtain ⟨o', ho', hex⟩ := hf.existing hclear
      obtain rfl := Option.some.inj (ho.symm.trans ho')
      exact ⟨hgy.flagged hclear, hf.names ho hex⟩

/-! ### Operations -/

/-- What an operation promises of its answer. -/
def Promises : Operation → Answer → History → Prop
  | .get r, a, w => ∃ o, a = .object o ∧ w.Names r.oid o
  | .commit r, a, w => ∃ o, a = .object o ∧ w.Names r.oid o ∧ w.Flagged r.oid
  | _, _, _ => True

theorem require_assures {oid : String} {found : Option Object} {post : Object → History → Prop}
    (h : ∀ o, found = some o → ∀ t, t.Consistent → Grows w t → post o t) :
    Assures gate op post (Storage.require oid found) w := by
  cases found with
  | none => exact Keeps.throw _
  | some o => exact Keeps.pure (h o rfl)

theorem get_assures (r : Request) :
    Assures gate (.get r) (fun o t => t.Names r.oid o ∧ t.HasRow r.oid) (storage.get gate r) w := by
  unfold Storage.get
  refine Keeps.bind (authorize_assures r) fun _ t _ _ _ => ?_
  refine Keeps.bind (findObject_assures r.oid) fun found u _ _ hfound => ?_
  have hreq : Assures gate (.get r) (fun o v => found = some o ∧ Grows u v)
      (Storage.require r.oid found) u := require_assures fun o ho v _ hg => ⟨ho, hg⟩
  refine Keeps.bind hreq fun o v _ _ ho => ?_
  split
  · rename_i hex
    refine Keeps.pure fun x _ hgx => ?_
    have hgux := ho.2.trans hgx
    have hrow := hfound.row ho.1
    exact ⟨(hfound.names ho.1 hex).later hrow hgux, hgux.row hrow⟩
  · exact Keeps.throw _

theorem commitObject_assures (r : Request) :
    Assures gate (.commit r) (fun o t => t.Names r.oid o ∧ t.Flagged r.oid)
      (storage.commitObject gate r) w := by
  unfold Storage.commitObject
  refine Keeps.bind (authorize_assures r) fun _ t _ _ _ => ?_
  refine Keeps.bind (commit_assures r) fun found u _ _ hfound => ?_
  refine require_assures fun o ho v _ hg => ?_
  obtain ⟨hf, hn⟩ := hfound o ho
  exact ⟨hn.later hf.hasRow hg, hg.flagged hf⟩

/-! Of most operations it is only to be shown that they keep the discipline. -/

theorem silent_pure (b : β) : Assures gate op (fun _ _ => True) (pure b) w :=
  Keeps.pure fun _ _ _ => trivial

theorem silent_lift (x : Except Error β) : Assures gate op (fun _ _ => True) (liftM x) w :=
  Keeps.lift fun _ _ _ _ _ => trivial

theorem silent_bind {x : Action α} {f : α → Action β} {post : α → History → Prop}
    (h : Assures gate op post x w)
    (hf : ∀ a t, Assures gate op (fun _ _ => True) (f a) t) :
    Assures gate op (fun _ _ => True) (x >>= f) w :=
  Keeps.bind h fun a t _ _ _ => hf a t

theorem silent_require (oid : String) (found : Option Object) :
    Assures gate op (fun _ _ => True) (Storage.require oid found) w :=
  require_assures fun _ _ _ _ _ => trivial

/-- A statement that any operation may make at any time. -/
theorem silent_statement {c : Call} (h : ∀ t, Permitted op t c) :
    Assures gate op (fun _ _ => True) (statement c) w :=
  Keeps.statement fun t hv _ =>
    ⟨serve_consistent hv (h t), serve_grows (h t), fun _ _ _ _ _ => trivial⟩

theorem getPending_assures (r : Request) :
    Assures gate op (fun _ _ => True) (storage.getPending gate r) w :=
  silent_bind (authorize_assures r) fun _ _ =>
    silent_bind (findObject_assures r.oid) fun found _ => silent_require r.oid found

theorem put_assures (r : Request) :
    Assures gate (.put r) (fun _ _ => True) (storage.put gate r) w :=
  silent_bind (authorize_assures r) fun _ _ => silent_bind (silent_lift _) fun _ _ =>
    silent_bind (register_assures r) fun found _ => silent_require r.oid found

theorem addUser_assures (name password : String) (salt : Bytes) :
    Assures gate op (fun _ _ => True) (storage.addUser gate name password salt) w := by
  refine silent_bind (silent_lift _) fun _ _ => silent_bind (silent_lift _) fun _ _ => ?_
  have hfind : ∀ t, Assures gate op (fun _ _ => True) (statement (.findUser name)) t :=
    fun t => silent_statement fun _ => trivial
  refine silent_bind (hfind _) fun found _ => ?_
  cases found with
  | some hash => exact silent_pure _
  | none => exact silent_bind (silent_statement fun _ => trivial) fun _ _ => silent_pure _

theorem users_assures : Assures gate op (fun _ _ => True) (storage.users gate) w :=
  silent_bind (silent_lift _) fun _ _ => silent_bind
    (silent_bind (silent_statement fun _ => trivial) fun _ _ => silent_pure _) fun _ _ => silent_pure _

theorem removeUser_assures (name : String) :
    Assures gate op (fun _ _ => True) (storage.removeUser gate name) w := by
  refine silent_bind (silent_lift _) fun _ _ => ?_
  exact silent_statement (c := .deleteUser name) fun _ => trivial

theorem addProject_assures (name : String) :
    Assures gate op (fun _ _ => True) (storage.addProject name) w := by
  refine silent_bind (silent_lift _) fun _ _ => ?_
  exact silent_statement (c := .ensureProject name) fun _ => trivial

theorem projects_assures : Assures gate op (fun _ _ => True) projects w :=
  silent_bind (silent_statement fun _ => trivial) fun _ _ => silent_pure _

theorem objects_assures : Assures gate op (fun _ _ => True) objects w :=
  silent_bind (silent_statement fun _ => trivial) fun _ _ =>
    silent_bind (silent_statement fun _ => trivial) fun _ _ => silent_pure _

/-- **Every operation keeps the discipline**, whatever others do between its statements. -/
theorem run_assures (op : Operation) (w : History) :
    Assures gate op (Promises op) (storage.run gate op) w := by
  cases op with
  | get r =>
    refine Keeps.bind (get_assures r) fun o t _ _ h => Keeps.pure fun u _ hg => ?_
    exact ⟨o, rfl, h.1.later h.2 hg⟩
  | commit r =>
    refine Keeps.bind (commitObject_assures r) fun o t _ _ h => Keeps.pure fun u _ hg => ?_
    exact ⟨o, rfl, h.1.later h.2.hasRow hg, hg.flagged h.2⟩
  | getPending r => exact silent_bind (getPending_assures r) fun _ _ => silent_pure _
  | put r => exact silent_bind (put_assures r) fun _ _ => silent_pure _
  | addUser name password salt =>
    exact silent_bind (addUser_assures name password salt) fun _ _ => silent_pure _
  | deleteUser name =>
    exact silent_bind (removeUser_assures name) fun _ _ => silent_pure _
  | users => exact silent_bind users_assures fun _ _ => silent_pure _
  | addProject name =>
    exact silent_bind (addProject_assures name) fun _ _ => silent_pure _
  | projects => exact silent_bind projects_assures fun _ _ => silent_pure _
  | objects => exact silent_bind objects_assures fun _ _ => silent_pure _
  | close =>
    have hclose : Assures gate .close (fun _ _ => True) (statement .close) w :=
      silent_statement fun _ => trivial
    exact silent_bind hclose fun _ _ => silent_pure _

/-! ### Runs -/

theorem consistent_vacant (users : Table String String) :
    (⟨{ users := users }, []⟩ : History).Consistent where
  registered h := absurd (show none = some _ from h.choose_spec) (by simp)
  row h := absurd h.choose_spec.1 List.not_mem_nil
  held h := absurd h.choose_spec.1 List.not_mem_nil
  committed h := absurd h.choose_spec.1 List.not_mem_nil
  moved h := absurd (show false = true from h) (by simp)
  cleared h := absurd h.choose_spec.1 List.not_mem_nil

/-- Every run is consistent at its end, and every operation that has succeeded by then keeps what
it promised. -/
theorem run_consistent (gate : Gate) (users : Table String String)
    (turns : List (Turn Operation Breakdown)) :
    ((registry gate).run (vacant users) turns).state.Consistent ∧
      ∀ t ∈ ((registry gate).run (vacant users) turns).tasks, ∀ a, t.rest = .done (.ok a) →
        Promises t.origin a ((registry gate).run (vacant users) turns).state := by
  have hstart : Protocol.Sound (registry gate) discipline
      (fun op r t => ∀ a, r = .ok a → Promises op a t) (vacant users) :=
    Protocol.sound_idle (consistent_vacant users)
  have hrun := (Protocol.run_sound (fun op w _ => (run_assures op w).safe) hstart turns).1
  exact ⟨hrun.valid, fun t ht a ha => hrun.result ht ha a rfl⟩

/-- **No membership is lost.** However operations go on side by side and whichever of their
statements fail, an object whose row was made for a project is held by it, in the committed set once
the row is no longer pending, and whoever looks it up or commits it with success is told of the
project. -/
theorem membership_never_lost (gate : Gate) (users : Table String String)
    (turns : List (Turn Operation Breakdown)) (oid : String) (r : Request)
    (hr : ((registry gate).run (vacant users) turns).state.Registered oid r)
    (hrepo : r.repo ≠ "") :
    let s := (registry gate).run (vacant users) turns
    s.state.Held r.repo oid ∧
      (∃ e, s.state.row oid = some e ∧
        (e.pending = false → s.state.Holds .committed r.repo oid)) ∧
      ∀ t ∈ s.tasks, ∀ q : Request, t.origin = .get q ∨ t.origin = .commit q → q.oid = oid →
        ∀ a, t.rest = .done (.ok a) → ∃ o, a = .object o ∧ r.repo ∈ o.projects := by
  intro s
  obtain ⟨hc, hresult⟩ := run_consistent gate users turns
  obtain ⟨e, he⟩ := hc.row hr
  refine ⟨hc.held hr hrepo, ⟨e, he, fun hp => hc.committed hr hrepo ⟨e, he, hp⟩⟩, ?_⟩
  rintro t ht q ho rfl a ha
  have hpromise := hresult t ht a ha
  rcases ho with ho | ho
  · rw [ho] at hpromise
    obtain ⟨o, rfl, hn⟩ := hpromise
    exact ⟨o, rfl, hn r hr hrepo⟩
  · rw [ho] at hpromise
    obtain ⟨o, rfl, hn, -⟩ := hpromise
    exact ⟨o, rfl, hn r hr hrepo⟩

/-- A request for an object of a repository. -/
def specimen : Request :=
  { oid := "0000000000000000000000000000000000000000000000000000000000000000", size := 1, repo := "r" }

/-- A registration, a commitment and a look-up, one after another. -/
def lifetime : List (Turn Operation Breakdown) :=
  undisturbed 0 (.put specimen) 4 ++ undisturbed 1 (.commit specimen) 8 ++
    undisturbed 2 (.get specimen) 2

theorem specimen_membership_kept :
    let s := (registry .everyone).run (vacant ∅) lifetime
    s.state.Registered specimen.oid specimen ∧ specimen.repo ≠ "" ∧
      s.state.Held specimen.repo specimen.oid ∧
      (∃ e, s.state.row specimen.oid = some e ∧
        (e.pending = false → s.state.Holds .committed specimen.repo specimen.oid)) ∧
      ∀ t ∈ s.tasks, ∀ q : Request, t.origin = .get q ∨ t.origin = .commit q →
        q.oid = specimen.oid →
        ∀ a, t.rest = .done (.ok a) → ∃ o, a = .object o ∧ specimen.repo ∈ o.projects :=
  have hr : ((registry .everyone).run (vacant ∅) lifetime).state.Registered specimen.oid
      specimen := by decide +kernel
  have hrepo : specimen.repo ≠ "" := by decide
  ⟨hr, hrepo, membership_never_lost .everyone ∅ lifetime specimen.oid specimen hr hrepo⟩

/-- **A committed set may run ahead of the flag.** An object in a committed set has a row. Where the
row is still pending, a commitment of the object has added it, no statement has cleared the flag,
and of the commitments of the object, of which there is one, none has succeeded. -/
theorem committed_set_of_uncommitted (gate : Gate) (users : Table String String)
    (turns : List (Turn Operation Breakdown)) (name oid : String)
    (h : ((registry gate).run (vacant users) turns).state.Holds .committed name oid) :
    let s := (registry gate).run (vacant users) turns
    ∃ e, s.state.row oid = some e ∧
      (e.pending = true →
        s.state.Moved name oid ∧ ¬ s.state.Cleared oid ∧
        (∃ t ∈ s.tasks, ∃ r : Request, t.origin = .commit r ∧ r.oid = oid) ∧
        ∀ t ∈ s.tasks, ∀ r : Request, t.origin = .commit r → r.oid = oid →
          ∀ a, t.rest ≠ .done (.ok a)) := by
  intro s
  obtain ⟨hc, hresult⟩ := run_consistent gate users turns
  obtain ⟨⟨e, he⟩, hmoved⟩ := hc.moved h
  refine ⟨e, he, fun hp => ?_⟩
  have hnot : ¬ s.state.Flagged oid := by
    rintro ⟨e', he', hp'⟩
    obtain rfl := Option.some.inj (he.symm.trans he')
    exact absurd (hp.symm.trans hp') (by simp)
  refine ⟨hmoved, fun hcl => hnot (hc.cleared hcl), ?_, ?_⟩
  · obtain ⟨x, hx, ⟨r, hop, hoid⟩, -⟩ := hmoved
    obtain ⟨t, ht, ho⟩ := exists_task_of_mem_log hx
    exact ⟨t, ht, r, ho.trans hop, hoid⟩
  · rintro t ht r ho rfl a ha
    have hpromise := hresult t ht a ha
    rw [ho] at hpromise
    obtain ⟨-, -, -, hf⟩ := hpromise
    exact hnot hf

/-- A registration, and a commitment whose clearing of the flag fails. -/
def interrupted : List (Turn Operation Breakdown) :=
  undisturbed 0 (.put specimen) 4 ++ undisturbed 1 (.commit specimen) 5 ++
    [.call 1 (.refused (.reported "unavailable"))]

/-- A failed commitment leaves a pending object in the committed set of its project. -/
theorem interrupted_commitment_ahead :
    let s := (registry .everyone).run (vacant ∅) interrupted
    s.state.Holds .committed specimen.repo specimen.oid ∧
      s.state.row specimen.oid = some ⟨1, true⟩ := by
  decide +kernel

theorem specimen_ahead_of_flag :
    let s := (registry .everyone).run (vacant ∅) interrupted
    s.state.Holds .committed specimen.repo specimen.oid ∧
    ∃ e, s.state.row specimen.oid = some e ∧
      (e.pending = true →
        s.state.Moved specimen.repo specimen.oid ∧ ¬ s.state.Cleared specimen.oid ∧
        (∃ t ∈ s.tasks, ∃ r : Request, t.origin = .commit r ∧ r.oid = specimen.oid) ∧
        ∀ t ∈ s.tasks, ∀ r : Request, t.origin = .commit r → r.oid = specimen.oid →
          ∀ a, t.rest ≠ .done (.ok a)) :=
  have h : ((registry .everyone).run (vacant ∅) interrupted).state.Holds .committed specimen.repo
      specimen.oid := by decide +kernel
  ⟨h, committed_set_of_uncommitted .everyone ∅ interrupted specimen.repo specimen.oid h⟩

end Depot.Column
