import Depot.Proofs.Column.Action
import Depot.Proofs.Column.Membership
import Depot.Proofs.Column.Undisturbed

/-!
# Convergence of repeated requests

Copies of one commitment, or of one registration, that go on side by side from any tables, where
any statement may fail and end its copy, whether or not it took effect. Between the tables that they
begin with and those that one undisturbed copy leaves there is one way, and no statement of a copy
leaves it: `Between` for commitments, `Joining` for registrations. A copy that has succeeded knows
that the end is reached.

Headlines
* **`copies_converge`**: once a copy has succeeded the objects and projects are those that one
  undisturbed copy leaves, and a copy that is made after any number of failures succeeds and leaves
  those too.
-/

namespace Depot.Column

open Credential (Gate)
open Registry (Answer Breakdown Error Object Operation Outcome Request Storage eval eval_bind_of_ok)

/-- Copies of one operation side by side. -/
def copies (gate : Gate) (op : Operation) :
    Protocol Unit Tables Breakdown Call Call.Reply Outcome :=
  sessions (fun _ => (storage.run gate op).run) fun _ => Tables.step

/-- The tables are open, the caller may pass, and the request can be met: the object that is to be
committed has a row, what is to be registered can be an object. -/
def Admitted (gate : Gate) (t : Tables) : Operation → Prop
  | .commit r => t.closed = false ∧ gate.verdict t.users.get? r.authorization = .ok () ∧
      t.oids.contains r.oid = true
  | .put r => t.closed = false ∧ gate.verdict t.users.get? r.authorization = .ok () ∧
      r.validate = .ok ()
  | _ => False

/-- However copies of an operation go on, they leave what one undisturbed copy leaves as soon as one
of them has succeeded, and so does another one after them, which succeeds if the first could. -/
def Converges (gate : Gate) (op : Operation) (t : Tables) : Prop :=
  ∀ turns : List (Turn Unit Breakdown),
    let s := (copies gate op).run ⟨t, []⟩ turns
    let alone := storage.perform gate Tables.step t op
    let again := storage.perform gate Tables.step s.state op
    ((∃ copy ∈ s.tasks, ∃ a, copy.rest = .done (.ok a)) →
      s.state.oids = alone.2.oids ∧ s.state.projects = alone.2.projects) ∧
    (Admitted gate t op →
      (∃ a, again.1 = .ok a) ∧
        again.2.oids = alone.2.oids ∧ again.2.projects = alone.2.projects)

variable {gate : Gate} {op : Operation} {t s u : Tables} {r : Request}

/-- A way that copies keep to, at whose end they succeed, and which has one end. -/
structure Leads (gate : Gate) (op : Operation) (t : Tables) (g : Regime Tables)
    (done : Tables → Prop) : Prop where
  start : g.valid t
  safe : ∀ s, g.valid s → Keeps (fun _ => (storage.run gate op).run) (fun _ => Tables.step) g ()
    (fun _ u => done u) (storage.run gate op) s
  unique : ∀ s u, g.valid s → done s → g.valid u → done u →
    s.oids = u.oids ∧ s.projects = u.projects
  admitted : ∀ s, g.valid s → done s → Admitted gate t op
  total : Admitted gate t op → ∀ s, g.valid s →
    ∃ a, (storage.perform gate Tables.step s op).1 = .ok a

/-- Copies that keep to a way with one end converge. -/
theorem Leads.converges {g : Regime Tables} {done : Tables → Prop} (h : Leads gate op t g done) :
    Converges gate op t := by
  intro turns
  have hsound := (Protocol.run_sound (m := copies gate op) (fun _ s hv => (h.safe s hv).safe)
    (Protocol.sound_idle h.start) turns).1
  -- whoever begins on the way and succeeds reaches its end
  have hend : ∀ s, g.valid s → (∃ a, (storage.perform gate Tables.step s op).1 = .ok a) →
      g.valid (storage.perform gate Tables.step s op).2 ∧
        done (storage.perform gate Tables.step s op).2 := by
    rintro s hv ⟨a, ha⟩
    obtain ⟨hvalid, -, hpost⟩ := (h.safe s hv).safe.run hv
    exact ⟨hvalid, hpost a ha⟩
  refine ⟨?_, fun hadm => ?_⟩
  · rintro ⟨copy, hmem, a, ha⟩
    have hdone := hsound.result hmem ha a rfl
    have halone := h.total (h.admitted _ hsound.valid hdone) t h.start
    obtain ⟨hv, hd⟩ := hend t h.start halone
    exact h.unique _ _ hsound.valid hdone hv hd
  · have hagain := h.total hadm _ hsound.valid
    obtain ⟨hv, hd⟩ := hend _ hsound.valid hagain
    obtain ⟨hv', hd'⟩ := hend t h.start (h.total hadm t h.start)
    exact ⟨hagain, h.unique _ _ hv hd hv' hd'⟩

/-! ### Commitments -/

/-- On the way of commitments of an object that began with the tables `t`: everything else is as it
was, the flag may be cleared, and what was in a pending set is there or in the committed one. -/
structure Between (t : Tables) (oid : String) (s : Tables) : Prop where
  closed : s.closed = t.closed
  users : s.users = t.users
  project : ∀ name, s.projects.contains name = t.projects.contains name
  other : ∀ x, x ≠ oid → s.oids.get? x = t.oids.get? x
  row : s.oids.get? oid = t.oids.get? oid ∨
    s.oids.get? oid = (t.oids.get? oid).map fun e => { e with pending := false }
  apart : ∀ m name x, x ≠ oid → (s.holds m name x = true ↔ t.holds m name x = true)
  pending : ∀ name, s.holds .pending name oid = true → t.holds .pending name oid = true
  moved : ∀ name, t.holds .pending name oid = true →
    s.holds .pending name oid = true ∨ s.holds .committed name oid = true
  committed : ∀ name, s.holds .committed name oid = true →
    t.holds .committed name oid = true ∨ t.holds .pending name oid = true
  kept : ∀ name, t.holds .committed name oid = true → s.holds .committed name oid = true

/-- How far commitments of an object have come. -/
structure Advances (oid : String) (s u : Tables) : Prop where
  flag : (∀ e, s.oids.get? oid = some e → e.pending = false) →
    ∀ e, u.oids.get? oid = some e → e.pending = false
  pending : ∀ name, u.holds .pending name oid = true → s.holds .pending name oid = true
  committed : ∀ name, s.holds .committed name oid = true → u.holds .committed name oid = true

/-- The way of commitments. -/
def promotion (t : Tables) (oid : String) : Regime Tables where
  valid := Between t oid
  grows := Advances oid
  refl _ := ⟨id, fun _ => id, fun _ => id⟩
  trans h k := ⟨k.flag ∘ h.flag, fun name => h.pending name ∘ k.pending name,
    fun name => k.committed name ∘ h.committed name⟩

/-- The statements that a commitment makes. -/
def Promotes (t : Tables) (oid : String) (s : Tables) : Call → Prop
  | .addProjectOid name x m => m = .committed ∧ x = oid ∧ t.holds .pending name oid = true
  | .removePendingProjectOid name x => x = oid ∧ s.holds .committed name oid = true
  | .markOidCommitted x => x = oid
  | .findOid _ | .projectsWithOid _ _ | .findUser _ => True
  | _ => False

/-- A commitment has reached the end of the way. -/
structure Committed (oid : String) (s : Tables) : Prop where
  flag : ∀ e, s.oids.get? oid = some e → e.pending = false
  pending : ∀ name, ¬ s.holds .pending name oid = true

section

variable {oid name : String}

theorem add_promotes (h : s.closed = false) (hs : Between t oid s)
    (hp : t.holds .pending name oid = true) :
    Between t oid (s.answer (.addProjectOid name oid .committed)).2 ∧
      Advances oid s (s.answer (.addProjectOid name oid .committed)).2 := by
  have hb := enrols_becomes h (c := .addProjectOid name oid .committed) trivial
  have hproject : s.projects.contains name = true := by
    rw [hs.project]
    exact Tables.contains_of_holds hp
  have hkeep : ∀ m x y, s.holds m x y = true →
      (s.answer (.addProjectOid name oid .committed)).2.holds m x y = true := by
    intro m x y hk
    rw [hb.holds]
    exact Or.inr ⟨hk, fun hx => absurd hx.1 (by simp)⟩
  have hnew : ∀ m x y, (s.answer (.addProjectOid name oid .committed)).2.holds m x y = true →
      s.holds m x y = true ∨ (x = name ∧ y = oid ∧ m = .committed) := by
    intro m x y hk
    rw [hb.holds] at hk
    rcases hk with hk | hk
    · cases hk
      exact Or.inr ⟨rfl, rfl, rfl⟩
    · exact Or.inl hk.1
  refine ⟨⟨hb.closed.trans hs.closed, hb.users.trans hs.users, fun x => ?_, fun x hx => ?_, ?_,
    fun m x y hy => ?_, fun x hx => ?_, fun x hx => ?_, fun x hx => ?_, fun x hx => ?_⟩,
    ⟨fun hf e he => hf e ?_, fun x hx => ?_, fun x hx => hkeep _ _ _ hx⟩⟩
  · rw [← hs.project, Bool.eq_iff_iff, hb.project]
    refine ⟨?_, Or.inr⟩
    rintro ((hk | ⟨_, _, hk⟩) | hk)
    · exact absurd hk (by simp)
    · cases hk
      exact hproject
    · exact hk
  · rw [hb.row]
    exact hs.other x hx
  · rw [hb.row]
    exact hs.row
  · rw [← hs.apart m x y hy]
    exact ⟨fun hk => (hnew m x y hk).resolve_right fun hn => hy hn.2.1, hkeep m x y⟩
  · exact hs.pending x ((hnew _ _ _ hx).resolve_right fun hn => absurd hn.2.2 (by simp))
  · exact (hs.moved x hx).imp (hkeep _ _ _) (hkeep _ _ _)
  · rcases hnew _ _ _ hx with hk | ⟨rfl, -, -⟩
    · exact hs.committed x hk
    · exact Or.inr hp
  · exact hkeep _ _ _ (hs.kept x hx)
  · rw [← he, hb.row]
  · exact (hnew _ _ _ hx).resolve_right fun hn => absurd hn.2.2 (by simp)

theorem remove_promotes (h : s.closed = false) (hs : Between t oid s)
    (hp : s.holds .committed name oid = true) :
    Between t oid (s.answer (.removePendingProjectOid name oid)).2 ∧
      Advances oid s (s.answer (.removePendingProjectOid name oid)).2 := by
  have hb := enrols_becomes h (c := .removePendingProjectOid name oid) trivial
  have hiff : ∀ m x y, (s.answer (.removePendingProjectOid name oid)).2.holds m x y = true ↔
      s.holds m x y = true ∧ ¬ (x = name ∧ y = oid ∧ m = .pending) := by
    intro m x y
    rw [hb.holds]
    simp [@eq_comm _ name x, @eq_comm _ oid y]
  refine ⟨⟨hb.closed.trans hs.closed, hb.users.trans hs.users, fun x => ?_, fun x hx => ?_, ?_,
    fun m x y hy => ?_, fun x hx => ?_, fun x hx => ?_, fun x hx => ?_, fun x hx => ?_⟩,
    ⟨fun hf e he => hf e ?_, fun x hx => ((hiff _ _ _).mp hx).1, fun x hx => ?_⟩⟩
  · rw [← hs.project, Bool.eq_iff_iff, hb.project]
    simp
  · rw [hb.row]
    exact hs.other x hx
  · rw [hb.row]
    exact hs.row
  · rw [← hs.apart m x y hy, hiff]
    exact and_iff_left fun hn => hy hn.2.1
  · exact hs.pending x ((hiff _ _ _).mp hx).1
  · rcases hs.moved x hx with hk | hk
    · by_cases hn : x = name
      · subst hn
        exact Or.inr ((hiff _ _ _).mpr ⟨hp, by simp⟩)
      · exact Or.inl ((hiff _ _ _).mpr ⟨hk, fun hx => hn hx.1⟩)
    · exact Or.inr ((hiff _ _ _).mpr ⟨hk, by simp⟩)
  · exact hs.committed x ((hiff _ _ _).mp hx).1
  · exact (hiff _ _ _).mpr ⟨hs.kept x hx, by simp⟩
  · rw [← he, hb.row]
  · exact (hiff _ _ _).mpr ⟨hx, by simp⟩

theorem mark_promotes (hs : Between t oid s) :
    Between t oid (s.answer (.markOidCommitted oid)).2 ∧
      Advances oid s (s.answer (.markOidCommitted oid)).2 := by
  have hb := markOidCommitted_becomes s oid
  refine ⟨⟨hb.closed.trans hs.closed, hb.users.trans hs.users, hs.project, fun x hx => ?_, ?_,
    hs.apart, hs.pending, hs.moved, hs.committed, hs.kept⟩, ⟨fun _ e he => ?_, fun _ => id, fun _ => id⟩⟩
  · rw [hb.row, if_neg hx]
    exact hs.other x hx
  · rw [hb.row, if_pos rfl]
    rcases hs.row with hr | hr
    · exact Or.inr (by rw [hr])
    · refine Or.inr ?_
      rw [hr]
      cases t.oids.get? oid <;> rfl
  · rw [hb.row, if_pos rfl] at he
    obtain ⟨e', -, rfl⟩ := Option.map_eq_some_iff.mp he
    rfl

end

/-- **No statement of a commitment leaves the way.** -/
theorem step_promotes {oid : String} {c : Call} (hs : Between t oid s) (hc : Promotes t oid s c) :
    Between t oid (s.step c).2 ∧ Advances oid s (s.step c).2 := by
  have hstay : Between t oid s ∧ Advances oid s s := ⟨hs, (promotion t oid).refl s⟩
  cases hclosed : s.closed with
  | true =>
    rw [Tables.step_tables_of_closed hclosed]
    exact hstay
  | false =>
    rw [Tables.step_of_open hclosed]
    cases c with
    | addProjectOid name x m =>
      obtain ⟨rfl, rfl, hp⟩ := hc
      exact add_promotes hclosed hs hp
    | removePendingProjectOid name x =>
      obtain ⟨rfl, hp⟩ := hc
      exact remove_promotes hclosed hs hp
    | markOidCommitted x =>
      obtain rfl := hc
      exact mark_promotes hs
    | findOid x => exact hstay
    | projectsWithOid x m => exact hstay
    | findUser name => exact hstay
    | _ => exact hc.elim

/-- An action of a copy keeps to a way. -/
abbrev Follows (gate : Gate) (op : Operation) (g : Regime Tables) {β : Type}
    (post : β → Tables → Prop) (x : Action β) (s : Tables) : Prop :=
  Keeps (fun _ : Unit => (storage.run gate op).run) (fun _ => Tables.step) g () post x s

section

variable {oid : String} {β : Type} {post : β → Tables → Prop}

theorem Committed.later (h : Committed oid s) (hg : Advances oid s u) : Committed oid u :=
  ⟨hg.flag h.flag, fun name hk => h.pending name (hg.pending name hk)⟩

theorem promotes_bind {c : Call} {f : c.Answer → Action β} (hc : c ≠ .close)
    (h : ∀ u, Between t oid u → Advances oid s u → Promotes t oid u c)
    (hf : ∀ u, Between t oid u → Advances oid s u → u.closed = false →
      Follows gate op (promotion t oid) post (f (u.answer c).1) (u.answer c).2) :
    Follows gate op (promotion t oid) post (statement c >>= f) s := by
  refine Keeps.permitted_bind (fun u c hv hp => ?_) h fun u a hv hu ha => ?_
  · exact step_promotes hv hp
  · obtain ⟨hopen, rfl⟩ := Tables.open_of_step_ok hc ha
    rw [Tables.step_of_open hopen]
    exact hf u hv hu hopen

theorem Between.contains_iff (h : Between t oid s) :
    s.oids.contains oid = true ↔ t.oids.contains oid = true := by
  unfold Table.contains
  rcases h.row with hr | hr <;> rw [hr]
  rw [Option.isSome_map]

/-- What is found has a row, and has had it from the start. -/
theorem findObject_promotes :
    Follows gate op (promotion t oid)
      (fun found _ => ∀ o, found = some o → t.closed = false ∧ t.oids.contains oid = true)
      (findObject oid) s := by
  unfold findObject
  refine promotes_bind (by simp) (fun _ _ _ => trivial) fun u hu _ hopen => ?_
  cases hrow : u.oids.get? oid with
  | none =>
    simp only [Tables.answer, hrow, Option.map_none]
    exact Keeps.pure fun _ _ _ _ h => absurd h (by simp)
  | some e =>
    simp only [Tables.answer, hrow, Option.map_some]
    refine promotes_bind (by simp) (fun _ _ _ => trivial) fun v _ _ _ => ?_
    refine Keeps.pure fun _ _ _ _ _ => ⟨hu.closed.symm.trans hopen, hu.contains_iff.mp ?_⟩
    unfold Table.contains
    rw [hrow]
    rfl

/-- After the moves of a commitment the object is in none of the pending sets any more. -/
theorem promote_promotes :
    ∀ (names : List String) {s : Tables},
      (∀ name ∈ names, t.holds .pending name oid = true) →
      Follows gate op (promotion t oid)
        (fun _ u => ∀ name ∈ names, ¬ u.holds .pending name oid = true) (promote oid names) s
  | [], _, _ => Keeps.pure fun _ _ _ _ h => absurd h List.not_mem_nil
  | name :: rest, s, hnames => by
    have hname := hnames name List.mem_cons_self
    refine promotes_bind (by simp) (fun _ _ _ => ⟨rfl, rfl, hname⟩) fun u _ _ hopen => ?_
    have hadded : (u.answer (.addProjectOid name oid .committed)).2.holds .committed name oid
        = true := by
      rw [(enrols_becomes hopen (c := .addProjectOid name oid .committed) trivial).holds]
      exact Or.inl rfl
    refine promotes_bind (by simp) (fun v _ hv => ⟨rfl, hv.committed name hadded⟩) ?_
    intro v _ _ hopen'
    have hremoved : ¬ (v.answer (.removePendingProjectOid name oid)).2.holds .pending name oid
        = true := by
      rw [(enrols_becomes hopen' (c := .removePendingProjectOid name oid) trivial).holds]
      simp
    refine Keeps.weaken (Keeps.remember (promote_promotes rest fun x hx => ?_)) ?_
    · exact hnames x (List.mem_cons_of_mem name hx)
    intro _ w _ ⟨hw, hg⟩ x hx
    rcases List.mem_cons.mp hx with rfl | hx
    · exact fun hk => hremoved (hg.pending x hk)
    · exact hw x hx

theorem commit_promotes :
    Follows gate op (promotion t oid)
      (fun found u => ∀ o, found = some o →
        (t.closed = false ∧ t.oids.contains oid = true) ∧ Committed oid u)
      (commit oid) s := by
  unfold commit
  refine Keeps.bind findObject_promotes fun found u _ _ hfound => ?_
  cases found with
  | none => exact Keeps.pure fun _ _ _ _ h => absurd h (by simp)
  | some o =>
    have hpresent := hfound o rfl
    refine promotes_bind (by simp) (fun _ _ _ => trivial) fun v hv _ _ => ?_
    have hlist : ∀ name, name ∈ (v.answer (.projectsWithOid oid .pending)).1 ↔
        v.holds .pending name oid = true := fun name => Tables.mem_projectsWithOid
    have hmoves : Follows gate op (promotion t oid)
        (fun _ u => ∀ name ∈ (v.answer (.projectsWithOid oid .pending)).1,
          ¬ u.holds .pending name oid = true)
        (promote oid (v.answer (.projectsWithOid oid .pending)).1) v :=
      promote_promotes _ fun name hn => hv.pending name ((hlist name).mp hn)
    refine Keeps.bind hmoves fun _ w _ hgw hw => ?_
    -- what was not in the list read was in no pending set at that time
    have hempty : ∀ name, ¬ w.holds .pending name oid = true := fun name hk =>
      hw name ((hlist name).mpr (hgw.pending name hk)) hk
    refine promotes_bind (by simp) (fun _ _ _ => rfl) fun x _ hgx hopen => ?_
    have hdone : Committed oid (x.answer (.markOidCommitted oid)).2 := by
      refine ⟨fun e he => ?_, fun name hk => hempty name (hgx.pending name hk)⟩
      rw [(markOidCommitted_becomes x oid).row, if_pos rfl] at he
      obtain ⟨e', -, rfl⟩ := Option.map_eq_some_iff.mp he
      rfl
    refine Keeps.weaken (Keeps.remember findObject_promotes) ?_
    intro found y _ ⟨_, hgy⟩ o' _
    exact ⟨hpresent, hdone.later hgy⟩

/-- The way has one end: by then the flag is cleared and all that was pending is committed. -/
theorem Between.views_of_committed (hs : Between t oid s) (hd : Committed oid s) :
    (∀ x, s.oids.get? x =
      if x = oid then (t.oids.get? x).map fun e => { e with pending := false }
      else t.oids.get? x) ∧
    ∀ m name x, s.holds m name x = true ↔
      if x = oid then
        m = .committed ∧ (t.holds .committed name x = true ∨ t.holds .pending name x = true)
      else t.holds m name x = true := by
  refine ⟨fun x => ?_, fun m name x => ?_⟩
  · by_cases hx : x = oid
    · subst hx
      rw [if_pos rfl]
      rcases hs.row with hr | hr
      · cases hrow : t.oids.get? x with
        | none => rw [hr, hrow]; rfl
        | some e =>
          have hp := hd.flag e (hr.trans hrow)
          rw [hr, hrow]
          obtain ⟨size, pending⟩ := e
          obtain rfl : pending = false := hp
          rfl
      · exact hr
    · rw [if_neg hx]
      exact hs.other x hx
  · by_cases hx : x = oid
    · subst hx
      rw [if_pos rfl]
      cases m with
      | pending =>
        refine ⟨fun hk => absurd hk (hd.pending name), fun hk => absurd hk.1 (by simp)⟩
      | committed =>
        refine ⟨fun hk => ⟨rfl, hs.committed name hk⟩, ?_⟩
        rintro ⟨-, hk | hk⟩
        · exact hs.kept name hk
        · exact (hs.moved name hk).resolve_left (hd.pending name)
    · rw [if_neg hx]
      exact hs.apart m name x hx

theorem Between.unique (hs : Between t oid s) (hds : Committed oid s) (hu : Between t oid u)
    (hdu : Committed oid u) : s.oids = u.oids ∧ s.projects = u.projects := by
  obtain ⟨hrow, hholds⟩ := hs.views_of_committed hds
  obtain ⟨hrow', hholds'⟩ := hu.views_of_committed hdu
  refine Tables.ext_views (fun x => ?_) (fun name => ?_) fun m name x => ?_
  · rw [hrow, hrow']
  · rw [hs.project, hu.project]
  · rw [Bool.eq_iff_iff, hholds, hholds']

/-- A commitment of a row on open tables by a caller who may pass succeeds. -/
theorem perform_commit_ok (hs : s.closed = false)
    (hpass : gate.verdict s.users.get? r.authorization = .ok ())
    (hrow : s.oids.contains r.oid = true) :
    ∃ a, (storage.perform gate Tables.step s (.commit r)).1 = .ok a := by
  obtain ⟨e, he⟩ := Option.isSome_iff_exists.mp hrow
  obtain ⟨u, hu, hb⟩ := commit_eval hs he
  have hauth := authorize_eval hs gate r
  rw [hpass] at hauth
  have hrow' : u.oids.get? r.oid = some { e with pending := false } := by
    rw [hb.row, if_pos rfl]
  obtain ⟨o, ho⟩ : ∃ o, u.found r.oid = some o := ⟨_, found_of_some hrow'⟩
  rw [ho] at hu
  have hcommit : eval Tables.step (storage.commitObject gate r) s = (.ok o, u) := by
    unfold Storage.commitObject
    rw [eval_bind_of_ok hauth]
    exact eval_bind_of_ok hu
  exact ⟨.object o, congrArg Prod.fst (eval_bind_of_ok hcommit)⟩

/-- Where the users stay as they are, a caller who passes could have passed from the start. -/
theorem authorize_follows {g : Regime Tables} (husers : ∀ u, g.valid u → u.users = t.users) :
    Follows gate op g (fun _ _ => gate.verdict t.users.get? r.authorization = .ok ())
      (storage.authorize gate r) s := by
  refine Keeps.weaken (Keeps.authorize gate r (fun u => u.users.get?) ?_) ?_
  · intro user u hv _
    have hstay : (u.step (.findUser user)).2 = u := by
      unfold Tables.step
      split <;> rfl
    rw [hstay]
    refine ⟨hv, g.refl u, fun found hf => ?_⟩
    obtain ⟨-, rfl⟩ := Tables.open_of_step_ok (by simp) hf
    rfl
  · rintro _ _ _ ⟨u, hv, hpass⟩
    rw [husers u hv] at hpass
    exact hpass

theorem require_follows {g : Regime Tables} {oid : String} {found : Option Object}
    {post : Object → Tables → Prop}
    (h : ∀ o, found = some o → ∀ u, g.valid u → g.grows s u → post o u) :
    Follows gate op g post (Storage.require oid found) s := by
  cases found with
  | none => exact Keeps.throw _
  | some o => exact Keeps.pure (h o rfl)

theorem commit_leads (gate : Gate) (r : Request) (t : Tables) :
    Leads gate (.commit r) t (promotion t r.oid)
      (fun s => Admitted gate t (.commit r) ∧ Committed r.oid s) where
  start := ⟨rfl, rfl, fun _ => rfl, fun _ _ => rfl, Or.inl rfl, fun _ _ _ _ => Iff.rfl,
    fun _ => id, fun _ => Or.inl, fun _ => Or.inl, fun _ => id⟩
  safe s _ := by
    have hcommit : Follows gate (.commit r) (promotion t r.oid)
        (fun _ u => Admitted gate t (.commit r) ∧ Committed r.oid u)
        (storage.commitObject gate r) s := by
      refine Keeps.bind (authorize_follows fun u hu => hu.users) fun _ u _ _ hpass => ?_
      refine Keeps.bind commit_promotes fun found v _ _ hfound => ?_
      refine require_follows fun o ho w _ hg => ?_
      obtain ⟨⟨hopen, hrow⟩, hdone⟩ := hfound o ho
      exact ⟨⟨hopen, hpass, hrow⟩, hdone.later hg⟩
    exact Keeps.bind hcommit fun _ u _ _ hu => Keeps.pure fun v _ hg => ⟨hu.1, hu.2.later hg⟩
  unique s u hs hds hu hdu := hs.unique hds.2 hu hdu.2
  admitted _ _ hd := hd.1
  total hadm s hs := by
    obtain ⟨hopen, hpass, hrow⟩ := hadm
    refine perform_commit_ok (hs.closed.trans hopen) ?_ (hs.contains_iff.mpr hrow)
    rw [hs.users]
    exact hpass

end

/-! ### Registrations -/

/-- On the way of registrations of a new object that began with the tables `t`: everything else is
as it was, and the row comes after the memberships. -/
structure Joining (t : Tables) (r : Request) (s : Tables) : Prop where
  closed : s.closed = t.closed
  users : s.users = t.users
  other : ∀ x, x ≠ r.oid → s.oids.get? x = t.oids.get? x
  row : s.oids.get? r.oid = none ∨ s.oids.get? r.oid = some ⟨r.size, true⟩
  project : ∀ name, s.projects.contains name = true →
    name ∈ r.projects ∨ t.projects.contains name = true
  listed : ∀ name, t.projects.contains name = true → s.projects.contains name = true
  holds : ∀ m name x, s.holds m name x = true →
    (m = .pending ∧ x = r.oid ∧ name ∈ r.projects) ∨ t.holds m name x = true
  held : ∀ m name x, t.holds m name x = true → s.holds m name x = true
  joined : s.oids.get? r.oid ≠ none → ∀ name ∈ r.projects, s.holds .pending name r.oid = true

/-- How far registrations of an object have come. -/
structure Enters (oid : String) (s u : Tables) : Prop where
  row : s.oids.get? oid ≠ none → u.oids.get? oid ≠ none
  held : ∀ name, s.holds .pending name oid = true → u.holds .pending name oid = true

/-- The way of registrations. -/
def admission (t : Tables) (r : Request) : Regime Tables where
  valid := Joining t r
  grows := Enters r.oid
  refl _ := ⟨id, fun _ => id⟩
  trans h k := ⟨k.row ∘ h.row, fun name => k.held name ∘ h.held name⟩

/-- The statements that a registration makes. -/
def Joins (r : Request) (s : Tables) : Call → Prop
  | .ensureProject name => name ∈ r.projects
  | .addProjectOid name x m => m = .pending ∧ x = r.oid ∧ name ∈ r.projects
  | .insertPendingOid x size => x = r.oid ∧ size = r.size ∧
      ∀ name ∈ r.projects, s.holds .pending name r.oid = true
  | .findOid _ | .projectsWithOid _ _ | .findUser _ => True
  | _ => False

/-- A statement about a project of the registration. -/
theorem enrol_joins {c : Call} (h : s.closed = false) (hs : Joining t r s) (hc : Enrols c)
    (hj : Joins r s c) :
    Joining t r (s.answer c).2 ∧ Enters r.oid s (s.answer c).2 := by
  have hb := enrols_becomes h hc
  have hkeep : ∀ m name x, s.holds m name x = true → (s.answer c).2.holds m name x = true := by
    intro m name x hk
    rw [hb.holds]
    refine Or.inr ⟨hk, ?_⟩
    rintro ⟨rfl, -⟩
    exact hj
  have hrow : (s.answer c).2.oids.get? r.oid = s.oids.get? r.oid := hb.row r.oid
  refine ⟨⟨hb.closed.trans hs.closed, hb.users.trans hs.users, fun x hx => ?_, ?_, fun name hk => ?_,
    fun name hk => ?_, fun m name x hk => ?_, fun m name x hk => hkeep _ _ _ (hs.held _ _ _ hk),
    fun hne name hn => ?_⟩, ⟨fun hne => ?_, fun name hk => hkeep _ _ _ hk⟩⟩
  · rw [hb.row]
    exact hs.other x hx
  · rw [hrow]
    exact hs.row
  · rcases (hb.project name).mp hk with (rfl | ⟨x, m, rfl⟩) | hk
    · exact Or.inl hj
    · exact Or.inl hj.2.2
    · exact hs.project name hk
  · rw [hb.project]
    exact Or.inr (hs.listed name hk)
  · rcases (hb.holds m name x).mp hk with rfl | hk
    · exact Or.inl hj
    · exact hs.holds m name x hk.1
  · rw [hrow] at hne
    exact hkeep _ _ _ (hs.joined hne name hn)
  · rw [hrow]
    exact hne

/-- The row comes after the memberships. -/
theorem insert_joins (hs : Joining t r s)
    (hj : ∀ name ∈ r.projects, s.holds .pending name r.oid = true) :
    Joining t r (s.answer (.insertPendingOid r.oid r.size)).2 ∧
      Enters r.oid s (s.answer (.insertPendingOid r.oid r.size)).2 := by
  have hstay : Joining t r s ∧ Enters r.oid s s := ⟨hs, (admission t r).refl s⟩
  simp only [Tables.answer]
  split
  · exact hstay
  · refine ⟨⟨hs.closed, hs.users, fun x hx => ?_, Or.inr ?_, hs.project, hs.listed, hs.holds, hs.held,
      fun _ => hj⟩, ⟨fun _ => ?_, fun _ => id⟩⟩
    · rw [Table.get?_insert, if_neg hx]
      exact hs.other x hx
    · rw [Table.get?_insert, if_pos rfl]
    · rw [Table.get?_insert, if_pos rfl]
      simp

/-- **No statement of a registration leaves the way.** -/
theorem step_joins {c : Call} (hs : Joining t r s) (hc : Joins r s c) :
    Joining t r (s.step c).2 ∧ Enters r.oid s (s.step c).2 := by
  have hstay : Joining t r s ∧ Enters r.oid s s := ⟨hs, (admission t r).refl s⟩
  cases hclosed : s.closed with
  | true =>
    rw [Tables.step_tables_of_closed hclosed]
    exact hstay
  | false =>
    rw [Tables.step_of_open hclosed]
    cases c with
    | ensureProject name => exact enrol_joins hclosed hs trivial hc
    | addProjectOid name x m => exact enrol_joins hclosed hs trivial hc
    | insertPendingOid x size =>
      obtain ⟨rfl, rfl, hj⟩ := hc
      exact insert_joins hs hj
    | findOid x => exact hstay
    | projectsWithOid x m => exact hstay
    | findUser name => exact hstay
    | _ => exact hc.elim

section

variable {β : Type} {post : β → Tables → Prop}

theorem joins_bind {c : Call} {f : c.Answer → Action β} (hc : c ≠ .close)
    (h : ∀ u, Joining t r u → Enters r.oid s u → Joins r u c)
    (hf : ∀ u, Joining t r u → Enters r.oid s u → u.closed = false →
      Follows gate op (admission t r) post (f (u.answer c).1) (u.answer c).2) :
    Follows gate op (admission t r) post (statement c >>= f) s := by
  refine Keeps.permitted_bind (fun u c hv hp => ?_) h fun u a hv hu ha => ?_
  · exact step_joins hv hp
  · obtain ⟨hopen, rfl⟩ := Tables.open_of_step_ok hc ha
    rw [Tables.step_of_open hopen]
    exact hf u hv hu hopen

theorem findObject_joins :
    Follows gate op (admission t r)
      (fun found u => ∀ o, found = some o → t.closed = false ∧ u.oids.get? r.oid ≠ none)
      (findObject r.oid) s := by
  unfold findObject
  refine joins_bind (by simp) (fun _ _ _ => trivial) fun u hu _ hopen => ?_
  cases hrow : u.oids.get? r.oid with
  | none =>
    simp only [Tables.answer, hrow, Option.map_none]
    exact Keeps.pure fun _ _ _ _ h => absurd h (by simp)
  | some e =>
    simp only [Tables.answer, hrow, Option.map_some]
    have hne : u.oids.get? r.oid ≠ none := by simp [hrow]
    refine joins_bind (by simp) (fun _ _ _ => trivial) fun v _ hgv _ => ?_
    exact Keeps.pure fun w _ hgw _ _ => ⟨hu.closed.symm.trans hopen, hgw.row (hgv.row hne)⟩

theorem addPending_joins :
    ∀ (names : List String) {s : Tables}, (∀ name ∈ names, name ∈ r.projects) →
      Follows gate op (admission t r)
        (fun _ u => ∀ name ∈ names, u.holds .pending name r.oid = true) (addPending r.oid names) s
  | [], _, _ => Keeps.pure fun _ _ _ _ h => absurd h List.not_mem_nil
  | name :: rest, s, hnames => by
    have hname := hnames name List.mem_cons_self
    refine joins_bind (by simp) (fun _ _ _ => hname) fun u _ _ _ => ?_
    refine joins_bind (by simp) (fun _ _ _ => ⟨rfl, rfl, hname⟩) fun v _ _ hopen => ?_
    have hadded : (v.answer (.addProjectOid name r.oid .pending)).2.holds .pending name r.oid
        = true := by
      rw [(enrols_becomes hopen (c := .addProjectOid name r.oid .pending) trivial).holds]
      exact Or.inl rfl
    refine Keeps.weaken (Keeps.remember (addPending_joins rest fun x hx => ?_)) ?_
    · exact hnames x (List.mem_cons_of_mem name hx)
    · intro _ w _ ⟨hw, hg⟩ x hx
      rcases List.mem_cons.mp hx with rfl | hx
      · exact hg.held x hadded
      · exact hw x hx

theorem register_joins :
    Follows gate op (admission t r)
      (fun found u => ∀ o, found = some o → t.closed = false ∧ u.oids.get? r.oid ≠ none)
      (register r) s := by
  unfold register
  refine Keeps.bind findObject_joins fun found u _ _ hfound => ?_
  cases found with
  | some o =>
    exact Keeps.pure fun v _ hg _ _ => ⟨(hfound o rfl).1, hg.row (hfound o rfl).2⟩
  | none =>
    refine Keeps.bind (addPending_joins r.projects fun _ => id) fun _ v _ _ hheld => ?_
    refine joins_bind (by simp) ?_ fun w hw _ hopen => ?_
    · exact fun w _ hg => ⟨rfl, rfl, fun name hn => hg.held name (hheld name hn)⟩
    · have hne : (w.answer (.insertPendingOid r.oid r.size)).2.oids.get? r.oid ≠ none := by
        rw [Tables.get?_oids_answer]
        cases hrow : w.oids.get? r.oid <;> simp
      split
      · exact Keeps.pure fun x _ hg _ _ => ⟨hw.closed.symm.trans hopen, hg.row hne⟩
      · exact findObject_joins

/-- The way has one end: the object has its row and its memberships. -/
theorem Joining.unique (hs : Joining t r s) (hds : s.oids.get? r.oid ≠ none) (hu : Joining t r u)
    (hdu : u.oids.get? r.oid ≠ none) : s.oids = u.oids ∧ s.projects = u.projects := by
  have hproject : ∀ {v : Tables}, Joining t r v → v.oids.get? r.oid ≠ none → ∀ name,
      v.projects.contains name = true ↔ name ∈ r.projects ∨ t.projects.contains name = true := by
    intro v hv hd name
    refine ⟨hv.project name, ?_⟩
    rintro (hn | hk)
    · exact Tables.contains_of_holds (hv.joined hd name hn)
    · exact hv.listed name hk
  have hholds : ∀ {v : Tables}, Joining t r v → v.oids.get? r.oid ≠ none → ∀ m name x,
      v.holds m name x = true ↔
        (m = .pending ∧ x = r.oid ∧ name ∈ r.projects) ∨ t.holds m name x = true := by
    intro v hv hd m name x
    refine ⟨hv.holds m name x, ?_⟩
    rintro (⟨rfl, rfl, hn⟩ | hk)
    · exact hv.joined hd name hn
    · exact hv.held m name x hk
  refine Tables.ext_views (fun x => ?_) (fun name => ?_) fun m name x => ?_
  · by_cases hx : x = r.oid
    · subst hx
      rw [hs.row.resolve_left hds, hu.row.resolve_left hdu]
    · rw [hs.other x hx, hu.other x hx]
  · rw [Bool.eq_iff_iff, hproject hs hds, hproject hu hdu]
  · rw [Bool.eq_iff_iff, hholds hs hds, hholds hu hdu]

/-- A registration on open tables by a caller who may pass succeeds, if it makes sense. -/
theorem perform_put_ok (hs : s.closed = false)
    (hpass : gate.verdict s.users.get? r.authorization = .ok ()) (hvalid : r.validate = .ok ()) :
    ∃ a, (storage.perform gate Tables.step s (.put r)).1 = .ok a := by
  have hregister : ∃ o u, eval Tables.step (register r) s = (.ok (some o), u) := by
    cases he : s.oids.get? r.oid with
    | none =>
      obtain ⟨u, hu, -⟩ := register_eval hs he
      exact ⟨_, u, hu⟩
    | some e =>
      have hu := register_eval_of_some hs he
      rw [found_of_some he] at hu
      exact ⟨_, s, hu⟩
  obtain ⟨o, u, hu⟩ := hregister
  have hauth := authorize_eval hs gate r
  rw [hpass] at hauth
  have hput : eval Tables.step (storage.put gate r) s = (.ok o, u) := by
    unfold Storage.put
    rw [eval_bind_of_ok hauth, hvalid]
    show eval Tables.step (storage.register r >>= _) s = _
    exact eval_bind_of_ok hu
  exact ⟨.object o, congrArg Prod.fst (eval_bind_of_ok hput)⟩

theorem put_leads (gate : Gate) {r : Request} {t : Tables} (hnone : t.oids.get? r.oid = none) :
    Leads gate (.put r) t (admission t r)
      (fun s => Admitted gate t (.put r) ∧ s.oids.get? r.oid ≠ none) where
  start := ⟨rfl, rfl, fun _ _ => rfl, Or.inl hnone, fun _ => Or.inr, fun _ => id,
    fun _ _ _ => Or.inr, fun _ _ _ => id, fun h => absurd hnone h⟩
  safe s _ := by
    have hput : Follows gate (.put r) (admission t r)
        (fun _ u => Admitted gate t (.put r) ∧ u.oids.get? r.oid ≠ none)
        (storage.put gate r) s := by
      refine Keeps.bind (authorize_follows fun u hu => hu.users) fun _ u _ _ hpass => ?_
      have hlift : Follows gate (.put r) (admission t r) (fun _ _ => r.validate = .ok ())
          (liftM r.validate) u := Keeps.lift fun _ h _ _ _ => h
      refine Keeps.bind hlift fun _ v _ _ hvalid => ?_
      refine Keeps.bind register_joins fun found w _ _ hfound => ?_
      refine require_follows fun o ho x _ hg => ?_
      obtain ⟨hopen, hrow⟩ := hfound o ho
      exact ⟨⟨hopen, hpass, hvalid⟩, hg.row hrow⟩
    exact Keeps.bind hput fun _ u _ _ hu => Keeps.pure fun v _ hg => ⟨hu.1, hg.row hu.2⟩
  unique s u hs hds hu hdu := hs.unique hds.2 hu hdu.2
  admitted _ _ hd := hd.1
  total hadm s hs := by
    obtain ⟨hopen, hpass, hvalid⟩ := hadm
    refine perform_put_ok (hs.closed.trans hopen) ?_ hvalid
    rw [hs.users]
    exact hpass

/-- Nothing changes. -/
def standstill (t : Tables) : Regime Tables where
  valid s := s = t
  grows _ _ := True
  refl _ := trivial
  trans _ _ := trivial

theorem findObject_still {oid : String} {e : OidEntry} (he : t.oids.get? oid = some e) :
    Follows gate op (standstill t)
      (fun found _ => t.closed = false ∧ ∃ o, found = some o) (findObject oid) s := by
  unfold findObject
  refine Keeps.statement_bind fun u hu _ => ?_
  obtain rfl : u = t := hu
  have hread : ∀ x, (u.step (.findOid x)).2 = u := by
    intro x
    unfold Tables.step
    split <;> rfl
  refine ⟨hread _, trivial, fun a ha => ?_⟩
  obtain ⟨hopen, rfl⟩ := Tables.open_of_step_ok (by simp) ha
  simp only [Tables.answer, he, Option.map_some]
  refine Keeps.statement_bind fun v hv _ => ?_
  obtain rfl : v = u := hv
  have hlist : ∀ m, (v.step (.projectsWithOid oid m)).2 = v := by
    intro m
    unfold Tables.step
    split <;> rfl
  exact ⟨hlist _, trivial, fun _ _ => Keeps.pure fun _ _ _ => ⟨hopen, _, rfl⟩⟩

/-- A registration of an object that has a row changes nothing. -/
theorem put_leads_of_some (gate : Gate) {r : Request} {t : Tables} {e : OidEntry}
    (he : t.oids.get? r.oid = some e) :
    Leads gate (.put r) t (standstill t) (fun _ => Admitted gate t (.put r)) where
  start := rfl
  safe s _ := by
    have hput : Follows gate (.put r) (standstill t) (fun _ _ => Admitted gate t (.put r))
        (storage.put gate r) s := by
      refine Keeps.bind (authorize_follows fun u hu => congrArg Tables.users hu) ?_
      intro _ u _ _ hpass
      have hlift : Follows gate (.put r) (standstill t) (fun _ _ => r.validate = .ok ())
          (liftM r.validate) u := Keeps.lift fun _ h _ _ _ => h
      refine Keeps.bind hlift fun _ v _ _ hvalid => ?_
      have hregister : Follows gate (.put r) (standstill t) (fun _ _ => t.closed = false)
          (register r) v := by
        unfold register
        refine Keeps.bind (findObject_still he) fun found w _ _ hfound => ?_
        obtain ⟨hopen, o, rfl⟩ := hfound
        exact Keeps.pure fun _ _ _ => hopen
      refine Keeps.bind hregister fun found w _ _ hopen => ?_
      exact require_follows fun _ _ _ _ _ => ⟨hopen, hpass, hvalid⟩
    exact Keeps.bind hput fun _ u _ _ hu => Keeps.pure fun _ _ _ => hu
  unique s u hs _ hu _ := by
    obtain rfl : s = t := hs
    obtain rfl : u = s := hu
    exact ⟨rfl, rfl⟩
  admitted _ _ hd := hd
  total hadm s hs := by
    obtain rfl : s = t := hs
    exact perform_put_ok hadm.1 hadm.2.1 hadm.2.2

end

/-- **Repeated and simultaneous requests converge.** From any tables, copies of one commitment and
copies of one registration leave what one of them leaves by itself, as soon as one has succeeded,
whichever statements of the others have failed; and a request is completed by making it again. -/
theorem copies_converge (gate : Gate) (t : Tables) (r : Request) :
    Converges gate (.commit r) t ∧ Converges gate (.put r) t := by
  refine ⟨(commit_leads gate r t).converges, ?_⟩
  cases he : t.oids.get? r.oid with
  | none => exact (put_leads gate he).converges
  | some e => exact (put_leads_of_some gate he).converges

/-- Tables with a pending object of a project. -/
def enrolled : Tables := (storage.perform .everyone Tables.step .empty (.put specimen)).2

/-- A commitment that fails between its two statements on the sets of the project, and a second one
that goes on from there to its end. -/
def resumed : List (Turn Unit Breakdown) :=
  .start () :: List.replicate 4 (.call 0 .answered) ++
    .call 0 (.refused (.reported "unavailable")) :: .start () ::
      List.replicate 8 (.call 1 .answered)

/-- The first one leaves the object in both sets and its row pending; the second one takes it out of
the pending set and clears the flag, as one commitment by itself does. -/
theorem resumed_commitment_converges :
    let failed := (copies .everyone (.commit specimen)).run ⟨enrolled, []⟩ (resumed.take 6)
    let s := (copies .everyone (.commit specimen)).run ⟨enrolled, []⟩ resumed
    (failed.state.members specimen.repo = ⟨.ofList [specimen.oid], .ofList [specimen.oid]⟩ ∧
      failed.state.oids.get? specimen.oid = some ⟨1, true⟩) ∧
      s.tasks.map (fun copy => copy.result?.map Except.isOk) = [some false, some true] ∧
      s.state.members specimen.repo = ⟨.ofList [specimen.oid], ∅⟩ ∧
      s.state.oids.get? specimen.oid = some ⟨1, false⟩ := by
  intro failed
  generalize hs : (copies .everyone (.commit specimen)).run ⟨enrolled, []⟩ resumed = s
  have hfailed : failed.state.members specimen.repo =
      ⟨.ofList [specimen.oid], .ofList [specimen.oid]⟩ ∧
        failed.state.oids.get? specimen.oid = some ⟨1, true⟩ := by decide +kernel
  have hresults : s.tasks.map (fun copy => copy.result?.map Except.isOk) =
      [some false, some true] := by
    rw [← hs]
    decide +kernel
  have hmem : some true ∈ s.tasks.map fun copy => copy.result?.map Except.isOk := by
    rw [hresults]
    exact List.mem_cons_of_mem _ List.mem_cons_self
  obtain ⟨copy, hcopy, hok⟩ := List.mem_map.mp hmem
  have hdone : ∃ a, copy.rest = .done (.ok a) := by
    unfold Task.result? at hok
    cases hrest : copy.rest with
    | call c next => exact nomatch hrest ▸ hok
    | done r =>
      rw [hrest] at hok
      cases r with
      | error e => exact nomatch hok
      | ok a => exact ⟨a, rfl⟩
  have hconverged := ((copies_converge .everyone enrolled specimen).1 resumed).1
  rw [hs] at hconverged
  obtain ⟨hoids, hprojects⟩ := hconverged ⟨copy, hcopy, hdone⟩
  have halone : ((storage.perform .everyone Tables.step enrolled (.commit specimen)).2.members
        specimen.repo = ⟨.ofList [specimen.oid], ∅⟩) ∧
      (storage.perform .everyone Tables.step enrolled (.commit specimen)).2.oids.get?
        specimen.oid = some ⟨1, false⟩ := by decide +kernel
  have hsame : ∀ u v : Tables, u.oids = v.oids → u.projects = v.projects →
      u.members specimen.repo = v.members specimen.repo ∧
        u.oids.get? specimen.oid = v.oids.get? specimen.oid := by
    intro u v hoids hprojects
    unfold Tables.members
    rw [hoids, hprojects]
    exact ⟨rfl, rfl⟩
  obtain ⟨hmembers, hrow⟩ := hsame _ _ hoids hprojects
  exact ⟨hfailed, hresults, hmembers.trans halone.1, hrow.trans halone.2⟩

end Depot.Column
