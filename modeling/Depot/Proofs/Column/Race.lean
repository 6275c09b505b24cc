import Depot.Proofs.Column.Lifecycle
import Depot.Proofs.Column.Membership

/-!
# Registrations that race

A registration adds the object to its project before it knows whether it will insert the row, and
what a registration that comes too late has added is not taken back. So an object belongs to the
projects of all registrations that had looked it up before there was a row and have come as far as
their membership statement, whether they have won the row, lost it or ended with an error, and a
commitment moves all of them to the committed sets.

Headlines
* `History.Entered` tells who looked up an object before there was a row, `History.Joined` who has
  added it to a project.
* **`held_by_entrants`**: the projects that hold an object are those of the registrations that have
  joined, all of which had entered. They are those of the winner alone just if nobody has joined
  with another project.
-/

namespace Depot.Column

open Credential (Gate)
open Registry

namespace History

/-- A registration has looked up an object on open tables when there was no row. -/
def Entered (w : History) (oid : String) (q : Request) : Prop :=
  ∃ x ∈ w.log, x.operation = .put q ∧ x.call = .findOid oid ∧ x.tables.closed = false ∧
    x.tables.oids.get? oid = none

/-- A registration has added an object to the pending set of its project. -/
def Joined (w : History) (oid : String) (q : Request) : Prop :=
  ∃ x ∈ w.log, x.operation = .put q ∧ x.call = .addProjectOid q.repo oid .pending ∧
    x.tables.closed = false

/-- A project holds an object just if a registration with that project has joined, and who has
joined had entered. -/
structure Raced (w : History) : Prop where
  held : ∀ {name oid}, w.Held name oid → ∃ q, w.Joined oid q ∧ q.repo = name
  joined : ∀ {oid q}, w.Joined oid q → q.oid = oid ∧ q.repo ≠ "" ∧ w.Entered oid q

/-- What an operation has made sure of when it adds an object to a project: a registration has
entered with that project, and a commitment moves what a registration has joined. -/
def Races (op : Operation) (w : History) : Call → Prop
  | .addProjectOid name oid .pending =>
    ∃ q : Request, op = .put q ∧ q.oid = oid ∧ q.repo = name ∧ name ≠ "" ∧ w.Entered oid q
  | .addProjectOid name oid .committed => ∃ q, w.Joined oid q ∧ q.repo = name
  | _ => True

section

variable {v w : History} {op : Operation} {c : Call} {oid : String} {q : Request}

theorem Entered.later (h : v.Entered oid q) (hg : v.log <:+ w.log) : w.Entered oid q := by
  obtain ⟨x, hx, h⟩ := h
  exact ⟨x, hg.subset hx, h⟩

theorem Joined.later (h : v.Joined oid q) (hg : v.log <:+ w.log) : w.Joined oid q := by
  obtain ⟨x, hx, h⟩ := h
  exact ⟨x, hg.subset hx, h⟩

theorem log_serve (op : Operation) (w : History) (c : Call) : w.log <:+ (w.serve op c).2.log :=
  List.suffix_cons _ _

theorem joined_serve : (w.serve op c).2.Joined oid q ↔
    w.Joined oid q ∨
      (op = .put q ∧ c = .addProjectOid q.repo oid .pending ∧ w.tables.closed = false) := by
  unfold Joined serve
  simp only [List.mem_cons, exists_eq_or_imp]
  exact or_comm

/-- Whose project holds an object after a statement. -/
theorem held_serve_cases {name : String} (h : (w.serve op c).2.Held name oid) :
    w.Held name oid ∨
      ∃ m, c = .addProjectOid name oid m ∧ w.tables.closed = false := by
  rcases h with h | h
  · rcases Tables.holds_step_iff.mp h with ⟨hopen, rfl⟩ | ⟨hold, -⟩
    · exact Or.inr ⟨.pending, rfl, hopen⟩
    · exact Or.inl (Or.inl hold)
  · rcases Tables.holds_step_iff.mp h with ⟨hopen, rfl⟩ | ⟨hold, -⟩
    · exact Or.inr ⟨.committed, rfl, hopen⟩
    · exact Or.inl (Or.inr hold)

theorem serve_raced (hw : w.Raced) (hc : Races op w c) : (w.serve op c).2.Raced where
  held := by
    intro name oid h
    rcases held_serve_cases h with hold | ⟨m, rfl, hopen⟩
    · obtain ⟨q, hq, hname⟩ := hw.held hold
      exact ⟨q, joined_serve.mpr (Or.inl hq), hname⟩
    · cases m with
      | pending =>
        obtain ⟨q, hop, -, rfl, -⟩ := hc
        exact ⟨q, joined_serve.mpr (Or.inr ⟨hop, rfl, hopen⟩), rfl⟩
      | committed =>
        obtain ⟨q, hq, hname⟩ := hc
        exact ⟨q, joined_serve.mpr (Or.inl hq), hname⟩
  joined := by
    intro oid q h
    rcases joined_serve.mp h with hold | ⟨rfl, rfl, -⟩
    · obtain ⟨hoid, hrepo, hentered⟩ := hw.joined hold
      exact ⟨hoid, hrepo, hentered.later (log_serve op w c)⟩
    · obtain ⟨q', hop, hoid, -, hrepo, hentered⟩ := hc
      cases hop
      exact ⟨hoid, hrepo, hentered.later (log_serve _ w _)⟩

end

end History

open History

/-- Who holds an object, while more and more statements are made. -/
def racing : Regime History where
  valid := Raced
  grows v w := v.log <:+ w.log
  refl w := List.suffix_refl w.log
  trans h k := h.trans k

/-! ### Registrations and commitments -/

variable {gate : Gate} {op : Operation} {α β : Type} {post : β → History → Prop} {w : History}

/-- A statement that an operation may make then, and what follows it. -/
theorem races_bind {c : Call} {f : c.Answer → Action β} (hc : c ≠ .close)
    (h : ∀ t : History, t.Raced → w.log <:+ t.log → Races op t c)
    (hf : ∀ t : History, t.Raced → w.log <:+ t.log → t.tables.closed = false →
      Keeps (operation gate) serve racing op post (f (t.tables.answer c).1) (t.serve op c).2) :
    Keeps (operation gate) serve racing op post (statement c >>= f) w := by
  refine Keeps.permitted_bind (fun t c hv hp => ?_) h fun t a hv ht ha => ?_
  · exact ⟨serve_raced hv hp, log_serve op t c⟩
  · obtain ⟨hopen, rfl⟩ := Tables.open_of_step_ok hc ha
    exact hf t hv ht hopen

/-- Statements of operations that neither register nor commit may be made at any time. -/
theorem races_of_owns {other : Operation} (hput : ∀ r, other ≠ .put r)
    (hcommit : ∀ r, other ≠ .commit r) {c : Call} (h : Owns other c) (t : History) :
    Races op t c := by
  cases c with
  | addProjectOid name oid m =>
    cases m with
    | pending => exact absurd h.choose_spec.1 (hput _)
    | committed => exact absurd h.choose_spec.1 (hcommit _)
  | _ => trivial

/-- An action that only looks something up. -/
theorem looks_races {x : Action β} (h : x.run.Makes (Owns .objects)) :
    Keeps (operation gate) serve racing op (fun _ _ => True) x w := by
  have hstep : ∀ c t, Owns .objects c → Raced t →
      Raced (serve op t c).2 ∧ t.log <:+ (serve op t c).2.log := fun c t hc hv =>
    ⟨serve_raced hv (races_of_owns (by simp) (by simp) hc t), log_serve op t c⟩
  exact ⟨(Safe.of_makes hstep h).weaken fun _ _ _ _ _ _ => trivial⟩

/-- A look-up of a registration that finds nothing has entered the race. -/
theorem findObject_races (r : Request) :
    Keeps (operation gate) serve racing (.put r)
      (fun found t => found = none → t.Entered r.oid r) (findObject r.oid) w := by
  refine races_bind (by simp) (fun _ _ _ => trivial) fun t _ _ hopen => ?_
  cases hrow : t.tables.oids.get? r.oid with
  | none =>
    simp only [Tables.answer, hrow, Option.map_none]
    have hentered : (t.serve (.put r) (.findOid r.oid)).2.Entered r.oid r :=
      ⟨_, List.mem_cons_self, rfl, rfl, hopen, hrow⟩
    exact Keeps.pure fun u _ hg _ => hentered.later hg
  | some e =>
    simp only [Tables.answer, hrow, Option.map_some]
    refine races_bind (by simp) (fun _ _ _ => trivial) fun u _ _ _ => Keeps.pure ?_
    exact fun _ _ _ h => absurd h (by simp)

theorem addPending_races {r : Request} :
    ∀ (names : List String) {w : History}, (∀ name ∈ names, r.repo = name ∧ name ≠ "") →
      w.Entered r.oid r →
      Keeps (operation gate) serve racing (.put r) (fun _ _ => True) (addPending r.oid names) w
  | [], _, _, _ => Keeps.pure fun _ _ _ => trivial
  | name :: rest, w, hnames, hentered => by
    obtain ⟨hname, hne⟩ := hnames name List.mem_cons_self
    refine races_bind (by simp) (fun _ _ _ => trivial) fun t _ ht _ => ?_
    have hlog : w.log <:+ (t.serve (.put r) (.ensureProject name)).2.log :=
      ht.trans (log_serve _ t _)
    refine races_bind (by simp) (fun u _ hu => ?_) fun u _ hu _ => ?_
    · exact ⟨r, rfl, rfl, hname, hne, hentered.later (hlog.trans hu)⟩
    · refine addPending_races rest (fun x hx => hnames x (List.mem_cons_of_mem name hx)) ?_
      exact hentered.later ((hlog.trans hu).trans (log_serve _ u _))

theorem register_races (r : Request) :
    Keeps (operation gate) serve racing (.put r) (fun _ _ => True) (register r) w := by
  refine Keeps.bind (findObject_races r) fun found t _ _ hfound => ?_
  cases found with
  | some o => exact Keeps.pure fun _ _ _ => trivial
  | none =>
    have hnames : ∀ name ∈ r.projects, r.repo = name ∧ name ≠ "" := by
      intro name hname
      unfold Request.projects at hname
      split at hname
      · exact absurd hname List.not_mem_nil
      · rename_i hne
        obtain rfl := List.mem_singleton.mp hname
        exact ⟨rfl, fun hempty => hne (by rw [hempty]; rfl)⟩
    refine Keeps.bind (addPending_races r.projects hnames (hfound rfl)) fun _ u _ _ _ => ?_
    refine races_bind (by simp) (fun _ _ _ => trivial) fun v _ _ _ => ?_
    split
    · exact Keeps.pure fun _ _ _ => trivial
    · exact looks_races (steps_make.find r.oid)

theorem promote_races {r : Request} :
    ∀ (names : List String) {w : History}, (∀ name ∈ names, ∃ q, w.Joined r.oid q ∧ q.repo = name) →
      Keeps (operation gate) serve racing (.commit r) (fun _ _ => True) (promote r.oid names) w
  | [], _, _ => Keeps.pure fun _ _ _ => trivial
  | name :: rest, w, hnames => by
    have hlater : ∀ t : History, w.log <:+ t.log → ∀ x ∈ name :: rest,
        ∃ q, t.Joined r.oid q ∧ q.repo = x := by
      intro t ht x hx
      obtain ⟨q, hq, hrepo⟩ := hnames x hx
      exact ⟨q, hq.later ht, hrepo⟩
    refine races_bind (by simp) (fun t _ ht => hlater t ht name List.mem_cons_self) fun t _ ht _ => ?_
    refine races_bind (by simp) (fun _ _ _ => trivial) fun u _ hu _ => ?_
    have hlog : w.log <:+ (u.serve (.commit r) (.removePendingProjectOid name r.oid)).2.log :=
      ((ht.trans (log_serve _ t _)).trans hu).trans (log_serve _ u _)
    exact promote_races rest fun x hx => hlater _ hlog x (List.mem_cons_of_mem name hx)

theorem commit_races (r : Request) :
    Keeps (operation gate) serve racing (.commit r) (fun _ _ => True) (commit r.oid) w := by
  refine Keeps.bind (looks_races (steps_make.find r.oid)) fun found t _ _ _ => ?_
  cases found with
  | none => exact Keeps.pure fun _ _ _ => trivial
  | some o =>
    refine races_bind (by simp) (fun _ _ _ => trivial) fun u hu _ _ => ?_
    have hread : ∀ name ∈ (u.tables.answer (.projectsWithOid r.oid .pending)).1,
        ∃ q, (u.serve (.commit r) (.projectsWithOid r.oid .pending)).2.Joined r.oid q ∧
          q.repo = name := by
      intro name hname
      obtain ⟨q, hq, hrepo⟩ := hu.held (Or.inl (Tables.mem_projectsWithOid.mp hname))
      exact ⟨q, hq.later (log_serve _ u _), hrepo⟩
    refine Keeps.bind (promote_races _ hread) fun _ v _ _ _ => ?_
    refine races_bind (by simp) (fun _ _ _ => trivial) fun x _ _ _ => ?_
    exact looks_races (steps_make.find r.oid)

/-! ### Operations -/

theorem authorize_races (r : Request) (w : History) :
    Sure (registry gate) racing op (fun _ _ => True) (storage.authorize gate r) w := by
  refine Sure.authorize (fun user t => ?_) r.authorization
  have hlook : Keeps (operation gate) serve racing op (fun _ _ => True)
      (ExceptT.mk (storage.passwordHash user)) t := looks_races (Program.makes_perform trivial)
  exact hlook.safe.weaken fun _ _ _ _ => trivial

/-- **Every operation keeps to the rules of the race.** -/
theorem run_races (op : Operation) (w : History) :
    Sure (registry gate) racing op (fun _ _ => True) (storage.run gate op) w := by
  have hother : (∀ r, op ≠ .put r) → (∀ r, op ≠ .commit r) →
      Sure (registry gate) racing op (fun _ _ => True) (storage.run gate op) w := by
    intro hput hcommit
    refine Sure.of_makes (fun c t hc hv => ?_) (Storage.run_makes steps_make)
    exact ⟨serve_raced hv (races_of_owns hput hcommit hc t), log_serve op t c⟩
  cases op with
  | put r =>
    have hput : Sure (registry gate) racing (.put r) (fun _ _ => True) (storage.put gate r) w := by
      refine Sure.before (authorize_races r w) fun _ t => ?_
      refine Sure.before (Sure.lift r.validate) fun _ u => ?_
      have hregister : Sure (registry gate) racing (.put r) (fun _ _ => True) (register r) u :=
        ⟨(register_races r).safe⟩
      exact Sure.require (hregister.weaken fun _ _ _ _ _ _ => trivial) r.oid
    exact Sure.silent hput
  | commit r =>
    have hcommit : Sure (registry gate) racing (.commit r) (fun _ _ => True)
        (storage.commitObject gate r) w := by
      refine Sure.before (authorize_races r w) fun _ t => ?_
      have hmove : Sure (registry gate) racing (.commit r) (fun _ _ => True) (commit r.oid) t :=
        ⟨(commit_races r).safe⟩
      exact Sure.require (hmove.weaken fun _ _ _ _ _ _ => trivial) r.oid
    exact Sure.silent hcommit
  | _ => exact hother (by simp) (by simp)

/-! ### Runs -/

theorem raced_vacant (users : Table String String) :
    (⟨{ users := users }, []⟩ : History).Raced where
  held h := by
    rcases h with h | h
    · exact absurd (show false = true from h) (by simp)
    · exact absurd (show false = true from h) (by simp)
  joined h := absurd h.choose_spec.1 List.not_mem_nil

/-- In every run the project of a registration that has joined holds the object. -/
theorem held_of_joined (gate : Gate) (users : Table String String)
    (turns : List (Turn Operation Breakdown)) {oid : String} {q : Request}
    (hq : ((registry gate).run (vacant users) turns).state.Joined oid q) :
    ((registry gate).run (vacant users) turns).state.Held q.repo oid := by
  have hstart : Protocol.Sound (registry gate) discipline
      (fun op r t => ∀ a, r = .ok a → Promises op a t) (vacant users) :=
    Protocol.sound_idle (consistent_vacant users)
  refine Protocol.run_keeps (Q := fun w => ∀ {oid q}, w.Joined oid q → w.Held q.repo oid)
    (fun op w _ => (run_assures op w).safe) ?_ hstart ?_ turns hq
  · intro op t c hgrows hheld oid q h
    rcases joined_serve.mp h with hold | ⟨-, rfl, hopen⟩
    · exact hgrows.held (hheld hold)
    · exact Or.inl (Tables.holds_step_iff.mpr (Or.inl ⟨hopen, rfl⟩))
  · exact fun h => absurd h.choose_spec.1 List.not_mem_nil

/-- **Who has joined holds the object.** However operations go on side by side and whichever of
their statements fail, the projects that hold an object whose row was made for `r` are those of the
registrations that have joined, and whoever has joined had looked the object up before there was a
row. These are the projects of `r` alone just if nobody has joined with another one. -/
theorem held_by_entrants (gate : Gate) (users : Table String String)
    (turns : List (Turn Operation Breakdown)) (oid : String) (r : Request)
    (hr : ((registry gate).run (vacant users) turns).state.Registered oid r) :
    let w := ((registry gate).run (vacant users) turns).state
    (∀ name, w.Held name oid ↔ ∃ q, w.Joined oid q ∧ q.repo = name) ∧
      (∀ q, w.Joined oid q → q.oid = oid ∧ q.repo ≠ "" ∧ w.Entered oid q) ∧
      ((∀ name, w.Held name oid ↔ name ∈ r.projects) ↔
        ∀ q, w.Joined oid q → q.repo = r.repo) := by
  intro w
  have hraced : w.Raced := (Protocol.run_sound (fun op w _ => (run_races op w).safe)
    (Protocol.sound_idle (raced_vacant users)) turns).1.valid
  obtain ⟨hconsistent, -⟩ := run_consistent gate users turns
  have hheld : ∀ name, w.Held name oid ↔ ∃ q, w.Joined oid q ∧ q.repo = name := by
    refine fun name => ⟨hraced.held, ?_⟩
    rintro ⟨q, hq, rfl⟩
    exact held_of_joined gate users turns hq
  have hprojects : ∀ name, name ∈ r.projects ↔ name = r.repo ∧ r.repo ≠ "" := by
    intro name
    unfold Request.projects
    by_cases hempty : r.repo = ""
    · simp [hempty]
    · simp [hempty]
  refine ⟨hheld, fun q hq => hraced.joined hq, ?_, ?_⟩
  · intro hsame q hq
    exact ((hprojects _).mp ((hsame _).mp ((hheld _).mpr ⟨q, hq, rfl⟩))).1
  · intro halone name
    constructor
    · intro h
      obtain ⟨q, hq, rfl⟩ := (hheld name).mp h
      exact (hprojects _).mpr ⟨halone q hq, halone q hq ▸ (hraced.joined hq).2.1⟩
    · intro h
      obtain ⟨rfl, hne⟩ := (hprojects name).mp h
      exact hconsistent.held hr hne

/-- A request for the same object in another repository. -/
def rival : Request := { specimen with size := 2, repo := "s" }

/-- Two registrations look up an object that has no row. The first one wins the row, and the object
is committed. Then the second one goes on and loses, and the object is committed again. -/
def overtaken : List (Turn Operation Breakdown) :=
  [.start (.put specimen), .start (.put rival), .call 0 .answered, .call 1 .answered] ++
    List.replicate 3 (.call 0 .answered) ++ undisturbed 2 (.commit specimen) 8 ++
    List.replicate 5 (.call 1 .answered) ++ undisturbed 3 (.commit specimen) 8

set_option maxRecDepth 100000 in
theorem overtaken_answers :
    ((registry .everyone).run (vacant ∅) overtaken).tasks.map Task.result? =
      [some (.ok (.object ⟨specimen.oid, 1, ["r"], false⟩)),
        some (.ok (.object ⟨specimen.oid, 1, sortNames ["r"], true⟩)),
        some (.ok (.object ⟨specimen.oid, 1, sortNames ["r"], true⟩)),
        some (.ok (.object ⟨specimen.oid, 1, sortNames ["r", "s"], true⟩))] := by
  rfl

/-- Who loses the race leaves its project behind, and the next commitment adds that to a record that
has been committed before. -/
theorem loser_joins :
    let s := (registry .everyone).run (vacant ∅) overtaken
    (s.state.Registered specimen.oid specimen ∧ ¬ s.state.Registered specimen.oid rival ∧
      s.state.Holds .committed rival.repo specimen.oid) ∧
      s.tasks.map Task.result? =
        [some (.ok (.object ⟨specimen.oid, 1, ["r"], false⟩)),
          some (.ok (.object ⟨specimen.oid, 1, ["r"], true⟩)),
          some (.ok (.object ⟨specimen.oid, 1, ["r"], true⟩)),
          some (.ok (.object ⟨specimen.oid, 1, ["r", "s"], true⟩))] := by
  have hone : sortNames ["r"] = ["r"] := sortNames_of_ascending (by decide)
  have htwo : sortNames ["r", "s"] = ["r", "s"] := sortNames_of_ascending (by decide)
  have hanswers := overtaken_answers
  rw [hone, htwo] at hanswers
  refine ⟨?_, hanswers⟩
  decide +kernel

theorem overtaken_held_by_entrants :
    let w := ((registry .everyone).run (vacant ∅) overtaken).state
    w.Registered specimen.oid specimen ∧
      (∀ name, w.Held name specimen.oid ↔ ∃ q, w.Joined specimen.oid q ∧ q.repo = name) ∧
      (∀ q, w.Joined specimen.oid q →
        q.oid = specimen.oid ∧ q.repo ≠ "" ∧ w.Entered specimen.oid q) ∧
      ((∀ name, w.Held name specimen.oid ↔ name ∈ specimen.projects) ↔
        ∀ q, w.Joined specimen.oid q → q.repo = specimen.repo) :=
  have hr : ((registry .everyone).run (vacant ∅) overtaken).state.Registered specimen.oid
      specimen := by decide +kernel
  ⟨hr, held_by_entrants .everyone ∅ overtaken specimen.oid specimen hr⟩

end Depot.Column
