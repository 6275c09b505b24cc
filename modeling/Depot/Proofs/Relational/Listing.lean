import Depot.Proofs.Ownership
import Depot.Proofs.Registry.Concordance
import Depot.Proofs.Relational.Lifecycle
import Mathlib.Tactic.IntervalCases

/-!
# Listings between transactions

The listings of a relational database are two queries each, and any transactions may come between
them. What makes them consistent all the same is the order of the queries and what a transaction
can do: a record keeps its project from its registration on and stays committed once it is, and a
project is never deleted. So the rows that the second query joins tell the projects of every object
that the first query has found, and of every project that it has found they tell the objects.

Headlines
* **`Ledger.Grows`**: what any number of transactions leave of a ledger.
* **`TwoCalls.result`**: what becomes of an operation of two calls in a run, whatever goes on
  between them.
* **`listings_consistent`**: the listing of objects is that of its first query; the listing of
  projects has the names of its first query with the objects of its second.
-/

namespace Depot

namespace Registry

/-! ### What transactions leave of a ledger -/

namespace Ledger

/-- The second ledger may come after the first one: records keep their size and their project and
stay committed, and projects stay. -/
structure Grows (l l' : Ledger) : Prop where
  record : ∀ {oid e}, l.records.get? oid = some e → ∃ e', l'.records.get? oid = some e' ∧
    e'.size = e.size ∧ e'.repo = e.repo ∧ (e.existing = true → e'.existing = true)
  project : ∀ {name}, l.projects.contains name = true → l'.projects.contains name = true

theorem Grows.refl (l : Ledger) : l.Grows l := ⟨fun he => ⟨_, he, rfl, rfl, id⟩, id⟩

theorem Grows.trans {l l' l'' : Ledger} (h : l.Grows l') (h' : l'.Grows l'') : l.Grows l'' := by
  refine ⟨fun he => ?_, fun hname => h'.project (h.project hname)⟩
  obtain ⟨e', he', hsize, hrepo, hex⟩ := h.record he
  obtain ⟨e'', he'', hsize', hrepo', hex'⟩ := h'.record he'
  exact ⟨e'', he'', hsize'.trans hsize, hrepo'.trans hrepo, fun hc => hex' (hex hc)⟩

/-- A committed record is one later, with the same projects. -/
theorem Grows.committed {l l' : Ledger} (h : l.Grows l') {oid : String} {e : Entry}
    (he : l.records.get? oid = some e) (hex : e.existing = true) :
    ∃ e', l'.records.get? oid = some e' ∧ e'.existing = true ∧ e'.projects = e.projects := by
  obtain ⟨e', he', -, hrepo, hex'⟩ := h.record he
  refine ⟨e', he', hex' hex, ?_⟩
  unfold Entry.projects
  rw [hrepo]

theorem grows_register (l : Ledger) (r : Request) : l.Grows (l.register r) := by
  cases hrow : l.records.get? r.oid with
  | some e =>
    rw [register_of_some hrow]
    exact Grows.refl l
  | none =>
    refine ⟨fun {oid e} he => ?_, fun hname => ?_⟩
    · have hne : oid ≠ r.oid := by
        rintro rfl
        exact nomatch hrow.symm.trans he
      refine ⟨e, ?_, rfl, rfl, id⟩
      rw [records_register hrow, Table.get?_insert, if_neg hne, he]
    · rw [projects_register hrow, contains_foldl_add]
      exact Or.inr hname

theorem grows_commit (l : Ledger) (oid : String) : l.Grows (l.commit oid) := by
  refine ⟨fun {x e} he => ?_, id⟩
  by_cases hx : x = oid
  · subst hx
    refine ⟨{ e with existing := true }, ?_, rfl, rfl, fun _ => rfl⟩
    rw [get?_commit he, if_pos rfl]
  · refine ⟨e, ?_, rfl, rfl, id⟩
    unfold commit
    rw [Table.get?_modify, if_neg hx, he]

theorem grows_addProject (l : Ledger) (name : String) : l.Grows (l.addProject name) := by
  refine ⟨(Grows.refl l).record, fun {x} hx => ?_⟩
  unfold addProject
  rw [Names.contains_add, hx, Bool.or_true]

end Ledger

end Registry

/-! ### Operations of two calls -/

section

variable {ι σ ε Call err α : Type} {Answer : Call → Type}

/-- A program that makes two calls and makes its result of their answers. -/
def Program.Pairs (p : Program Call (fun c => Except err (Answer c)) α) (c c' : Call)
    (f : Answer c → Answer c' → α) : Prop :=
  ∃ next, p = .call c next ∧ ∀ a, ∃ next', next (.ok a) = .call c' next' ∧
    ∀ b, next' (.ok b) = .done (f a b)

/-- In the run of some turns over a state the `n`-th program, whose origin is given, makes its first
call at turn `j` and the next one at turn `k`, and both are made and answered. -/
structure TwoCalls (m : Protocol ι σ ε Call (fun c => Except err (Answer c)) α) (s : σ)
    (turns : List (Turn ι ε)) (i : ι) (n j k : Nat) : Prop where
  started : (m.reached s turns j).tasks[n]? = some ⟨i, m.program i⟩
  first : turns[j]? = some (.call n .answered)
  second : turns[k]? = some (.call n .answered)
  later : j < k
  between : ∀ l, j < l → l < k → ∀ fate, turns[l]? ≠ some (.call n fate)

/-- **An operation of two calls ends with what it makes of the two answers**, whatever has been going
on between them. -/
theorem TwoCalls.result {m : Protocol ι σ ε Call (fun c => Except err (Answer c)) α} {s : σ}
    {turns : List (Turn ι ε)} {i : ι} {n j k : Nat} (h : TwoCalls m s turns i n j k) {c c' : Call}
    {f : Answer c → Answer c' → α} (hp : (m.program i).Pairs c c' f) {a : Answer c}
    {b : Answer c'} (ha : (m.serve i (m.reached s turns j).state c).1 = .ok a)
    (hb : (m.serve i (m.reached s turns k).state c').1 = .ok b) :
    (m.reached s turns (k + 1)).tasks[n]? = some ⟨i, .done (f a b)⟩ := by
  obtain ⟨next, hcall, hnext⟩ := hp
  obtain ⟨next', hcall', hnext'⟩ := hnext a
  have hstarted := h.started
  rw [hcall] at hstarted
  have hfirst := (Protocol.reached_succ_of_call h.first hstarted).2
  have hanswer : (m.settle i (m.reached s turns j).state c .answered).1 = .ok a := ha
  rw [hanswer, hcall'] at hfirst
  have hwaiting := Protocol.reached_tasks_of_le hfirst h.later fun l hl hlk fate =>
    h.between l hl hlk fate
  have hsecond := (Protocol.reached_succ_of_call h.second hwaiting).2
  have hanswer' : (m.settle i (m.reached s turns k).state c' .answered).1 = .ok b := hb
  rw [hanswer', hnext'] at hsecond
  exact hsecond

end

namespace Relational

open Credential (Gate)
open Registry hiding Entry

/-! ### The tables of a run -/

/-- The transactions of an operation, of which a closing is the operation of that name. -/
def Makes (op : Operation) (c : Call) : Prop := Owns op c ∧ (c = .close → op = .close)

theorem steps_own {op : Operation} : storage.StepsOwn op (Makes op) where
  passwordHash _ := Program.makes_perform ⟨trivial, by simp⟩
  find _ := makes_transaction ⟨trivial, by simp⟩
  register r hop := makes_transaction ⟨⟨r, hop, rfl⟩, by simp⟩
  commit r hop := makes_transaction ⟨⟨r, hop, rfl⟩, by simp⟩
  insertUser _ _ _ _ := makes_transaction ⟨trivial, by simp⟩
  deleteUser _ _ := makes_transaction ⟨trivial, by simp⟩
  userNames := makes_transaction ⟨trivial, by simp⟩
  ensureProject _ _ := makes_transaction ⟨trivial, by simp⟩
  projects := makes_bind (makes_transaction ⟨trivial, by simp⟩) fun _ =>
    makes_map (makes_transaction ⟨trivial, by simp⟩) _
  objects := makes_bind (makes_transaction ⟨trivial, by simp⟩) fun _ =>
    makes_map (makes_transaction ⟨trivial, by simp⟩) _
  close hop := makes_transaction ⟨trivial, fun _ => hop⟩

/-- Databases that keep a ledger, and what becomes of it. -/
def growing : Regime Database where
  valid d := ∃ l, Keeps l d
  grows d d' := ∀ l, Keeps l d → ∃ l', Keeps l' d' ∧ l.Grows l'
  refl _ l hl := ⟨l, hl, .refl l⟩
  trans h h' l hl := by
    obtain ⟨l', hl', hg⟩ := h l hl
    obtain ⟨l'', hl'', hg'⟩ := h' l' hl'
    exact ⟨l'', hl'', hg.trans hg'⟩

/-- A transaction other than a closing lets the ledger grow. -/
theorem step_grows {d : Database} {op : Operation} {c : Call} (hc : Owns op c) (hclose : c ≠ .close)
    {l : Ledger} (hl : Keeps l d) : ∃ l', Keeps l' (d.step c).2 ∧ l.Grows l' := by
  obtain ⟨hopen, htells⟩ := hl
  have hstep : (d.step c).2 = { d with tables := (d.tables.transact c).2 } :=
    congrArg Prod.snd (transaction_eval hopen hclose)
  have hafter : ∀ l', Tells l' (d.tables.transact c).2 → l.Grows l' →
      ∃ l', Keeps l' (d.step c).2 ∧ l.Grows l' := by
    intro l' htells' hgrows
    rw [hstep]
    exact ⟨l', ⟨hopen, htells'⟩, hgrows⟩
  cases c with
  | register o =>
    obtain ⟨r, -, rfl⟩ := hc
    exact hafter _ (htells.register r) (l.grows_register r)
  | commit oid => exact hafter _ (htells.commit oid) (l.grows_commit oid)
  | insertProject name => exact hafter _ (htells.addProject name) (l.grows_addProject name)
  | insertUser name hash =>
    exact hafter _ (htells.addUser name hash) ⟨(Ledger.Grows.refl l).record, id⟩
  | deleteUser name =>
    exact hafter _ (htells.deleteUser name) ⟨(Ledger.Grows.refl l).record, id⟩
  | passwordHash | findObject | userNames | projectNames | committedObjects | committedMembership =>
    exact hafter l htells (.refl l)
  | close => exact absurd rfl hclose

/-- The system after the first turns of a run over a new database. -/
abbrev after (gate : Gate) (lasting : Bool) (turns : List (Turn Operation Breakdown)) (k : Nat) :
    System Operation Database Call Call.Reply Outcome :=
  (operations storage gate Database.step).reached { lasting := lasting } turns k

section

variable {gate : Gate} {lasting : Bool} {turns : List (Turn Operation Breakdown)}

/-- **Every later state of a run keeps what the ledger of an earlier one has grown to.** -/
theorem keeps_between (gate : Gate) (lasting : Bool) (hopen : .start .close ∉ turns) {j k : Nat} (hjk : j ≤ k) :
    ∃ l l', Keeps l (after gate lasting turns j).state ∧
      Keeps l' (after gate lasting turns k).state ∧ l.Grows l' := by
  have hsafe : ∀ op, .start op ∈ turns → ∀ d, growing.valid d →
      Safe (operations storage gate Database.step) growing op (fun _ _ => True)
        ((operations storage gate Database.step).program op) d := by
    intro op hop d _
    refine Safe.of_makes (P := Makes op) (fun c t hc hv => ?_) steps_own.run_makes
    have hclose : c ≠ .close := fun hclose => hopen (hc.2 hclose ▸ hop)
    obtain ⟨l, hl⟩ := hv
    obtain ⟨l', hl', -⟩ := step_grows hc.1 hclose hl
    exact ⟨⟨l', hl'⟩, fun l hl => step_grows hc.1 hclose hl⟩
  have hempty : growing.valid { lasting := lasting } := ⟨Ledger.empty, rfl, tells_empty⟩
  have hsound : Protocol.Sound (operations storage gate Database.step) growing
      (fun _ _ _ => True) (after gate lasting turns j) :=
    (Protocol.run_sound_of_started (fun op hop => hsafe op (List.mem_of_mem_take hop))
      (Protocol.sound_idle hempty)).1
  have hgrows : growing.grows (after gate lasting turns j).state
      (after gate lasting turns k).state := by
    unfold after
    rw [Protocol.reached_of_le hjk]
    exact (Protocol.run_sound_of_started
      (fun op hop => hsafe op (List.mem_of_mem_drop (List.mem_of_mem_take hop))) hsound).2
  obtain ⟨l, hl⟩ := hsound.valid
  obtain ⟨l', hl', hg⟩ := hgrows l hl
  exact ⟨l, l', hl, hl', hg⟩

/-! ### Listings -/

/-- An object is committed and mapped to a project. -/
def Tables.Lists (t : Tables) (name oid : String) : Prop :=
  ∃ id e, t.projects.get? name = some id ∧ (oid, id) ∈ t.maps ∧ t.oids.get? oid = some e ∧
    e.pending = false

/-- The objects that the ledger lists under a project are those that the tables do. -/
theorem Tells.lists_iff {l : Ledger} {t : Tables} (h : Tells l t) {name oid : String} :
    t.Lists name oid ↔ oid ∈ l.oidsOf name := by
  rw [Ledger.mem_oidsOf]
  constructor
  · rintro ⟨id, row, hid, hmap, hrow, hpending⟩
    obtain ⟨e, he, hname⟩ := h.joined.mp ⟨id, hmap, hid⟩
    rw [h.row, he] at hrow
    obtain rfl := Option.some.inj hrow
    exact ⟨e, he, by simpa [rowOf] using hpending, hname⟩
  · rintro ⟨e, he, hex, hname⟩
    obtain ⟨id, hmap, hid⟩ := h.joined.mpr ⟨e, he, hname⟩
    refine ⟨id, rowOf e, hid, hmap, ?_, by simp [rowOf, hex]⟩
    rw [h.row, he]
    rfl

theorem pairs_objects (gate : Gate) : (storage.run gate .objects).run.Pairs .committedObjects
    .committedMembership fun found rows => .ok (.objects (assembleObjects found rows)) :=
  ⟨_, rfl, fun _ => ⟨_, rfl, fun _ => rfl⟩⟩

theorem pairs_projects (gate : Gate) : (storage.run gate .projects).run.Pairs .projectNames
    .committedMembership fun names rows => .ok (.projects (assembleProjects names rows)) :=
  ⟨_, rfl, fun _ => ⟨_, rfl, fun _ => rfl⟩⟩

/-- A query over open connections answers what it finds. -/
theorem query_answers {d : Database} {l : Ledger} (h : Keeps l d) {c : Call} (hc : c ≠ .close) :
    (d.step c).1 = .ok (d.tables.transact c).1 :=
  congrArg Prod.fst (transaction_eval h.1 hc)

/-- The listing of objects in a run: the committed objects, with all their projects, of the time of
its first query. -/
theorem objects_listed (hopen : .start .close ∉ turns) {n j k : Nat}
    (h : TwoCalls (operations storage gate Database.step) { lasting := lasting } turns .objects
      n j k) :
    ∃ os, (after gate lasting turns (k + 1)).tasks[n]? =
        some ⟨.objects, .done (.ok (.objects os))⟩ ∧
      Ascending (os.map Object.oid) ∧
      ∀ o, o ∈ os ↔
        (after gate lasting turns j).state.tables.findObject o.oid = some o ∧ o.existing = true := by
  obtain ⟨l, l', hl, hl', hg⟩ :=
    keeps_between gate lasting hopen (Nat.le_of_lt h.later)
  have hresult := h.result (pairs_objects gate) (query_answers hl (c := .committedObjects) (by simp))
    (query_answers hl' (c := .committedMembership) (by simp))
  have hlist : assembleObjects (after gate lasting turns j).state.tables.committedObjects
      (after gate lasting turns k).state.tables.committedMembership = l.objectList :=
    hl.2.assembledObjects hl'.2 fun he hex => hg.committed he hex
  refine ⟨l.objectList, ?_, l.concordant.objects_ascending, fun o => ?_⟩
  · rw [← hlist]
    exact hresult
  · rw [hl.2.found]
    constructor
    · exact Ledger.find_of_mem_objectList
    · exact fun ho => Ledger.mem_objectList_of_find ho.1 ho.2

/-- The listing of projects in a run: the projects of the time of its first query, each with the
objects that are committed and mapped to it at the time of the second. -/
theorem projects_listed (hopen : .start .close ∉ turns) {n j k : Nat}
    (h : TwoCalls (operations storage gate Database.step) { lasting := lasting } turns .projects
      n j k) :
    ∃ ps, (after gate lasting turns (k + 1)).tasks[n]? =
        some ⟨.projects, .done (.ok (.projects ps))⟩ ∧
      ps.map Project.name = (after gate lasting turns j).state.tables.projects.keys ∧
      ∀ p ∈ ps, Ascending p.oids ∧
        ∀ oid, oid ∈ p.oids ↔ (after gate lasting turns k).state.tables.Lists p.name oid := by
  obtain ⟨l, l', hl, hl', -⟩ :=
    keeps_between gate lasting hopen (Nat.le_of_lt h.later)
  have hresult := h.result (pairs_projects gate) (query_answers hl (c := .projectNames) (by simp))
    (query_answers hl' (c := .committedMembership) (by simp))
  have hlist := hl'.2.assembled (after gate lasting turns j).state.tables.projects
  refine ⟨_, hresult, ?_, fun p hp => ?_⟩
  · have hnames := congrArg (List.map Project.name) hlist
    rw [List.map_map] at hnames
    exact hnames.trans (List.map_id _)
  · have hp : p ∈ (after gate lasting turns j).state.tables.projects.keys.map
        fun name => (⟨name, l'.oidsOf name⟩ : Project) := hlist ▸ hp
    obtain ⟨name, -, rfl⟩ := List.mem_map.mp hp
    exact ⟨l'.ascending_oidsOf name, fun oid => hl'.2.lists_iff.symm⟩

/-- What is committed and mapped to a project stays so. -/
theorem lists_of_le (hopen : .start .close ∉ turns) {i k : Nat} (hik : i ≤ k) {name oid : String}
    (h : (after gate lasting turns i).state.tables.Lists name oid) :
    (after gate lasting turns k).state.tables.Lists name oid := by
  obtain ⟨l, l', hl, hl', hg⟩ := keeps_between gate lasting hopen hik
  rw [hl.2.lists_iff, Ledger.mem_oidsOf] at h
  obtain ⟨e, he, hex, hname⟩ := h
  obtain ⟨e', he', hex', hprojects⟩ := hg.committed he hex
  exact hl'.2.lists_iff.mpr (Ledger.mem_oidsOf.mpr ⟨e', he', hex', hprojects ▸ hname⟩)

/-- A project that is there stays. -/
theorem project_of_le (hopen : .start .close ∉ turns) {i k : Nat} (hik : i ≤ k) {name : String}
    (h : name ∈ (after gate lasting turns i).state.tables.projects.keys) :
    name ∈ (after gate lasting turns k).state.tables.projects.keys := by
  obtain ⟨l, l', hl, hl', hg⟩ := keeps_between gate lasting hopen hik
  have hthere := (hl.2.project name).mp (Table.mem_keys_iff.mp h)
  exact Table.mem_keys_iff.mpr ((hl'.2.project name).mpr (hg.project hthere))

end

/-- **Listings are consistent without a transaction.** In every run of operations on a database that
was empty at first and is not closed, whatever other transactions come between the two queries of a
listing: the listing of objects is that of the committed objects, with all their projects, at the
time of its first query; the listing of projects has the projects of its first query, each with
just the objects that are committed and mapped to it at its second one, and so with every object
that was committed before. -/
theorem listings_consistent (gate : Gate) (lasting : Bool)
    {turns : List (Turn Operation Breakdown)} (hopen : .start .close ∉ turns) {n j k : Nat} :
    (TwoCalls (operations storage gate Database.step) { lasting := lasting } turns .objects n j k →
      ∃ os, (after gate lasting turns (k + 1)).tasks[n]? =
          some ⟨.objects, .done (.ok (.objects os))⟩ ∧
        Ascending (os.map Object.oid) ∧
        ∀ o, o ∈ os ↔ (after gate lasting turns j).state.tables.findObject o.oid = some o ∧
          o.existing = true) ∧
    (TwoCalls (operations storage gate Database.step) { lasting := lasting } turns .projects n j k →
      ∃ ps, (after gate lasting turns (k + 1)).tasks[n]? =
          some ⟨.projects, .done (.ok (.projects ps))⟩ ∧
        ps.map Project.name = (after gate lasting turns j).state.tables.projects.keys ∧
        (∀ p ∈ ps, Ascending p.oids ∧
          ∀ oid, oid ∈ p.oids ↔ (after gate lasting turns k).state.tables.Lists p.name oid) ∧
        ∀ i ≤ j, ∀ name oid, (after gate lasting turns i).state.tables.Lists name oid →
          ∃ p ∈ ps, p.name = name ∧ oid ∈ p.oids) := by
  refine ⟨objects_listed hopen, fun h => ?_⟩
  obtain ⟨ps, hresult, hnames, hoids⟩ := projects_listed hopen h
  refine ⟨ps, hresult, hnames, hoids, fun i hij name oid hlisted => ?_⟩
  have hname : name ∈ ps.map Project.name := by
    obtain ⟨id, e, hproject, -⟩ := hlisted
    rw [hnames]
    exact project_of_le hopen hij (Table.mem_keys_iff.mpr (Table.contains_iff.mpr ⟨id, hproject⟩))
  obtain ⟨p, hp, rfl⟩ := List.mem_map.mp hname
  exact ⟨p, hp, rfl, ((hoids p hp).2 oid).mpr
    (lists_of_le hopen (Nat.le_trans hij (Nat.le_of_lt h.later)) hlisted)⟩

/-- Two listings that begin when one object is committed, and end after two more have been
registered, one of them in a new project, and the other one has been committed. -/
def overtaken : List (Turn Operation Breakdown) :=
  [.start (.put { oid := early, size := 12, repo := "books" }), .call 0 .answered,
    .start (.commit { oid := early }), .call 1 .answered,
    .start .objects, .start .projects, .call 2 .answered, .call 3 .answered,
    .start (.put { oid := late, size := 30, repo := "books" }), .call 4 .answered,
    .start (.put { oid := pending, size := 7, repo := "films" }), .call 5 .answered,
    .start (.commit { oid := late }), .call 6 (.unconfirmed (.reported "timeout")),
    .call 2 .answered, .call 3 .answered]
where
  early := "6ae8a75555209fd6c44157c0aed8016e763ff435a19cf186f76863140143ff72"
  late := "8db3d6c7562ef57ab11cf421d386af60ee4dd5f43512caae11f82f72c5a60e6e"
  pending := "c3ab8ff13720e8ad9047dd39466b3c8974e592c2fa383d4a3960714caef0c4f2"

theorem overtaken_listings_consistent :
    .start .close ∉ overtaken ∧
    TwoCalls (operations storage .everyone Database.step) { lasting := true } overtaken .objects
      2 6 14 ∧
    TwoCalls (operations storage .everyone Database.step) { lasting := true } overtaken .projects
      3 7 15 ∧
    (∃ os, (after .everyone true overtaken 15).tasks[2]? =
        some ⟨.objects, .done (.ok (.objects os))⟩ ∧
      Ascending (os.map Object.oid) ∧
      ∀ o, o ∈ os ↔ (after .everyone true overtaken 6).state.tables.findObject o.oid = some o ∧
        o.existing = true) ∧
    ∃ ps, (after .everyone true overtaken 16).tasks[3]? =
        some ⟨.projects, .done (.ok (.projects ps))⟩ ∧
      ps.map Project.name = (after .everyone true overtaken 7).state.tables.projects.keys ∧
      (∀ p ∈ ps, Ascending p.oids ∧
        ∀ oid, oid ∈ p.oids ↔ (after .everyone true overtaken 15).state.tables.Lists p.name oid) ∧
      ∀ i ≤ 7, ∀ name oid, (after .everyone true overtaken i).state.tables.Lists name oid →
        ∃ p ∈ ps, p.name = name ∧ oid ∈ p.oids := by
  have hopen : .start .close ∉ overtaken := by simp [overtaken]
  have hobjects : TwoCalls (operations storage .everyone Database.step) { lasting := true }
      overtaken .objects 2 6 14 :=
    ⟨rfl, rfl, rfl, by decide, fun l hl hlk fate => by interval_cases l <;> simp [overtaken]⟩
  have hprojects : TwoCalls (operations storage .everyone Database.step) { lasting := true }
      overtaken .projects 3 7 15 :=
    ⟨rfl, rfl, rfl, by decide, fun l hl hlk fate => by interval_cases l <;> simp [overtaken]⟩
  exact ⟨hopen, hobjects, hprojects, (listings_consistent .everyone true hopen).1 hobjects,
    (listings_consistent .everyone true hopen).2 hprojects⟩

/-- The project that was made in between is not listed, the object that was is. -/
example : (after .everyone true overtaken 16).tasks[3]?.map Task.result? =
    some (some (.ok (.projects [⟨"books", [overtaken.early, overtaken.late]⟩]))) := by
  decide +kernel

end Relational

end Depot
