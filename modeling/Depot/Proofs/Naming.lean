import Depot.Proofs.Concordance
import Depot.Proofs.Registry.Naming

/-!
# The names of the projects of a backend

The projects of a backend are those that the operations of its past have brought: the names that
were added, none of which is blank, and the repositories of first registrations, which may be.

Headlines
* **`Backend.contains_performAll`**: the projects after a run are those before it and those that an
  operation of the run brings.
* **`Backend.listed_names`**: so is what a new backend lists after any operations; no name is empty,
  and none is blank just if no registration has brought a blank one.
-/

namespace Depot

open Credential (Gate)
open Registry (Ledger Operation requireName)

namespace Backend

variable {l : Ledger} {b : Backend} {gate : Gate} {op : Operation} {ops : List Operation}
  {name : String}

/-- An operation brings a project to a backend. -/
def Brings (b : Backend) (gate : Gate) (name : String) (op : Operation) : Prop :=
  Registry.Brings (fun op => (b.perform gate op).1) (fun oid => ∃ o, b.Records oid o) name op

/-- Some operation of a run brings a project to what those before it have left. -/
def RunBrings (b : Backend) (gate : Gate) (name : String) (ops : List Operation) : Prop :=
  ∃ before op after, ops = before ++ op :: after ∧ (performAll gate before b).2.Brings gate name op

theorem runBrings_cons : b.RunBrings gate name (op :: ops) ↔
    b.Brings gate name op ∨ (b.perform gate op).2.RunBrings gate name ops := by
  constructor
  · rintro ⟨before, op', after, hops, hbrings⟩
    cases before with
    | nil =>
      obtain ⟨rfl, -⟩ := List.cons_eq_cons.mp hops
      exact .inl hbrings
    | cons first before =>
      obtain ⟨rfl, rfl⟩ := List.cons_eq_cons.mp hops
      exact .inr ⟨before, op', after, rfl, hbrings⟩
  · rintro (hbrings | ⟨before, op', after, rfl, hbrings⟩)
    · exact ⟨[], op, ops, rfl, hbrings⟩
    · exact ⟨op :: before, op', after, rfl, hbrings⟩

/-- An operation brings to a backend what it brings to the ledger that the backend holds. -/
theorem brings_iff (h : b.Holds l) (hroom : b.HasRoom) (hop : op ≠ .close)
    (hsize : ∀ r, op = .put r → Text.fitsInt64 r.size = true) :
    b.Brings gate name op ↔ l.Brings gate name op := by
  refine Registry.Brings.congr (perform_holds gate h hroom hop hsize).1 fun oid => ?_
  rw [Option.isSome_iff_exists]
  exact exists_congr fun o => records_iff h hroom

/-- **The projects after a run are those before it and those that an operation of the run brings.**
The induction goes over the operations, each of which does to the backend what it does to the ledger
that the backend holds. -/
theorem contains_performAll (gate : Gate) (h : b.Holds l) (hopen : .close ∉ ops)
    (hroom : ∀ k < ops.length, (performAll gate (ops.take k) b).2.HasRoom)
    (hsizes : ∀ r, .put r ∈ ops → Text.fitsInt64 r.size = true) :
    ∃ l' : Ledger, (performAll gate ops b).2.Holds l' ∧ ∀ name,
      l'.projects.contains name = true ↔
        l.projects.contains name = true ∨ b.RunBrings gate name ops := by
  induction ops generalizing l b with
  | nil =>
    refine ⟨l, h, fun name => (or_iff_left ?_).symm⟩
    rintro ⟨before, op, after, hops, -⟩
    exact absurd hops.symm (by simp)
  | cons op ops ih =>
    obtain ⟨hop, hopen⟩ := not_or.mp fun hmem => hopen (List.mem_cons.mpr hmem)
    have hfirst := hroom 0 (Nat.succ_pos _)
    have hsize : ∀ r, op = .put r → Text.fitsInt64 r.size = true := fun r he =>
      hsizes r (he ▸ List.mem_cons_self)
    obtain ⟨-, hholds⟩ := perform_holds gate h hfirst (Ne.symm hop) hsize
    obtain ⟨l', hholds', hcontains⟩ := ih hholds hopen
      (fun k hk => hroom (k + 1) (Nat.succ_lt_succ hk))
      (fun r hr => hsizes r (List.mem_cons_of_mem op hr))
    refine ⟨l', hholds', fun name => ?_⟩
    rw [hcontains, Ledger.contains_perform, or_assoc, runBrings_cons,
      brings_iff h hfirst (Ne.symm hop) hsize]

/-- **What a new backend lists after any operations are the projects that they have brought.** No
name is empty. All are accepted where projects are added just if this holds of the repositories of
the requests that have brought projects. An embedded database has room for its records. -/
theorem listed_names (hnew : b.New) (gate : Gate) (ops : List Operation)
    (hsizes : ∀ r, .put r ∈ ops → Text.fitsInt64 r.size = true)
    (hroom : ∀ k ≤ ops.length, (performAll gate (ops.take k) b).2.HasRoom) :
    (.close ∉ ops → ∃ ps,
      ((performAll gate ops b).2.perform gate .projects).1 = .ok (.projects ps) ∧
      (∀ name, (∃ p ∈ ps, p.name = name) ↔ b.RunBrings gate name ops) ∧
      (∀ p ∈ ps, p.name ≠ "") ∧
      ((∀ p ∈ ps, requireName "project" p.name = .ok ()) ↔
        ∀ before r after, ops = before ++ .put r :: after →
          (performAll gate before b).2.Brings gate r.repo (.put r) →
            requireName "project" r.repo = .ok ())) ∧
    (.close ∈ ops → ∃ e, ((performAll gate ops b).2.perform gate .projects).1 = .error e) := by
  have hlast : (performAll gate ops b).2.HasRoom := by
    have := hroom ops.length (Nat.le_refl _)
    rwa [List.take_length] at this
  refine ⟨fun hopen => ?_, fun hclose => ?_⟩
  · obtain ⟨l, hholds, hcontains⟩ := contains_performAll gate hnew.holds hopen
      (fun k hk => hroom k hk.le) hsizes
    have hlisted : ∀ name, (∃ p ∈ l.projectList, p.name = name) ↔ b.RunBrings gate name ops := by
      intro name
      rw [Ledger.exists_mem_projectList, hcontains]
      exact or_iff_right Bool.false_ne_true
    have hname : ∀ p ∈ l.projectList, b.RunBrings gate p.name ops := fun p hp =>
      (hlisted p.name).mp ⟨p, hp, rfl⟩
    refine ⟨l.projectList, (perform_holds gate hholds hlast (by simp) (by simp)).1, hlisted,
      fun p hp => ?_, ?_⟩
    · obtain ⟨before, op, after, -, hbrings⟩ := hname p hp
      exact Registry.Brings.ne_empty hbrings
    · constructor
      · intro hall before r after hops hbrings
        obtain ⟨p, hp, hrepo⟩ := (hlisted r.repo).mpr ⟨before, _, after, hops, hbrings⟩
        exact hrepo ▸ hall p hp
      · intro hrepos p hp
        obtain ⟨before, op, after, hops, hbrings⟩ := hname p hp
        exact Registry.Brings.accepted hbrings fun r hr => hrepos before r after (hr ▸ hops)
  · rcases performAll_holds gate hnew.holds Ledger.sound_empty (fun k hk => hroom k hk.le)
      hsizes with ⟨hopen, -⟩ | ⟨-, hclosed⟩
    · exact absurd hclose hopen
    · exact (listings_of_closed hclosed gate).2

/-- The visit to a new embedded database brings the project that it adds by its name. -/
theorem visit_brings_films :
    New (.embedded {}) ∧ (∀ r, .put r ∈ visit → Text.fitsInt64 r.size = true) ∧
      (∀ k ≤ visit.length, (performAll .everyone (visit.take k) (.embedded {})).2.HasRoom) ∧
      .close ∉ visit ∧ (embedded {}).RunBrings .everyone "films" visit := by
  have hnew : New (.embedded {}) := rfl
  have hopen : .close ∉ visit := by decide
  obtain ⟨ps, hprojects, hlisted, -⟩ :=
    (listed_names hnew .everyone visit visit_sizes visit_room).1 hopen
  cases hprojects.symm.trans visit_listed.2
  exact ⟨hnew, visit_sizes, visit_room, hopen, (hlisted "films").mp ⟨⟨"films", []⟩, by simp, rfl⟩⟩

/-- A registration with a blank repository brings a project that cannot be added by its name. -/
theorem blank_name_listed :
    let b := (performAll .everyone [.put { oid := visit.digest, size := 12, repo := " " }]
      (.embedded {})).2
    (b.perform .everyone .projects).1 = .ok (.projects [⟨" ", []⟩]) ∧
      (b.perform .everyone (.addProject " ")).1 =
        .error (.invalidRequest (.blankName "project")) :=
  ⟨rfl, rfl⟩

end Backend

end Depot
