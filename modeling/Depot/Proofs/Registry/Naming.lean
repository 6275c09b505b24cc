import Depot.Proofs.Registry.Ledger

/-!
# Where projects come from

A project comes about in two ways: it is added by its name, which must not be blank, or an object is
registered for the first time with it as its repository, whose name must only not be empty.

Headlines
* `Brings` tells which operation a project comes about by.
* **`Ledger.contains_perform`**: an operation leaves the projects that there were and those that it
  brings.
-/

namespace Depot.Registry

open Credential (Gate)

/-- An operation brings a project: it adds it by a name that is accepted, or it is accepted as the
first registration of an object, for a repository of that name. What operations answer and which
objects are recorded is told by the state before. -/
inductive Brings (answers : Operation → Outcome) (recorded : String → Prop) (name : String) :
    Operation → Prop
  /-- It adds the project. -/
  | added (accepted : requireName "project" name = .ok ()) :
      Brings answers recorded name (.addProject name)
  /-- It registers an object with the project. -/
  | registered {r : Request} (accepted : ∃ a, answers (.put r) = .ok a) (first : ¬ recorded r.oid)
      (named : r.repo = name) (nonempty : name ≠ "") : Brings answers recorded name (.put r)

theorem mem_projects_iff {r : Request} {name : String} :
    name ∈ r.projects ↔ r.repo = name ∧ name ≠ "" := by
  unfold Request.projects
  split
  · next h =>
    have hrepo : r.repo = "" := by simpa using h
    simp [hrepo, eq_comm]
  · next h =>
    have hrepo : r.repo ≠ "" := by simpa using h
    rw [List.mem_singleton]
    exact ⟨fun hname => ⟨hname.symm, hname ▸ hrepo⟩, fun hname => hname.1.symm⟩

/-- An empty name is not accepted. -/
theorem ne_empty_of_requireName {kind name : String} (h : requireName kind name = .ok ()) :
    name ≠ "" := by
  rintro rfl
  exact nomatch h

namespace Brings

variable {answers answers' : Operation → Outcome} {recorded recorded' : String → Prop}
  {name : String} {op : Operation}

theorem ne_empty (h : Brings answers recorded name op) : name ≠ "" := by
  cases h with
  | added accepted => exact ne_empty_of_requireName accepted
  | registered _ _ _ nonempty => exact nonempty

/-- The name of a project that is brought is accepted, if it is where a registration brings it. -/
theorem accepted (h : Brings answers recorded name op)
    (hput : ∀ r, op = .put r → Brings answers recorded r.repo (.put r) →
      requireName "project" r.repo = .ok ()) : requireName "project" name = .ok () := by
  cases h with
  | added accepted => exact accepted
  | registered accepted first named nonempty =>
    subst named
    exact hput _ rfl (.registered accepted first rfl nonempty)

theorem imp (h : Brings answers recorded name op) (hanswers : answers op = answers' op)
    (hrecorded : ∀ oid, recorded' oid → recorded oid) : Brings answers' recorded' name op := by
  cases h with
  | added accepted => exact .added accepted
  | registered accepted first named nonempty =>
    exact .registered (hanswers ▸ accepted) (mt (hrecorded _) first) named nonempty

/-- Only what the operation answers and which objects are recorded matters. -/
theorem congr (hanswers : answers op = answers' op)
    (hrecorded : ∀ oid, recorded oid ↔ recorded' oid) :
    Brings answers recorded name op ↔ Brings answers' recorded' name op :=
  ⟨fun h => h.imp hanswers fun oid => (hrecorded oid).mpr,
    fun h => h.imp hanswers.symm fun oid => (hrecorded oid).mp⟩

end Brings

namespace Ledger

variable {l : Ledger} {gate : Gate} {op : Operation} {r : Request} {name : String}

/-- An operation brings a project to a ledger. -/
def Brings (l : Ledger) (gate : Gate) (name : String) (op : Operation) : Prop :=
  Registry.Brings (fun op => (l.perform gate op).1) (fun oid => (l.find oid).isSome) name op

theorem demand_register (l : Ledger) (r : Request) : ∃ o, (l.register r).demand r.oid = .ok o := by
  unfold demand
  cases h : l.records.get? r.oid with
  | none => exact ⟨r.pendingObject, by rw [find_register h]⟩
  | some e => exact ⟨e.object r.oid, by rw [register_of_some h, find_of_some h]⟩

/-- A registration is refused and changes nothing, or is answered and made. -/
theorem perform_put_cases (l : Ledger) (gate : Gate) (r : Request) :
    (∃ e, l.perform gate (.put r) = (.error e, l)) ∨
      ∃ a, l.perform gate (.put r) = (.ok a, l.register r) := by
  obtain ⟨o, ho⟩ := l.demand_register r
  simp only [perform, ho]
  cases l.passes gate r with
  | error e => exact .inl ⟨e, rfl⟩
  | ok u =>
    cases r.validate with
    | error e => exact .inl ⟨e, rfl⟩
    | ok v => exact .inr ⟨.object o, rfl⟩

/-- A registration leaves the projects that there were, and those of a first record. -/
theorem contains_register : (l.register r).projects.contains name = true ↔
    l.projects.contains name = true ∨ (l.find r.oid = none ∧ name ∈ r.projects) := by
  cases h : l.records.get? r.oid with
  | none =>
    rw [projects_register h, contains_foldl_add, find_of_none h]
    tauto
  | some e =>
    rw [register_of_some h, find_of_some h]
    simp

/-- What leaves the projects leaves them also where it is not allowed. -/
theorem projects_allowed {may : Except Error Unit} {after : Outcome × Ledger}
    (h : after.2.projects = l.projects) : (l.allowed may after).2.projects = l.projects := by
  cases may with
  | ok u => exact h
  | error e => rfl

/-- A registration brings the projects of a first record, if it is accepted. -/
theorem contains_perform_put : (l.perform gate (.put r)).2.projects.contains name = true ↔
    l.projects.contains name = true ∨ l.Brings gate name (.put r) := by
  rcases l.perform_put_cases gate r with ⟨e, h⟩ | ⟨a, h⟩
  · rw [h, or_iff_left]
    intro hbrings
    cases hbrings with
    | registered accepted =>
      obtain ⟨a, ha⟩ := accepted
      exact nomatch (congrArg Prod.fst h).symm.trans ha
  · rw [h, contains_register, mem_projects_iff]
    refine or_congr_right ⟨fun ⟨hnone, hrepo, hname⟩ => ?_, fun hbrings => ?_⟩
    · exact .registered ⟨a, congrArg Prod.fst h⟩ (by simp [hnone]) hrepo hname
    · cases hbrings with
      | registered accepted first named nonempty =>
        exact ⟨by simpa using first, named, nonempty⟩

/-- An addition brings the project, if the name is accepted. -/
theorem contains_perform_addProject (added : String) :
    (l.perform gate (.addProject added)).2.projects.contains name = true ↔
      l.projects.contains name = true ∨ l.Brings gate name (.addProject added) := by
  simp only [perform]
  cases h : requireName "project" added with
  | error e =>
    refine (or_iff_left fun hbrings => ?_).symm
    cases hbrings with
    | added accepted => exact nomatch h.symm.trans accepted
  | ok u =>
    show (l.projects.add added).contains name = true ↔ _
    rw [Names.contains_add, Bool.or_eq_true, beq_iff_eq, or_comm]
    refine or_congr_right ⟨?_, fun hbrings => ?_⟩
    · rintro rfl
      exact .added h
    · cases hbrings
      rfl

/-- **An operation leaves the projects that there were and those that it brings.** -/
theorem contains_perform : (l.perform gate op).2.projects.contains name = true ↔
    l.projects.contains name = true ∨ l.Brings gate name op := by
  have hother : (l.perform gate op).2.projects = l.projects → ¬ l.Brings gate name op →
      ((l.perform gate op).2.projects.contains name = true ↔
        l.projects.contains name = true ∨ l.Brings gate name op) := by
    intro hsame hnone
    rw [hsame, or_iff_left hnone]
  cases op with
  | put r => exact contains_perform_put
  | addProject added => exact contains_perform_addProject added
  | get r => exact hother (projects_allowed rfl) nofun
  | getPending r => exact hother (projects_allowed rfl) nofun
  | commit r => exact hother (projects_allowed rfl) nofun
  | addUser user password salt => exact hother (projects_allowed (projects_allowed rfl)) nofun
  | deleteUser user => exact hother (projects_allowed rfl) nofun
  | users => exact hother (projects_allowed rfl) nofun
  | projects => exact hother rfl nofun
  | objects => exact hother rfl nofun
  | close => exact hother rfl nofun

end Ledger

end Depot.Registry
