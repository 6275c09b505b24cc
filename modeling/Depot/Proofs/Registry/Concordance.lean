import Depot.Proofs.Registry.Ledger

/-!
# Objects and projects of the ledger

A record names its projects and a project lists its committed objects. The ledger lists both, and
the two listings tell the same of which object belongs to which project.

Headlines
* **`Ledger.concordant`**: the objects and the projects that a ledger lists agree.
* **`Ledger.perform_sound`**: every operation leaves records whose ids are digests and whose sizes
  are not negative.
-/

namespace Depot.Registry

open Credential (Gate)

/-- Lists of objects and of projects that agree: both are in strict order, as are the ids of each
project, an object names just those of the projects that list it, and the projects list no other
objects. -/
structure Concordant (os : List Object) (ps : List Project) : Prop where
  objects_ascending : Ascending (os.map Object.oid)
  projects_ascending : Ascending (ps.map Project.name)
  oids_ascending : ∀ p ∈ ps, Ascending p.oids
  named_iff_held : ∀ o ∈ os, ∀ p ∈ ps, p.name ∈ o.projects ↔ o.oid ∈ p.oids
  held_listed : ∀ p ∈ ps, ∀ oid ∈ p.oids, ∃ o ∈ os, o.oid = oid

namespace Ledger

/-- The objects that are listed are those of the committed records. -/
theorem mem_objectList {l : Ledger} {o : Object} :
    o ∈ l.objectList ↔
      ∃ oid e, l.records.get? oid = some e ∧ e.existing = true ∧ o = e.object oid := by
  unfold objectList
  simp only [List.mem_map, List.mem_filter, Prod.exists, ← Table.get?_eq_some_iff]
  constructor
  · rintro ⟨oid, e, ⟨he, hex⟩, rfl⟩
    exact ⟨oid, e, he, hex, rfl⟩
  · rintro ⟨oid, e, he, hex, rfl⟩
    exact ⟨oid, e, ⟨he, hex⟩, rfl⟩

/-- The projects that are listed are those that there are, each with its objects. -/
theorem mem_projectList {l : Ledger} {p : Project} :
    p ∈ l.projectList ↔ l.projects.contains p.name = true ∧ p.oids = l.oidsOf p.name := by
  unfold projectList
  simp only [List.mem_map, Names.mem_toList]
  constructor
  · rintro ⟨name, hname, rfl⟩
    exact ⟨hname, rfl⟩
  · rintro ⟨hname, hoids⟩
    refine ⟨p.name, hname, ?_⟩
    rw [← hoids]

theorem exists_mem_projectList {l : Ledger} {name : String} :
    (∃ p ∈ l.projectList, p.name = name) ↔ l.projects.contains name = true := by
  constructor
  · rintro ⟨p, hp, rfl⟩
    exact (mem_projectList.mp hp).1
  · intro hname
    exact ⟨⟨name, l.oidsOf name⟩, mem_projectList.mpr ⟨hname, rfl⟩, rfl⟩

/-- **The objects and the projects that a ledger lists agree.** -/
theorem concordant (l : Ledger) : Concordant l.objectList l.projectList where
  objects_ascending := by
    unfold objectList
    rw [List.map_map]
    exact Table.ascending_filter l.records fun e => e.2.existing
  projects_ascending := by
    unfold projectList
    rw [List.map_map]
    exact (List.map_id _).symm ▸ Names.ascending_toList l.projects
  oids_ascending p hp := by
    rw [(mem_projectList.mp hp).2]
    exact l.ascending_oidsOf p.name
  named_iff_held o ho p hp := by
    obtain ⟨oid, e, he, hex, rfl⟩ := mem_objectList.mp ho
    rw [(mem_projectList.mp hp).2]
    show p.name ∈ e.projects ↔ oid ∈ l.oidsOf p.name
    rw [mem_oidsOf, he]
    simp [hex]
  held_listed p hp oid hoid := by
    rw [(mem_projectList.mp hp).2, mem_oidsOf] at hoid
    obtain ⟨e, he, hex, -⟩ := hoid
    exact ⟨e.object oid, mem_objectList.mpr ⟨oid, e, he, hex, rfl⟩, rfl⟩

/-- What is recorded names projects that are listed. -/
theorem listed_of_find {l : Ledger} {oid : String} {o : Object} (h : l.find oid = some o) :
    ∀ name ∈ o.projects, ∃ p ∈ l.projectList, p.name = name := by
  intro name hname
  obtain ⟨e, he, rfl⟩ := Option.map_eq_some_iff.mp h
  exact exists_mem_projectList.mpr (l.listed he name hname)

/-- What is recorded as committed is listed. -/
theorem mem_objectList_of_find {l : Ledger} {oid : String} {o : Object} (h : l.find oid = some o)
    (hex : o.existing = true) : o ∈ l.objectList := by
  obtain ⟨e, he, rfl⟩ := Option.map_eq_some_iff.mp h
  exact mem_objectList.mpr ⟨oid, e, he, hex, rfl⟩

/-! ### Records that make sense -/

/-- The ids of all records are digests, and no size is negative. -/
def Sound (l : Ledger) : Prop :=
  ∀ oid e, l.records.get? oid = some e → isDigest oid = true ∧ 0 ≤ e.size

/-- The ids that are listed are digests. -/
theorem Sound.isDigest_of_mem {l : Ledger} (h : l.Sound) {o : Object} (ho : o ∈ l.objectList) :
    isDigest o.oid = true := by
  obtain ⟨oid, e, he, -, rfl⟩ := mem_objectList.mp ho
  exact (h oid e he).1

theorem sound_empty : Ledger.empty.Sound := fun oid e he =>
  absurd he (by simp [Ledger.empty, EmptyCollection.emptyCollection])

/-- A request that passes the check has a digest and a size that is not negative. -/
theorem sound_of_validate {r : Request} (h : r.validate = .ok ()) :
    isDigest r.oid = true ∧ 0 ≤ r.size := by
  unfold Request.validate at h
  split at h
  · exact nomatch h
  · next hdigest =>
    split at h
    · exact nomatch h
    · next hsize => exact ⟨by simpa using hdigest, by omega⟩

variable {l : Ledger}

theorem Sound.register (h : l.Sound) {r : Request} (hr : r.validate = .ok ()) :
    (l.register r).Sound := by
  intro oid e he
  cases hrow : l.records.get? r.oid with
  | some e' =>
    rw [register_of_some hrow] at he
    exact h oid e he
  | none =>
    rw [records_register hrow, Table.get?_insert] at he
    split at he
    · next hoid =>
      cases he
      rw [hoid]
      exact sound_of_validate hr
    · exact h oid e he

theorem Sound.commit (h : l.Sound) (oid : String) : (l.commit oid).Sound := by
  intro x e he
  unfold Ledger.commit at he
  rw [Table.get?_modify] at he
  split at he
  · obtain ⟨e', he', rfl⟩ := Option.map_eq_some_iff.mp he
    exact h x e' he'
  · exact h x e he

theorem Sound.allowed (h : l.Sound) {may : Except Error Unit} {after : Outcome × Ledger}
    (hafter : may = .ok () → after.2.Sound) : (l.allowed may after).2.Sound := by
  cases may with
  | ok u => exact hafter rfl
  | error e => exact h

/-- **Every operation leaves records whose ids are digests and whose sizes are not negative.** -/
theorem perform_sound (h : l.Sound) (gate : Gate) (op : Operation) :
    (l.perform gate op).2.Sound := by
  cases op with
  | get r => exact h.allowed fun _ => h
  | getPending r => exact h.allowed fun _ => h
  | put r => exact h.allowed fun _ => h.allowed fun hvalid => h.register hvalid
  | commit r => exact h.allowed fun _ => h.commit r.oid
  | addUser name password salt => exact h.allowed fun _ => h.allowed fun _ => h
  | deleteUser name => exact h.allowed fun _ => h
  | users => exact h.allowed fun _ => h
  | addProject name => exact h.allowed fun _ => h
  | projects => exact h
  | objects => exact h
  | close => exact h

end Ledger

end Depot.Registry
