import Depot.Proofs.Registry.Simulation
import Depot.Proofs.Relational.Refinement

/-!
# The order of joined rows

The listings of a relational database put objects under projects, and projects under objects, by the
rows of a join, whose order no query fixes. Neither depends on it: objects are inserted at their
place in the order, and projects are sorted.

Headlines
* **`assembleProjects_eq_of_perm`**, **`assembleObjects_eq_of_perm`**: the listings do not depend on
  the order of the joined rows.
* **`AnswersAlike.stepsMatch`**: over databases that answer alike but for that order every step
  comes to the same.
-/

namespace Depot.Relational

open Registry (AlikeOutcome Matches Project foldl_insert_spec sortNames_eq_of_perm)

variable {rows rows' : List (String × String)}

/-! ### What is made of joined rows -/

/-- Objects are added to a project in any order. -/
theorem foldl_insert_eq_of_perm {oids oids' : List String} (h : oids.Perm oids') {p : Project}
    (hp : Ascending p.oids) : oids.foldl Project.insert p = oids'.foldl Project.insert p := by
  obtain ⟨hname, hascending, hmem⟩ := foldl_insert_spec oids hp
  obtain ⟨hname', hascending', hmem'⟩ := foldl_insert_spec oids' hp
  have hoids : (oids.foldl Project.insert p).oids = (oids'.foldl Project.insert p).oids :=
    hascending.ext hascending' fun oid => by rw [hmem, hmem', h.mem_iff]
  generalize oids.foldl Project.insert p = q at hname hoids
  generalize oids'.foldl Project.insert p = q' at hname' hoids
  obtain ⟨name, oids⟩ := q
  obtain ⟨name', oids'⟩ := q'
  obtain rfl : name = name' := hname.trans hname'.symm
  obtain rfl : oids = oids' := hoids
  rfl

/-- **The listing of projects does not depend on the order of the joined rows.** -/
theorem assembleProjects_eq_of_perm (h : rows.Perm rows') (names : List String) :
    assembleProjects names rows = assembleProjects names rows' := by
  unfold assembleProjects
  refine congrArg Table.values (Table.ext_get? fun name => ?_)
  rw [get?_foldl_enlist, get?_foldl_enlist, Table.get?_ofList_map]
  split
  · rw [Option.map_some, Option.map_some, foldl_insert_eq_of_perm ((h.filter _).map Prod.snd)
      (p := Project.empty name) List.Pairwise.nil]
  · rfl

/-- **The listing of objects does not depend on the order of the joined rows.** -/
theorem assembleObjects_eq_of_perm (h : rows.Perm rows') (objects : List (String × Int)) :
    assembleObjects objects rows = assembleObjects objects rows' := by
  unfold assembleObjects
  refine List.map_congr_left fun (oid, size) _ => ?_
  simp only [sortNames_eq_of_perm ((h.filter fun row => row.2 == oid).map Prod.fst)]

/-! ### Answers in another order -/

/-- The same answer but for the order of the joined rows. -/
def Alike : (c : Call) → c.Answer → c.Answer → Prop
  | .committedMembership, a, b => a.Perm b
  | .passwordHash _, a, b => a = b
  | .findObject _, a, b => a = b
  | .register _, a, b => a = b
  | .commit _, a, b => a = b
  | .insertUser _ _, a, b => a = b
  | .deleteUser _, a, b => a = b
  | .userNames, a, b => a = b
  | .insertProject _, a, b => a = b
  | .projectNames, a, b => a = b
  | .committedObjects, a, b => a = b
  | .close, a, b => a = b

variable {σ τ α : Type}

/-- Two databases answer alike from related states, whatever else goes on in them, and their states
afterwards are related again. -/
structure AnswersAlike (service : Service σ Call Call.Reply) (service' : Service τ Call Call.Reply)
    (R : σ → τ → Prop) : Prop where
  reply : ∀ {s t}, R s t → ∀ c, AlikeOutcome (Alike c) (service s c).1 (service' t c).1
  related : ∀ {s t}, R s t → ∀ c, R (service s c).2 (service' t c).2

namespace AnswersAlike

variable {service : Service σ Call Call.Reply} {service' : Service τ Call Call.Reply}
  {R : σ → τ → Prop} (h : AnswersAlike service service' R) {s : σ} {t : τ}

include h

/-- What follows a transaction need match only for answers that are alike. -/
theorem bind_transaction (hR : R s t) (c : Call) {f g : c.Answer → Action α}
    (hf : ∀ a b s' t', Alike c a b → R s' t' → Matches service service' R (f a) (g b) s' t') :
    Matches service service' R (transaction c >>= f) (transaction c >>= g) s t :=
  Matches.bind_of_alike (h.reply hR c) (h.related hR c) fun a b s' t' hab hR _ =>
    hf a b s' t' hab hR

/-- A transaction whose answer has no order. -/
theorem transaction (hR : R s t) (c : Call) (hexact : ∀ a b, Alike c a b → a = b) :
    Matches service service' R (transaction c) (transaction c) s t :=
  Matches.of_alike (h.reply hR c) (h.related hR c) hexact

/-- **Over databases that answer alike every step comes to the same.** -/
theorem stepsMatch : storage.StepsMatch service service' R where
  passwordHash user s t hR := h.transaction hR (.passwordHash user) fun _ _ he => he
  find oid s t hR := h.transaction hR (.findObject oid) fun _ _ he => he
  register r s t hR := h.transaction hR (.register r.pendingObject) fun _ _ he => he
  commit oid s t hR := h.transaction hR (.commit oid) fun _ _ he => he
  insertUser name hash s t hR := h.transaction hR (.insertUser name hash) fun _ _ he => he
  deleteUser name s t hR := h.transaction hR (.deleteUser name) fun _ _ he => he
  userNames s t hR := h.transaction hR .userNames fun _ _ he => he
  ensureProject name s t hR := h.transaction hR (.insertProject name) fun _ _ he => he
  projects s t hR := by
    refine h.bind_transaction hR .projectNames fun names names' s t hnames hR => ?_
    obtain rfl : names = names' := hnames
    refine h.bind_transaction hR .committedMembership fun rows rows' s t hrows hR => ?_
    rw [assembleProjects_eq_of_perm hrows]
    exact .pure hR _
  objects s t hR := by
    refine h.bind_transaction hR .committedObjects fun found found' s t hfound hR => ?_
    obtain rfl : found = found' := hfound
    refine h.bind_transaction hR .committedMembership fun rows rows' s t hrows hR => ?_
    rw [assembleObjects_eq_of_perm hrows]
    exact .pure hR _
  close s t hR := h.transaction hR .close fun _ _ he => he

end AnswersAlike

end Depot.Relational
