import Depot.Proofs.Column.Undisturbed
import Depot.Proofs.Registry.Ledger
import Mathlib.Data.List.Nodup

/-!
# Column tables keep the ledger

Column tables tell of a ledger by the rows of its objects, by the names of its projects, and by the
set of each project that holds an object: the pending or the committed one, as the record says.
Where no operation is disturbed, none leaves an object in both sets.

Headlines
* **`implements`**: undisturbed operations over open column tables implement the ledger.
-/

namespace Depot.Column

open Registry (Entry Implements Ledger Object Project Request Yields eval eval_bind_of_ok
  mem_sortNames sortNames sortNames_of_ascending)

/-- The row of a record. -/
def rowOf (e : Entry) : OidEntry := ⟨e.size, !e.existing⟩

/-- The set that holds an object. -/
def setOf (e : Entry) : Membership := if e.existing then .committed else .pending

/-- The tables tell of a ledger. -/
structure Tells (l : Ledger) (t : Tables) : Prop where
  closed : t.closed = false
  users : t.users = l.users
  rows : t.oids = l.records.mapEntries fun _ => rowOf
  project : ∀ name, t.projects.contains name = true ↔ l.projects.contains name = true
  holds : ∀ m name oid, t.holds m name oid = true ↔
    ∃ e, l.records.get? oid = some e ∧ name ∈ e.projects ∧ m = setOf e

variable {l : Ledger} {t : Tables}

theorem Tells.row (h : Tells l t) (oid : String) :
    t.oids.get? oid = (l.records.get? oid).map rowOf := by
  rw [h.rows, Table.get?_mapEntries]

/-! ### Look-ups -/

/-- The projects whose set of a kind holds an object are those of its record. -/
theorem Tells.projectsWithOid (h : Tells l t) {oid : String} {e : Entry}
    (he : l.records.get? oid = some e) :
    (t.answer (.projectsWithOid oid (setOf e))).1 = e.projects := by
  have hascending : Ascending (t.answer (.projectsWithOid oid (setOf e))).1 :=
    Table.ascending_filter _ _
  refine hascending.ext e.ascending_projects fun name => ?_
  rw [Tables.mem_projectsWithOid, h.holds]
  constructor
  · rintro ⟨e', he', hname, -⟩
    obtain rfl := Option.some.inj (he.symm.trans he')
    exact hname
  · intro hname
    exact ⟨e, he, hname, rfl⟩

/-- A look-up finds the record. -/
theorem Tells.found (h : Tells l t) (oid : String) : t.found oid = l.find oid := by
  unfold Ledger.find
  cases he : l.records.get? oid with
  | none => exact found_of_none (by rw [h.row, he]; rfl)
  | some e =>
    rw [found_of_some (e := rowOf e) (by rw [h.row, he]; rfl)]
    have hset : membershipOf (Tables.oidRow (oid, rowOf e)) = setOf e := by
      unfold membershipOf setOf Tables.oidRow rowOf
      cases e.existing <;> rfl
    rw [hset, h.projectsWithOid he]
    unfold objectOf
    rw [sortNames_of_ascending e.ascending_projects]
    simp [Tables.oidRow, rowOf, Entry.object]

/-! ### Changes -/

/-- A new record. -/
theorem Tells.register_new (h : Tells l t) {r : Request} (hnone : l.records.get? r.oid = none) :
    Yields Tables.step (register r) t ((l.register r).find r.oid) (Tells (l.register r)) := by
  have hrow : t.oids.get? r.oid = none := by rw [h.row, hnone]; rfl
  obtain ⟨u, hu, hb⟩ := register_eval h.closed hrow
  have hget : ∀ x, (l.register r).records.get? x =
      if x = r.oid then some ⟨r.size, r.repo, false⟩ else l.records.get? x := fun x => by
    rw [Ledger.records_register hnone, Table.get?_insert]
  refine ⟨u, ?_, hb.closed.trans h.closed, ?_, ?_, fun name => ?_, fun m name x => ?_⟩
  · rw [hu, Ledger.find_register hnone]
  · rw [Ledger.users_register hnone, hb.users, h.users]
  · rw [Table.eq_mapEntries_iff]
    intro x
    rw [hb.row, hget, h.row]
    split <;> rfl
  · rw [hb.project, Ledger.projects_register hnone, Registry.contains_foldl_add, h.project]
  · rw [hb.holds, h.holds, hget]
    by_cases hx : x = r.oid
    · subst hx
      rw [if_pos rfl]
      constructor
      · rintro (⟨rfl, -, hname⟩ | ⟨e, he, -⟩)
        · exact ⟨_, rfl, hname, rfl⟩
        · exact absurd (hnone.symm.trans he) (by simp)
      · rintro ⟨e, he, hname, rfl⟩
        cases he
        exact Or.inl ⟨rfl, rfl, hname⟩
    · rw [if_neg hx]
      exact or_iff_right fun hk => hx hk.2.1

/-- A record that is there. -/
theorem Tells.register_known (h : Tells l t) {r : Request} {e : Entry}
    (he : l.records.get? r.oid = some e) :
    Yields Tables.step (register r) t ((l.register r).find r.oid) (Tells (l.register r)) := by
  have hrow : t.oids.get? r.oid = some (rowOf e) := by rw [h.row, he]; rfl
  rw [Ledger.register_of_some he]
  refine ⟨t, ?_, h⟩
  rw [register_eval_of_some h.closed hrow, h.found]

/-- What has moved to the committed sets is what the committed record says. -/
theorem Tells.moved (h : Tells l t) {oid : String} {e : Entry}
    (he : l.records.get? oid = some e) (m : Membership) (name : String) :
    ((m = .committed ∧ t.holds .pending name oid = true) ∨
        (t.holds m name oid = true ∧ m ≠ .pending)) ↔
      name ∈ e.projects ∧ m = .committed := by
  have hholds : ∀ m', t.holds m' name oid = true ↔ name ∈ e.projects ∧ m' = setOf e := by
    intro m'
    rw [h.holds, he]
    simp only [Option.some.injEq, exists_eq_left']
  rw [hholds, hholds]
  constructor
  · rintro (⟨rfl, hname, -⟩ | ⟨⟨hname, -⟩, hm⟩)
    · exact ⟨hname, rfl⟩
    · cases m with
      | pending => exact absurd rfl hm
      | committed => exact ⟨hname, rfl⟩
  · rintro ⟨hname, rfl⟩
    cases hset : setOf e with
    | pending => exact Or.inl ⟨rfl, hname, rfl⟩
    | committed => exact Or.inr ⟨⟨hname, rfl⟩, by simp⟩

/-- A commitment of an object with a record. -/
theorem Tells.commit_known (h : Tells l t) {oid : String} {e : Entry}
    (he : l.records.get? oid = some e) :
    Yields Tables.step (commit oid) t ((l.commit oid).find oid) (Tells (l.commit oid)) := by
  have hrow : t.oids.get? oid = some (rowOf e) := by rw [h.row, he]; rfl
  have hget := Ledger.get?_commit he
  obtain ⟨u, hu, hb⟩ := commit_eval h.closed hrow
  have htells : Tells (l.commit oid) u := by
    refine ⟨hb.closed.trans h.closed, hb.users.trans h.users, ?_, fun name => ?_,
      fun m name x => ?_⟩
    · rw [Table.eq_mapEntries_iff]
      intro x
      rw [hb.row, hget, h.row]
      split <;> rfl
    · rw [hb.project, h.project]
      rfl
    · rw [hb.holds, hget]
      by_cases hx : x = oid
      · subst hx
        rw [if_pos rfl]
        simp only [true_and, and_true, Option.some.injEq, exists_eq_left']
        exact h.moved he m name
      · rw [if_neg hx, or_iff_right fun hk => hx hk.2.1, and_iff_left fun hn => hx hn.2, h.holds]
  refine ⟨u, ?_, htells⟩
  rw [hu, htells.found]

theorem Tells.commit (h : Tells l t) (oid : String) :
    Yields Tables.step (commit oid) t ((l.commit oid).find oid) (Tells (l.commit oid)) := by
  cases he : l.records.get? oid with
  | some e => exact h.commit_known he
  | none =>
    have hrow : t.oids.get? oid = none := by rw [h.row, he]; rfl
    rw [Ledger.commit_of_none he]
    refine ⟨t, ?_, h⟩
    rw [commit_eval_of_none h.closed hrow, Ledger.find_of_none he]

theorem Tells.addProject (h : Tells l t) (name : String) :
    Tells (l.addProject name) (t.answer (.ensureProject name)).2 := by
  have hb := enrols_becomes h.closed (c := .ensureProject name) trivial
  refine ⟨hb.closed.trans h.closed, hb.users.trans h.users, h.rows, fun x => ?_, fun m x y => ?_⟩
  · rw [hb.project, h.project]
    unfold Ledger.addProject
    rw [Names.contains_add, Bool.or_eq_true, beq_iff_eq]
    simp [@eq_comm _ name x]
  · rw [hb.holds, h.holds]
    simp
    rfl

theorem Tells.addUser (h : Tells l t) {name : String} (hash : String)
    (hnone : l.users.get? name = none) :
    Yields Tables.step (storage.insertUser name hash) t () (Tells (l.addUser name hash)) := by
  have hnew : l.users.contains name = false := Table.contains_eq_false.mpr hnone
  have hanswer : t.answer (.insertUserIfAbsent name hash) =
      (true, { t with users := t.users.insert name hash }) := by
    simp only [Tables.answer, h.users, hnew]
    rfl
  refine ⟨{ t with users := t.users.insert name hash }, ?_, ⟨h.closed, ?_, h.rows, h.project,
    h.holds⟩⟩
  · show eval Tables.step (Column.statement _ >>= fun _ => pure ()) t = _
    rw [eval_bind_of_ok (statement_eval h.closed _), hanswer]
    rfl
  · unfold Ledger.addUser
    rw [hnew, h.users]
    rfl

/-! ### Listings -/

/-- The members of a project's committed set are the committed objects of the ledger's project. -/
theorem Tells.committed (h : Tells l t) {name : String} {s : Members}
    (hs : t.projects.get? name = some s) : s.committed.toList = l.oidsOf name := by
  refine (Names.ascending_toList s.committed).ext (l.ascending_oidsOf name) fun x => ?_
  have hholds := h.holds .committed name x
  unfold Tables.holds Tables.members at hholds
  rw [hs] at hholds
  rw [Names.mem_toList, Ledger.mem_oidsOf]
  refine hholds.trans (exists_congr fun e => and_congr_right fun _ => ?_)
  unfold setOf
  cases e.existing <;> simp

theorem Tells.projects (h : Tells l t) :
    eval Tables.step Column.projects t = (.ok l.projectList, t) := by
  have hsorted : (t.projects.entries.map Tables.projectRow).Pairwise fun a b =>
      (compare a.name b.name).isLE = true := by
    rw [List.pairwise_map]
    exact List.pairwise_map.mp (Ascending.isLE t.projects.ascending)
  have hkeys : t.projects.keys = l.projects.toList := by
    refine (Table.keys_ascending t.projects).ext (Names.ascending_toList l.projects) fun x => ?_
    rw [Table.mem_keys_iff, Names.mem_toList]
    exact h.project x
  have hlist : (t.projects.entries.map Tables.projectRow).map projectOf = l.projectList := by
    unfold Ledger.projectList
    rw [← hkeys, Table.keys, List.map_map, List.map_map]
    refine List.map_congr_left fun e he => ?_
    have hs : t.projects.get? e.1 = some e.2 := Table.get?_eq_some_iff.mpr he
    show projectOf ⟨e.1, e.2.committed.toList, e.2.pending.toList⟩ = ⟨e.1, l.oidsOf e.1⟩
    unfold projectOf
    dsimp only
    rw [sortNames_of_ascending (Names.ascending_toList e.2.committed), h.committed hs]
  unfold Column.projects
  rw [eval_bind_of_ok (statement_eval h.closed _)]
  show (Except.ok (List.map projectOf ((t.projects.entries.map Tables.projectRow).mergeSort _)), t)
    = _
  rw [List.mergeSort_of_pairwise hsorted, hlist]

/-- Of rows that list each object at most once, each project that lists an object holds it once. -/
theorem holders_projectRow (entries : List (String × Members)) (oid : String) :
    holders (entries.map Tables.projectRow) oid =
      (entries.filter fun e => (e.2.get .committed).contains oid).map Prod.fst := by
  induction entries with
  | nil => rfl
  | cons e entries ih =>
    have hcount : (e.2.committed.toList.filter (· == oid)).map (fun _ => e.1) =
        if e.2.committed.contains oid = true then [e.1] else [] := by
      rw [List.filter_beq, List.map_replicate]
      split
      · rename_i hin
        rw [List.count_eq_one_of_mem (Names.ascending_toList _).nodup (Names.mem_toList.mpr hin)]
        rfl
      · rename_i hout
        rw [List.count_eq_zero_of_not_mem fun hin => hout (Names.mem_toList.mp hin)]
        rfl
    unfold holders at ih ⊢
    rw [List.map_cons, List.flatMap_cons, ih]
    show (e.2.committed.toList.filter (· == oid)).map (fun _ => e.1) ++ _ = _
    rw [hcount, List.filter_cons]
    show _ = List.map Prod.fst (if e.2.committed.contains oid = true then _ else _)
    split <;> rfl

/-- Rows of different objects are assembled one by one. -/
theorem assemble_eq_map (rows : List ProjectRow) :
    ∀ (seen : List String) (found : List OidRow), (found.map OidRow.oid).Nodup →
      (∀ row ∈ found, row.oid ∉ seen) →
      assemble rows seen found =
        found.map fun row => ⟨row.oid, row.size, sortNames (holders rows row.oid), true⟩
  | _, [], _, _ => rfl
  | seen, row :: rest, hnodup, hseen => by
    rw [List.map_cons, List.nodup_cons] at hnodup
    have hrow : seen.contains row.oid = false := by
      simpa using hseen row List.mem_cons_self
    have hrest : ∀ row' ∈ rest, row'.oid ∉ row.oid :: seen := by
      intro row' hrow' hin
      rcases List.mem_cons.mp hin with he | hin
      · exact hnodup.1 (he ▸ List.mem_map_of_mem hrow')
      · exact hseen row' (List.mem_cons_of_mem row hrow') hin
    rw [assemble, hrow, assemble_eq_map rows (row.oid :: seen) rest hnodup.2 hrest]
    rfl

/-- The rows of the committed objects. -/
theorem Tells.committedRows (h : Tells l t) :
    (t.oids.entries.map Tables.oidRow).filter (fun row => !row.pending) =
      (l.records.entries.filter fun e => e.2.existing).map fun e =>
        ⟨e.1, e.2.size, !e.2.existing⟩ := by
  have hentries : t.oids.entries = l.records.entries.map fun e => (e.1, rowOf e.2) := by
    rw [h.rows]
    rfl
  rw [hentries, List.map_map, List.filter_map]
  have hp : ((fun row : OidRow => !row.pending) ∘ Tables.oidRow ∘ fun e : String × Entry =>
      (e.1, rowOf e.2)) = fun e => e.2.existing := by
    funext e
    simp [Tables.oidRow, rowOf]
  rw [hp]
  rfl

theorem Tells.objects (h : Tells l t) :
    eval Tables.step Column.objects t = (.ok l.objectList, t) := by
  have hnodup : (((l.records.entries.filter fun e => e.2.existing).map fun e =>
      (⟨e.1, e.2.size, !e.2.existing⟩ : OidRow)).map OidRow.oid).Nodup := by
    rw [List.map_map]
    exact (Table.ascending_filter l.records fun e => e.2.existing).nodup
  have hlist : assemble (t.projects.entries.map Tables.projectRow) []
      ((t.oids.entries.map Tables.oidRow).filter fun row => !row.pending) = l.objectList := by
    rw [h.committedRows, assemble_eq_map _ _ _ hnodup (fun _ _ => List.not_mem_nil), List.map_map]
    refine List.map_congr_left fun e he => ?_
    obtain ⟨hmem, hexisting⟩ := List.mem_filter.mp he
    have hget : l.records.get? e.1 = some e.2 := Table.get?_eq_some_iff.mpr hmem
    have hset : setOf e.2 = .committed := if_pos hexisting
    have hnames := h.projectsWithOid hget
    rw [hset] at hnames
    show (⟨e.1, e.2.size, sortNames (holders _ e.1), true⟩ : Object) = e.2.object e.1
    rw [holders_projectRow]
    rw [show (t.projects.entries.filter fun e' => (e'.2.get .committed).contains e.1).map Prod.fst =
      e.2.projects from hnames, sortNames_of_ascending e.2.ascending_projects]
    unfold Entry.object
    rw [hexisting]
  have hsorted : l.objectList.Pairwise fun a b => (compare a.oid b.oid).isLE = true := by
    unfold Ledger.objectList
    rw [List.pairwise_map]
    exact List.pairwise_map.mp (Ascending.isLE (Table.ascending_filter l.records fun e => e.2.existing))
  unfold Column.objects
  rw [eval_bind_of_ok (statement_eval h.closed _)]
  show eval Tables.step (statement .allOids >>= _) t = _
  rw [eval_bind_of_ok (statement_eval h.closed _)]
  show (Except.ok (List.mergeSort (assemble (t.projects.entries.map Tables.projectRow) []
    ((t.oids.entries.map Tables.oidRow).filter fun row => !row.pending)) _), t) = _
  rw [hlist, List.mergeSort_of_pairwise hsorted]

/-- **Undisturbed operations over open column tables implement the ledger.** -/
theorem implements :
    Implements storage Tables.step (fun _ => True) (fun _ => True) Tells where
  passwordHash {l s} h user := by
    show s.step (.findUser user) = _
    rw [Tables.step_of_open h.closed, ← h.users]
    rfl
  find h _ oid := by
    rw [← h.found]
    exact findObject_eval h.closed oid
  register {l s} h _ r _ := by
    cases he : l.records.get? r.oid with
    | none => exact h.register_new he
    | some e => exact h.register_known he
  commit h _ oid := h.commit oid
  insertUser h name hash hnone := h.addUser hash hnone
  deleteUser {l s} h name := by
    refine ⟨{ s with users := s.users.erase name }, statement_eval h.closed _, h.closed, ?_, h.rows,
      h.project, h.holds⟩
    unfold Ledger.deleteUser
    rw [← h.users]
  userNames {l s} h := by
    show eval Tables.step (statement .allUsers >>= fun names => pure (sortNames names)) s = _
    rw [eval_bind_of_ok (statement_eval h.closed _), ← h.users]
    show (Except.ok (sortNames s.users.keys), s) = _
    rw [sortNames_of_ascending (Table.keys_ascending s.users)]
  ensureProject h name := ⟨_, statement_eval h.closed _, h.addProject name⟩
  projects h _ := h.projects
  objects h _ := h.objects

/-- New tables tell of the empty ledger. -/
theorem tells_empty : Tells Ledger.empty {} := by
  refine ⟨rfl, rfl, rfl, fun _ => Iff.rfl, fun m name oid => ?_⟩
  have hnone : ({} : Tables).holds m name oid = false := by cases m <;> rfl
  refine iff_of_false (by rw [hnone]; simp) ?_
  rintro ⟨e, he, -⟩
  exact absurd he (by simp [Ledger.empty, EmptyCollection.emptyCollection])

end Depot.Column
