import Depot.Files.Tree

/-!
# What file operations leave as it was

What stands at a path is found through the entries on the way to it. An operation takes away or
replaces no entries but those at the paths it works on, so whatever else stood stays where it was.

Headlines
* **`look_of_entries`**: what stands at a path stands there as long as the entries on the way do.
* **`keeps_makeDirs`**, **`keeps_createNew`**: what is made anew takes the place of nothing.
* **`keeps_append`**, **`keeps_remove`**, **`keeps_rename`**: the other operations keep what stands
  at a path unless they work on a path on the way.
* **`look_createNew`**, **`look_append`**, **`look_rename`**: what stands at the path that an
  operation writes.
* **`Alters`**: an operation alters no entries but the one at a path; **`Alters.keeps`**: so it
  keeps what stands elsewhere.
* **`find`**: what an operation finds at a path that the system has to take first.
-/

namespace Depot.Files

namespace Path

theorem size_append (p q : Path) : size (p ++ q) = size p + size q := by
  induction p with
  | nil => exact (Nat.zero_add _).symm
  | cons name p ih =>
    rw [List.cons_append]
    simp only [size, ih]
    omega

/-- The system takes every path on the way to one that it takes. -/
theorem Fits.of_isPrefix {p q : Path} (h : Fits p) (hq : q <+: p) : Fits q := by
  obtain ⟨rest, rfl⟩ := hq
  unfold Fits at h ⊢
  rw [size_append] at h
  omega

end Path

/-- The system takes an operation on one path just if it takes that. -/
theorem Call.fits_iff_of_paths {c : Call} {p : Path} (h : c.paths = [p]) :
    c.Fits ↔ Path.Fits p := by
  unfold Fits
  rw [h]
  exact List.forall_mem_singleton

namespace Tree

/-- What stands at a path in the first tree stands there in the second one. -/
def Keeps (p : Path) (t u : Tree) : Prop := ∀ e, t.look p = .ok e → u.look p = .ok e

theorem Keeps.refl (p : Path) (t : Tree) : Keeps p t t := fun _ h => h

theorem Keeps.trans {p : Path} {t u v : Tree} (htu : Keeps p t u) (huv : Keeps p u v) :
    Keeps p t v := fun e h => huv e (htu e h)

variable {t u : Tree} {p q : Path} {e : Entry}

/-! ### Walking -/

theorem walkFrom_append (t : Tree) (place : Path) (e : Entry) (xs ys : Path) :
    t.walkFrom place e (xs ++ ys) =
      match t.walkFrom place e xs with
      | .error fault => .error fault
      | .ok next => t.walkFrom (place ++ xs) next ys := by
  induction xs generalizing place e with
  | nil => rw [List.nil_append, List.append_nil]; rfl
  | cons name xs ih =>
    rw [List.cons_append]
    cases e with
    | file b => rfl
    | directory =>
      simp only [walkFrom]
      by_cases hname : tooLong name = true
      · rw [if_pos hname, if_pos hname]
      · rw [if_neg hname, if_neg hname]
        cases t.entries.get? (place ++ [name]) with
        | none => rfl
        | some next =>
          simp only [ih, List.append_assoc, List.singleton_append]

/-- Below a directory a look goes on from there. -/
theorem look_below (h : t.look p = .ok .directory) (rest : Path) :
    t.look (p ++ rest) = t.walkFrom p .directory rest := by
  unfold look at h ⊢
  rw [walkFrom_append, h]
  rfl

/-- What stands at a path one name longer. -/
theorem look_concat (t : Tree) (p : Path) (name : String) :
    t.look (p ++ [name]) =
      match t.look p with
      | .error fault => .error fault
      | .ok (.file _) => .error .notDirectory
      | .ok .directory =>
        if tooLong name then .error .nameTooLong
        else
          match t.entries.get? (p ++ [name]) with
          | some e => .ok e
          | none => .error .notFound := by
  unfold look
  rw [walkFrom_append, List.nil_append]
  cases t.walkFrom [] .directory p with
  | error fault => rfl
  | ok e =>
    cases e with
    | file b => rfl
    | directory => rfl

theorem walkFrom_of_entries {place rest : Path} {above : Entry}
    (h : ∀ x, x <+: rest → ∀ e, t.entries.get? (place ++ x) = some e →
      u.entries.get? (place ++ x) = some e)
    (hp : t.walkFrom place above rest = .ok e) : u.walkFrom place above rest = .ok e := by
  induction rest generalizing place above with
  | nil => exact hp
  | cons name rest ih =>
    cases above with
    | file b => exact hp
    | directory =>
      unfold walkFrom at hp ⊢
      by_cases hname : tooLong name = true
      · rw [if_pos hname] at hp
        exact absurd hp (by simp)
      · rw [if_neg hname] at hp ⊢
        cases hentry : t.entries.get? (place ++ [name]) with
        | none =>
          rw [hentry] at hp
          exact absurd hp (by simp)
        | some next =>
          rw [h [name] (List.prefix_append [name] rest) next hentry]
          rw [hentry] at hp
          refine ih (fun x hx e he => ?_) hp
          rw [List.append_assoc] at he ⊢
          exact h (name :: x) ((List.prefix_cons_inj name).mpr hx) e he

/-- **What stands at a path stands there as long as the entries on the way do.** -/
theorem look_of_entries
    (h : ∀ x, x <+: p → ∀ e, t.entries.get? x = some e → u.entries.get? x = some e)
    (hp : t.look p = .ok e) : u.look p = .ok e :=
  walkFrom_of_entries h hp

/-- What stands at a path other than the root is an entry of a directory. -/
theorem look_eq_ok_iff (hp : p ≠ []) : t.look p = .ok e ↔ t.lookForNew p = .ok (some e) := by
  obtain ⟨p, name, rfl⟩ : ∃ p' name, p = p' ++ [name] :=
    ⟨p.dropLast, p.getLast hp, (List.dropLast_concat_getLast hp).symm⟩
  unfold lookForNew
  rw [look_concat, List.dropLast_concat, List.getLast?_concat]
  cases t.look p with
  | error fault => simp
  | ok above =>
    cases above with
    | file b => simp
    | directory =>
      simp only [Option.any_some]
      by_cases hname : tooLong name = true
      · rw [if_pos hname, if_pos hname]
        simp
      · rw [if_neg hname, if_neg hname]
        cases t.entries.get? (p ++ [name]) <;> simp

/-- Something may be made in a directory that is there, under a name that is not too long. -/
theorem lookForNew_eq_ok_iff {r : Option Entry} : t.lookForNew p = .ok r ↔
    t.look p.dropLast = .ok .directory ∧ p.getLast?.any tooLong = false ∧
      t.entries.get? p = r := by
  unfold lookForNew
  cases t.look p.dropLast with
  | error fault => simp
  | ok above =>
    cases above with
    | file b => simp
    | directory => cases p.getLast?.any tooLong <;> simp

/-- A file stands below the root. -/
theorem ne_nil_of_file {b : Bytes} (h : t.look p = .ok (.file b)) : p ≠ [] := by
  rintro rfl
  exact absurd h (by simp [look, walkFrom])

/-! ### Single entries -/

theorem look_put_of_not_isPrefix {e' : Entry} (hq : ¬ q <+: p) (hp : t.look p = .ok e) :
    (t.put q e').look p = .ok e := by
  refine look_of_entries (fun x hx e he => ?_) hp
  unfold put
  rw [Table.get?_insert, if_neg]
  · exact he
  · rintro rfl
    exact hq hx

theorem look_erase_of_not_isPrefix (hq : ¬ q <+: p) (hp : t.look p = .ok e) :
    (t.erase q).look p = .ok e := by
  refine look_of_entries (fun x hx e he => ?_) hp
  unfold erase
  rw [Table.get?_erase, if_neg]
  · exact he
  · rintro rfl
    exact hq hx

theorem lookForNew_erase_of_not_isPrefix {r : Option Entry} (hq : ¬ q <+: p)
    (hp : t.lookForNew p = .ok r) : (t.erase q).lookForNew p = .ok r := by
  obtain ⟨habove, hname, hentry⟩ := lookForNew_eq_ok_iff.mp hp
  have hq' : ¬ q <+: p.dropLast := fun h => hq (h.trans (List.dropLast_prefix p))
  refine lookForNew_eq_ok_iff.mpr ⟨look_erase_of_not_isPrefix hq' habove, hname, ?_⟩
  unfold erase
  rw [Table.get?_erase, if_neg]
  · exact hentry
  · rintro rfl
    exact hq (List.prefix_refl _)

/-- What is put where something may be made stands there. -/
theorem look_put_self {r : Option Entry} (e' : Entry) (hp : p ≠ [])
    (h : t.lookForNew p = .ok r) : (t.put p e').look p = .ok e' := by
  obtain ⟨habove, hname, -⟩ := lookForNew_eq_ok_iff.mp h
  have hshort : ¬ p <+: p.dropLast := by
    intro hstarts
    have hle := hstarts.length_le
    have hpos := List.length_pos_iff.mpr hp
    rw [List.length_dropLast] at hle
    omega
  refine (look_eq_ok_iff hp).mpr (lookForNew_eq_ok_iff.mpr
    ⟨look_put_of_not_isPrefix hshort habove, hname, ?_⟩)
  unfold put
  rw [Table.get?_insert, if_pos rfl]

/-! ### Operations -/

theorem get?_makeDirsFrom {x : Path} (place rest : Path) (h : t.entries.get? x = some e) :
    (t.makeDirsFrom place rest).2.entries.get? x = some e := by
  induction rest generalizing t place with
  | nil => exact h
  | cons name rest ih =>
    unfold makeDirsFrom
    simp only
    by_cases hname : tooLong name = true
    · rw [if_pos hname]
      exact h
    · rw [if_neg hname]
      cases hentry : t.entries.get? (place ++ [name]) with
      | none =>
        refine ih _ ?_
        unfold put
        rw [Table.get?_insert, if_neg]
        · exact h
        · rintro rfl
          exact absurd (hentry.symm.trans h) (by simp)
      | some next =>
        cases next with
        | directory => exact ih _ h
        | file b => exact h

/-- Directories are made where nothing stands. -/
theorem keeps_makeDirs (t : Tree) (p q : Path) : Keeps p t (t.makeDirs q).2 := by
  intro e hp
  exact look_of_entries (fun x _ e he => get?_makeDirsFrom [] q he) hp

/-- A new file is made where nothing stands. -/
theorem keeps_createNew (t : Tree) (p q : Path) : Keeps p t (t.createNew q).2 := by
  intro e hp
  unfold createNew
  split
  · exact hp
  · exact hp
  · rename_i hnew
    obtain ⟨-, -, hnone⟩ := lookForNew_eq_ok_iff.mp hnew
    refine look_of_entries (fun x _ e he => ?_) hp
    unfold put
    rw [Table.get?_insert, if_neg]
    · exact he
    · rintro rfl
      exact absurd (hnone.symm.trans he) (by simp)

theorem keeps_append (t : Tree) (b : Bytes) (hq : ¬ q <+: p) : Keeps p t (t.append q b).2 := by
  intro e hp
  unfold append
  split
  · exact hp
  · exact hp
  · exact look_put_of_not_isPrefix hq hp

theorem keeps_remove (t : Tree) (hq : ¬ q <+: p) : Keeps p t (t.remove q).2 := by
  intro e hp
  unfold remove
  split
  · exact hp
  · exact hp
  · exact look_erase_of_not_isPrefix hq hp

theorem keeps_rename (t : Tree) {source target : Path} (hsource : ¬ source <+: p)
    (htarget : ¬ target <+: p) : Keeps p t (t.rename source target).2 := by
  intro e hp
  unfold rename
  split
  · exact hp
  · exact hp
  · exact hp
  · exact hp
  · exact look_put_of_not_isPrefix htarget (look_erase_of_not_isPrefix hsource hp)

/-- A new file stands at its path, without bytes. -/
theorem look_createNew (hp : p ≠ []) (h : (t.createNew p).1 = .ok ()) :
    (t.createNew p).2.look p = .ok (.file []) := by
  unfold createNew at h ⊢
  split at h
  · exact absurd h (by simp)
  · exact absurd h (by simp)
  · rename_i hnew
    exact look_put_self _ hp hnew

/-- Bytes can be added to a file that stands. -/
theorem look_append {old : Bytes} (b : Bytes) (h : t.look p = .ok (.file old)) :
    (t.append p b).1 = .ok () ∧ (t.append p b).2.look p = .ok (.file (old ++ b)) := by
  have hp := ne_nil_of_file h
  unfold append
  rw [h]
  exact ⟨rfl, look_put_self _ hp ((look_eq_ok_iff hp).mp h)⟩

/-- A file that is moved stands at its new path. -/
theorem look_rename {b : Bytes} (hq : q ≠ []) (hpq : ¬ p <+: q) (hp : t.look p = .ok (.file b))
    (h : (t.rename p q).1 = .ok ()) : (t.rename p q).2.look q = .ok (.file b) := by
  unfold rename at h ⊢
  rw [hp] at h ⊢
  cases hnew : t.lookForNew q with
  | error fault =>
    rw [hnew] at h
    exact absurd h (by simp)
  | ok r =>
    have hmoved := look_put_self (.file b) hq (lookForNew_erase_of_not_isPrefix hpq hnew)
    rw [hnew] at h
    cases r with
    | none => exact hmoved
    | some there =>
      cases there with
      | file old => exact hmoved
      | directory => exact absurd h (by simp)

/-- A file that cannot be moved leaves the tree as it was. -/
theorem rename_of_error {fault : Fault} (h : (t.rename p q).1 = .error fault) :
    (t.rename p q).2 = t := by
  unfold rename at h ⊢
  split at h
  · rfl
  · rfl
  · rfl
  · rfl
  · exact absurd h (by simp)

/-! ### All entries -/

/-- What stands at a path is an entry. -/
theorem get?_of_look (hp : p ≠ []) (h : t.look p = .ok e) : t.entries.get? p = some e :=
  (lookForNew_eq_ok_iff.mp ((look_eq_ok_iff hp).mp h)).2.2

/-- The two trees have the same entries but for the one at a path, where no directory is made. -/
structure Alters (p : Path) (t u : Tree) : Prop where
  elsewhere : ∀ q, q ≠ p → u.entries.get? q = t.entries.get? q
  here : u.entries.get? p = some .directory → t.entries.get? p = some .directory

theorem Alters.refl (p : Path) (t : Tree) : Alters p t t := ⟨fun _ _ => rfl, fun h => h⟩

/-- What stands at a path that does not lead through the altered one stands there still. -/
theorem Alters.keeps (h : Alters q t u) (hq : ¬ q <+: p) : Keeps p t u := by
  intro e hp
  refine look_of_entries (fun x hx e he => ?_) hp
  rw [h.elsewhere x (fun hxq => hq (hxq ▸ hx))]
  exact he

theorem alters_put (t : Tree) (p : Path) (b : Bytes) : Alters p t (t.put p (.file b)) := by
  unfold put
  refine ⟨fun q hq => ?_, fun h => ?_⟩
  · rw [Table.get?_insert, if_neg hq]
  · rw [Table.get?_insert, if_pos rfl] at h
    exact absurd h (by simp)

theorem alters_erase (t : Tree) (p : Path) : Alters p t (t.erase p) := by
  unfold erase
  refine ⟨fun q hq => ?_, fun h => ?_⟩
  · rw [Table.get?_erase, if_neg hq]
  · rw [Table.get?_erase, if_pos rfl] at h
    exact absurd h (by simp)

theorem alters_createNew (t : Tree) (p : Path) : Alters p t (t.createNew p).2 := by
  unfold createNew
  split
  · exact Alters.refl p t
  · exact Alters.refl p t
  · exact alters_put t p []

theorem alters_append (t : Tree) (p : Path) (b : Bytes) : Alters p t (t.append p b).2 := by
  unfold append
  split
  · exact Alters.refl p t
  · exact Alters.refl p t
  · exact alters_put t p _

theorem alters_remove (t : Tree) (p : Path) : Alters p t (t.remove p).2 := by
  unfold remove
  split
  · exact Alters.refl p t
  · exact Alters.refl p t
  · exact alters_erase t p

/-- A new file is not made in vain. -/
theorem createNew_of_error {fault : Fault} (h : (t.createNew p).1 = .error fault) :
    (t.createNew p).2 = t := by
  unfold createNew at h ⊢
  split at h
  · rfl
  · rfl
  · exact absurd h (by simp)

/-- A file that is removed is no entry any more. -/
theorem get?_remove_self {b : Bytes} (h : t.look p = .ok (.file b)) :
    (t.remove p).2.entries.get? p = none := by
  unfold remove
  rw [h]
  show (t.entries.erase p).get? p = none
  rw [Table.get?_erase, if_pos rfl]

/-- Where there is no entry, nothing is removed. -/
theorem remove_of_get?_none (hp : p ≠ []) (h : t.entries.get? p = none) :
    (t.remove p).2 = t := by
  unfold remove
  cases hlook : t.look p with
  | error fault => rfl
  | ok e => exact absurd ((get?_of_look hp hlook).symm.trans h) (by simp)

/-- A file that is moved is an entry at its new path instead of its old one. -/
theorem rename_of_ok {b : Bytes} (hp : t.look p = .ok (.file b))
    (h : (t.rename p q).1 = .ok ()) :
    (t.rename p q).2 = (t.erase p).put q (.file b) := by
  unfold rename at h ⊢
  rw [hp] at h ⊢
  cases hnew : t.lookForNew q with
  | error fault =>
    rw [hnew] at h
    exact absurd h (by simp)
  | ok r =>
    rw [hnew] at h
    cases r with
    | none => rfl
    | some there =>
      cases there with
      | file old => rfl
      | directory => exact absurd h (by simp)

/-- An entry elsewhere than where a file is moved to was there before. -/
theorem get?_of_rename {x : Path} (hx : x ≠ q) (h : (t.rename p q).2.entries.get? x = some e) :
    t.entries.get? x = some e := by
  unfold rename at h
  split at h
  · exact h
  · exact h
  · exact h
  · exact h
  · rw [(alters_put _ _ _).elsewhere x hx, erase, Table.get?_erase] at h
    split at h
    · exact absurd h (by simp)
    · exact h

/-- What is an entry after a file is moved is that file or was one before. -/
theorem get?_rename_cases {b : Bytes} {x : Path} (hp : t.look p = .ok (.file b))
    (h : (t.rename p q).1 = .ok ()) (hx : (t.rename p q).2.entries.get? x = some e) :
    (x = q ∧ e = .file b) ∨ t.entries.get? x = some e := by
  by_cases hxq : x = q
  · subst hxq
    rw [rename_of_ok hp h] at hx
    unfold put at hx
    rw [Table.get?_insert, if_pos rfl] at hx
    exact Or.inl ⟨rfl, (Option.some.inj hx).symm⟩
  · exact Or.inr (get?_of_rename hxq hx)

/-- Directories are made on the way only. -/
theorem get?_makeDirsFrom_of_not_isPrefix {x : Path} (place rest : Path)
    (h : ¬ x <+: place ++ rest) :
    (t.makeDirsFrom place rest).2.entries.get? x = t.entries.get? x := by
  induction rest generalizing t place with
  | nil => rfl
  | cons name rest ih =>
    have hrest : ¬ x <+: (place ++ [name]) ++ rest := by
      rw [List.append_assoc]
      exact h
    unfold makeDirsFrom
    simp only
    by_cases hname : tooLong name = true
    · rw [if_pos hname]
    · rw [if_neg hname]
      cases t.entries.get? (place ++ [name]) with
      | none =>
        refine (ih _ hrest).trans ?_
        unfold put
        rw [Table.get?_insert, if_neg]
        rintro rfl
        exact hrest (List.prefix_append _ _)
      | some next =>
        cases next with
        | directory => exact ih _ hrest
        | file b => rfl

/-- No file is made with the directories. -/
theorem get?_of_makeDirsFrom_eq_file {x : Path} {b : Bytes} (place rest : Path)
    (h : (t.makeDirsFrom place rest).2.entries.get? x = some (.file b)) :
    t.entries.get? x = some (.file b) := by
  induction rest generalizing t place with
  | nil => exact h
  | cons name rest ih =>
    unfold makeDirsFrom at h
    simp only at h
    by_cases hname : tooLong name = true
    · rw [if_pos hname] at h
      exact h
    · rw [if_neg hname] at h
      cases hentry : t.entries.get? (place ++ [name]) with
      | none =>
        rw [hentry] at h
        have hput := ih _ h
        unfold put at hput
        rw [Table.get?_insert] at hput
        split at hput
        · exact absurd hput (by simp)
        · exact hput
      | some next =>
        rw [hentry] at h
        cases next with
        | directory => exact ih _ h
        | file c => exact h

/-! ### Operations that succeed -/

/-- Whatever stands below a path, the path is that of a directory. -/
theorem look_of_isPrefix {x : Path} (h : t.look p = .ok e) (hx : x <+: p) (hne : x ≠ p) :
    t.look x = .ok .directory := by
  obtain ⟨y, rfl⟩ := hx
  unfold look at h ⊢
  rw [walkFrom_append] at h
  cases hbefore : t.walkFrom [] .directory x with
  | error fault =>
    rw [hbefore] at h
    exact absurd h (by simp)
  | ok above =>
    rw [hbefore] at h
    cases above with
    | directory => rfl
    | file b =>
      cases y with
      | nil => exact absurd (List.append_nil x).symm hne
      | cons name y => exact absurd h (by simp [walkFrom])

/-- No way to a directory leads through what is no directory. -/
theorem not_isPrefix_of_look_directory {x : Path} (hx : x ≠ [])
    (h : t.entries.get? x ≠ some .directory) (hp : t.look p = .ok .directory) : ¬ x <+: p := by
  intro hstarts
  by_cases hne : x = p
  · subst hne
    exact h (get?_of_look hx hp)
  · exact h (get?_of_look hx (look_of_isPrefix hp hstarts hne))

/-- A new file is made in a directory that is there, under a name that is not too long. -/
theorem createNew_eq_ok (habove : t.look p.dropLast = .ok .directory)
    (hname : p.getLast?.any tooLong = false) (h : t.entries.get? p = none) :
    (t.createNew p).1 = .ok () := by
  unfold createNew
  rw [lookForNew_eq_ok_iff.mpr ⟨habove, hname, h⟩]

/-- A file is moved to a place in a directory that is there, unless a directory stands there. -/
theorem rename_eq_ok {b : Bytes} (hp : t.look p = .ok (.file b))
    (habove : t.look q.dropLast = .ok .directory) (hname : q.getLast?.any tooLong = false)
    (h : t.entries.get? q ≠ some .directory) : (t.rename p q).1 = .ok () := by
  unfold rename
  rw [hp, lookForNew_eq_ok_iff.mpr ⟨habove, hname, rfl⟩]
  cases hentry : t.entries.get? q with
  | none => rfl
  | some there =>
    cases there with
    | file old => rfl
    | directory => exact absurd hentry h

/-- Directories that are there need not be made. -/
theorem makeDirsFrom_of_walkFrom {place : Path} (xs rest : Path)
    (h : t.walkFrom place .directory xs = .ok .directory) :
    t.makeDirsFrom place (xs ++ rest) = t.makeDirsFrom (place ++ xs) rest := by
  induction xs generalizing place with
  | nil => rw [List.nil_append, List.append_nil]
  | cons name xs ih =>
    unfold walkFrom at h
    rw [List.cons_append]
    conv => lhs; unfold makeDirsFrom
    simp only at h ⊢
    by_cases hname : tooLong name = true
    · rw [if_pos hname] at h
      exact absurd h (by simp)
    · rw [if_neg hname] at h ⊢
      cases hentry : t.entries.get? (place ++ [name]) with
      | none =>
        rw [hentry] at h
        exact absurd h (by simp)
      | some next =>
        rw [hentry] at h
        cases next with
        | file b => cases xs <;> exact absurd h (by simp [walkFrom])
        | directory =>
          refine (ih h).trans ?_
          rw [List.append_assoc, List.singleton_append]

/-- Directories are made where no file stands in the way and no name is too long. -/
theorem makeDirsFrom_eq_ok {place rest : Path} (hnames : ∀ name ∈ rest, tooLong name = false)
    (hfree : ∀ x b, x <+: rest → x ≠ [] → t.entries.get? (place ++ x) ≠ some (.file b)) :
    (t.makeDirsFrom place rest).1 = .ok () := by
  induction rest generalizing t place with
  | nil => rfl
  | cons name rest ih =>
    have hfirst := fun b => hfree [name] b (List.prefix_append [name] rest) (by simp)
    have hlater : ∀ x b, x <+: rest → x ≠ [] →
        t.entries.get? (place ++ [name] ++ x) ≠ some (.file b) := by
      intro x b hx _
      rw [List.append_assoc]
      exact hfree (name :: x) b ((List.prefix_cons_inj name).mpr hx) (by simp)
    have hnames' : ∀ name ∈ rest, tooLong name = false := fun n hn =>
      hnames n (List.mem_cons_of_mem name hn)
    unfold makeDirsFrom
    simp only
    rw [if_neg (by simp [hnames name List.mem_cons_self])]
    cases hentry : t.entries.get? (place ++ [name]) with
    | none =>
      refine ih hnames' fun x b hx hne => ?_
      unfold put
      rw [Table.get?_insert]
      split
      · simp
      · exact hlater x b hx hne
    | some next =>
      cases next with
      | directory => exact ih hnames' hlater
      | file b => exact absurd hentry (hfirst b)

/-- Directories that are made are there. -/
theorem look_makeDirsFrom {place rest : Path} (habove : t.look place = .ok .directory)
    (h : (t.makeDirsFrom place rest).1 = .ok ()) :
    (t.makeDirsFrom place rest).2.look (place ++ rest) = .ok .directory := by
  induction rest generalizing t place with
  | nil =>
    rw [List.append_nil]
    exact habove
  | cons name rest ih =>
    have happend : place ++ name :: rest = place ++ [name] ++ rest := by
      rw [List.append_assoc, List.singleton_append]
    unfold makeDirsFrom at h ⊢
    simp only at h ⊢
    rw [happend]
    by_cases hname : tooLong name = true
    · rw [if_pos hname] at h
      exact absurd h (by simp)
    · rw [if_neg hname] at h ⊢
      cases hentry : t.entries.get? (place ++ [name]) with
      | none =>
        rw [hentry] at h
        refine ih (look_put_self .directory (by simp) (lookForNew_eq_ok_iff.mpr
          ⟨?_, ?_, hentry⟩)) h
        · rw [List.dropLast_concat]
          exact habove
        · rw [List.getLast?_concat]
          simpa using hname
      | some next =>
        rw [hentry] at h
        cases next with
        | file b => exact absurd h (by simp)
        | directory =>
          refine ih ?_ h
          rw [look_concat, habove]
          simp only
          rw [if_neg hname, hentry]

theorem look_makeDirs (h : (t.makeDirs p).1 = .ok ()) :
    (t.makeDirs p).2.look p = .ok .directory := by
  have hroot : t.look [] = .ok .directory := rfl
  exact look_makeDirsFrom hroot h

/-- Nothing is done to make directories that are there. -/
theorem makeDirs_of_look (h : t.look p = .ok .directory) : t.makeDirs p = (.ok (), t) := by
  have hthere := makeDirsFrom_of_walkFrom p [] h
  rw [List.append_nil, List.nil_append] at hthere
  exact hthere

/-- On the way to where nothing stands there are directories, or nothing. -/
theorem walkFrom_eq_notFound {place rest : Path} (hne : rest ≠ [])
    (hnames : ∀ name ∈ rest, tooLong name = false)
    (hfree : ∀ x b, x <+: rest → x ≠ [] → t.entries.get? (place ++ x) ≠ some (.file b))
    (hnone : t.entries.get? (place ++ rest) = none) :
    t.walkFrom place .directory rest = .error .notFound := by
  induction rest generalizing place with
  | nil => exact absurd rfl hne
  | cons name rest ih =>
    have happend : place ++ name :: rest = place ++ [name] ++ rest := by
      rw [List.append_assoc, List.singleton_append]
    unfold walkFrom
    rw [if_neg (by simp [hnames name List.mem_cons_self])]
    cases hentry : t.entries.get? (place ++ [name]) with
    | none => rfl
    | some next =>
      cases next with
      | file b => exact absurd hentry (hfree [name] b (List.prefix_append [name] rest) (by simp))
      | directory =>
        have hrest : rest ≠ [] := by
          rintro rfl
          exact absurd (hentry.symm.trans hnone) (by simp)
        rw [happend] at hnone
        refine ih hrest (fun n hn => hnames n (List.mem_cons_of_mem name hn)) 
          (fun x b hx _ => ?_) hnone
        rw [List.append_assoc]
        exact hfree (name :: x) b ((List.prefix_cons_inj name).mpr hx) (by simp)

/-! ### Paths that the system takes -/

section

variable {c : Call}

theorem step_of_fits (h : c.Fits) : t.step c = t.perform c := if_pos h

/-- A path that the system does not take changes nothing. -/
theorem step_of_not_fits (h : ¬ c.Fits) : t.step c = (.error .nameTooLong, t) := if_neg h

/-- A file that is open has no path any more. -/
theorem step_append (t : Tree) (p : Path) (b : Bytes) : t.step (.append p b) = t.append p b :=
  step_of_fits (List.forall_mem_nil _)

theorem step_of_ok {a : c.Answer} (h : (t.step c).1 = .ok a) :
    c.Fits ∧ (t.perform c).1 = .ok a ∧ (t.step c).2 = (t.perform c).2 := by
  by_cases hfits : c.Fits
  · rw [step_of_fits hfits] at h ⊢
    exact ⟨hfits, h, rfl⟩
  · rw [step_of_not_fits hfits] at h
    exact nomatch h

/-- What holds of a tree and of the one after an operation whose paths are taken holds in any
case. -/
theorem step_induction {motive : Tree → Prop} (hrefused : motive t)
    (hperformed : motive (t.perform c).2) : motive (t.step c).2 := by
  by_cases hfits : c.Fits
  · rw [step_of_fits hfits]
    exact hperformed
  · rw [step_of_not_fits hfits]
    exact hrefused

/-- A file that cannot be moved leaves the tree as it was. -/
theorem step_rename_of_error {fault : Fault} (h : (t.step (.rename p q)).1 = .error fault) :
    (t.step (.rename p q)).2 = t := by
  by_cases hfits : (Call.rename p q).Fits
  · rw [step_of_fits hfits] at h ⊢
    exact rename_of_error h
  · rw [step_of_not_fits hfits]

/-- **What an operation finds** at a path that it is given. -/
def find (t : Tree) (p : Path) : Except Fault Entry :=
  if Path.Fits p then t.look p else .error .nameTooLong

theorem find_of_fits (h : Path.Fits p) : t.find p = t.look p := if_pos h

theorem find_of_not_fits (h : ¬ Path.Fits p) : t.find p = .error .nameTooLong := if_neg h

theorem step_status (t : Tree) (p : Path) : t.step (.status p) =
    ((t.find p).map fun
      | .directory => .directory t.directoryLength
      | .file b => .file b.length, t) := by
  have hpath : (Call.status p).Fits ↔ Path.Fits p := Call.fits_iff_of_paths rfl
  by_cases hfits : Path.Fits p
  · rw [step_of_fits (hpath.mpr hfits), find_of_fits hfits]
    rfl
  · rw [step_of_not_fits (mt hpath.mp hfits), find_of_not_fits hfits]
    rfl

theorem step_read (t : Tree) (p : Path) : t.step (.read p) =
    (match t.find p with
      | .error e => .error e
      | .ok .directory => .error .isDirectory
      | .ok (.file b) => .ok b, t) := by
  have hpath : (Call.read p).Fits ↔ Path.Fits p := Call.fits_iff_of_paths rfl
  by_cases hfits : Path.Fits p
  · rw [step_of_fits (hpath.mpr hfits), find_of_fits hfits]
    rfl
  · rw [step_of_not_fits (mt hpath.mp hfits), find_of_not_fits hfits]

end

/-! ### Listings -/

/-- A directory whose listing is empty has nothing below it. -/
theorem get?_of_listing_eq_nil {base : Path} (h : t.listing base = []) (hp : base <+: p)
    (hne : p ≠ base) : t.entries.get? p = none := by
  have hshorter : base.length < p.length :=
    Nat.lt_of_le_of_ne hp.length_le fun hlength => hne (hp.eq_of_length hlength).symm
  cases hentry : t.entries.get? p with
  | none => rfl
  | some e =>
    unfold listing at h
    have hlength := congrArg List.length h
    rw [List.length_mergeSort] at hlength
    have hskip := List.filterMap_eq_nil_iff.mp (List.eq_nil_of_length_eq_zero hlength) (p, e)
      (Table.get?_eq_some_iff.mp hentry)
    simp only at hskip
    rw [if_pos ⟨List.isPrefixOf_iff_prefix.mpr hp, hshorter⟩] at hskip
    exact absurd hskip (by simp)

end Tree

end Depot.Files
