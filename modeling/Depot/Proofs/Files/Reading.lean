import Depot.Proofs.Files.Concurrent

/-!
# What readers find

Whether there is a file for an object, what its content is and whether that is right are asked of
one path, in three ways. Below a directory where nothing but uploads has been, the path leads past
no file, so a look at it comes to one of few things, and each of them decides all three answers.
They agree but for two kinds of ids that are no digests: one of two characters, which is the name of
a directory as soon as there has been an upload of an object that it begins, and one with a name in
its key that no file can have or with a path that the system does not take.

Headlines
* **`Sight`** is what a look at the place of an object can come to; **`Tidy.sight`**: it comes to
  nothing else.
* **`readers_find`**: the three answers, in every run of uploads.
* **`directory_in_the_way`**: an object that is neither there nor absent.
-/

namespace Depot.Files

open Content (Digest checkOid)
open Registry (Object)

variable {base : Path} {us : List Upload} {rooted : Prop} {oid : String} {t : Tree}

/-- A path leads to an entry or to nothing, unless a name is too long or a file is on the way. -/
theorem Tree.walkFrom_cases (t : Tree) (place rest : Path) :
    (∃ e, t.walkFrom place .directory rest = .ok e) ∨
      t.walkFrom place .directory rest = .error .notFound ∨
      (t.walkFrom place .directory rest = .error .nameTooLong ∧
        ∃ name ∈ rest, tooLong name = true) ∨
      t.walkFrom place .directory rest = .error .notDirectory ∧
        ∃ x b, x <+: rest.dropLast ∧ x ≠ [] ∧
          t.walkFrom place .directory x = .ok (.file b) := by
  induction rest generalizing place with
  | nil => exact Or.inl ⟨.directory, rfl⟩
  | cons name rest ih =>
    simp only [walkFrom]
    by_cases hname : tooLong name = true
    · rw [if_pos hname]
      exact Or.inr (Or.inr (Or.inl ⟨rfl, name, List.mem_cons_self, hname⟩))
    rw [if_neg hname]
    cases hentry : t.entries.get? (place ++ [name]) with
    | none => exact Or.inr (Or.inl rfl)
    | some next =>
      by_cases hlast : rest = []
      · subst hlast
        exact Or.inl ⟨next, rfl⟩
      have hway : (name :: rest).dropLast = name :: rest.dropLast :=
        List.dropLast_cons_of_ne_nil hlast
      have hfirst : ∀ x, t.walkFrom place .directory (name :: x) =
          t.walkFrom (place ++ [name]) next x := by
        intro x
        simp only [walkFrom, if_neg hname, hentry]
      rw [hway]
      cases next with
      | file b =>
        refine Or.inr (Or.inr (Or.inr ⟨?_, [name], b, ?_, List.cons_ne_nil _ _, hfirst []⟩))
        · obtain ⟨second, rest, rfl⟩ := List.exists_cons_of_ne_nil hlast
          rfl
        · exact List.prefix_append [name] rest.dropLast
      | directory =>
        refine (ih (place ++ [name])).imp id (Or.imp id (Or.imp ?_ ?_))
        · rintro ⟨herror, long, hmem, hlong⟩
          exact ⟨herror, long, List.mem_cons_of_mem name hmem, hlong⟩
        · rintro ⟨herror, x, b, hx, -, hfile⟩
          exact ⟨herror, name :: x, b, (List.prefix_cons_inj name).mpr hx, List.cons_ne_nil _ _,
            (hfirst x).trans hfile⟩

/-! ### What there is to be found -/

/-- What a look at the place of an object comes to. -/
inductive Sight (base : Path) (oid : String) (t : Tree) : Prop where
  /-- The file of the object. -/
  | file (b : Bytes) (stands : t.look (locate base oid) = .ok (.file b))
    (digest : Sha256.hexDigest b = oid)
  /-- A directory on the way to other objects. -/
  | directory (stands : t.look (locate base oid) = .ok .directory)
    (two : oid.toList.length = 2)
  /-- Nothing. -/
  | nothing (absent : t.look (locate base oid) = .error .notFound)
  /-- A name that nothing can have. -/
  | unnameable (refused : t.look (locate base oid) = .error .nameTooLong)
    (long : ∃ name ∈ Content.keyParts oid, tooLong name = true)

/-- A directory has the place of an object only if the object's id has two characters. -/
theorem Tidy.length_of_directory (h : Tidy base us rooted t)
    (hlook : t.look (locate base oid) = .ok .directory) : oid.toList.length = 2 := by
  obtain ⟨hbelow, hne⟩ := isPrefix_locate base oid
  have hentry := Tree.get?_of_look (locate_ne_nil base oid) hlook
  obtain ⟨oid', -, hstarts⟩ := h.directories _ hbelow hne hentry
  unfold locate at hstarts
  rw [List.dropLast_append_of_ne_nil (Content.keyParts_ne_nil oid'),
    List.prefix_append_right_inj] at hstarts
  exact Content.length_of_keyParts_isPrefix hstarts

/-- **A look at the place of an object comes to nothing else.** -/
theorem Tidy.sight (h : Tidy base us rooted t) (hroot : rooted) (hoid : checkOid oid = .ok ()) :
    Sight base oid t := by
  have hwalk : ∀ x, t.look (base ++ x) = t.walkFrom base .directory x :=
    Tree.look_below (h.root hroot)
  obtain ⟨e, hfound⟩ | habsent | ⟨hrefused, hlong⟩ | ⟨-, x, b, hx, hne, hfile⟩ :=
    t.walkFrom_cases base (Content.keyParts oid)
  · rw [← hwalk] at hfound
    cases e with
    | file b => exact .file b hfound (h.digest hoid hfound)
    | directory => exact .directory hfound (h.length_of_directory hfound)
  · exact .nothing ((hwalk _).trans habsent)
  · exact .unnameable ((hwalk _).trans hrefused) hlong
  · -- Uploads leave no file in the way of a directory.
    rw [← hwalk] at hfile
    have hentry := Tree.get?_of_look (List.append_ne_nil_of_right_ne_nil base hne) hfile
    exact absurd hentry (h.directory_ne_file hoid hx hne b)

/-! ### What readers answer -/

/-- What is answered when there is asked for a file, its content, and whether that is right. The
tree stays. -/
structure Answers (base : Path) (o : Object) (t : Tree) (found : Bool)
    (content : Except Content.Error Bytes) (checked : Except Content.Error Unit) : Prop where
  /-- Whether there is a file. -/
  «exists» : (exists? base o.oid).run Tree.step t = (found, t)
  /-- Its content. -/
  get : eval (get base o.oid) t = (content, t)
  /-- Whether that is right. -/
  verify : eval (verify base o) t = (checked, t)

section

variable {o : Object}

/-- An id that is refused is so by each reader. -/
theorem answers_of_refused (hoid : checkOid o.oid ≠ .ok ()) (t : Tree) :
    Answers base o t false (.error (.invalidOid o.oid)) (.error (.invalidOid o.oid)) := by
  have hrefused := Content.checkOid_of_ne_ok hoid
  refine ⟨?_, ?_, ?_⟩
  · unfold exists?
    rw [hrefused]
    rfl
  · unfold Files.get
    rw [hrefused]
    rfl
  · unfold Files.verify
    rw [hrefused]
    rfl

variable (hoid : checkOid o.oid = .ok ())

include hoid

theorem answers_of_file {b : Bytes} (h : t.find (locate base o.oid) = .ok (.file b)) :
    Answers base o t true (.ok b) ((Digest.of b).check o) := by
  refine ⟨?_, ?_, ?_⟩
  · rw [run_exists? hoid, h]
  · rw [eval_get hoid, h]
  · rw [eval_verify hoid, h]

theorem answers_of_directory (h : t.find (locate base o.oid) = .ok .directory) :
    Answers base o t false (.error (.io .isDirectory))
      (if (t.directoryLength : Int) ≠ o.size then
        .error (.sizeMismatch o.size t.directoryLength)
      else .error (.io .isDirectory)) := by
  refine ⟨?_, ?_, ?_⟩
  · rw [run_exists? hoid, h]
  · rw [eval_get hoid, h]
  · rw [eval_verify hoid, h]

theorem answers_of_error {fault : Fault} (h : t.find (locate base o.oid) = .error fault) :
    Answers base o t false (.error (openFailure o.oid fault))
      (.error (openFailure o.oid fault)) := by
  refine ⟨?_, ?_, ?_⟩
  · rw [run_exists? hoid, h]
  · rw [eval_get hoid, h]
  · rw [eval_verify hoid, h]

end

/-- **What readers find.** Let any uploads have been started below an empty directory, each under a
name that is used once, and have gone on for a while by a file operation at a time in any order.
For every object, none of the three questions changes anything, and

* if a file is reported, its bytes have the object's digest, are the content, and are found right
  just if the object has their length;
* if none is reported and the id is refused, so are both readers;
* if none is reported and the id is accepted, both readers fail: the object is not found, unless
  the id is the two characters of a directory, which can be opened and measured but not read, or a
  name in its key is too long or the whole path. -/
theorem readers_find {start : Tree} {turns : List (Turn Upload Empty)}
    (hempty : start.listing base = []) (hroot : start.look base = .ok .directory)
    (hnames : ((Turn.origins turns).map (Upload.staging base)).Nodup) (o : Object) :
    let t := ((uploads base).reached start turns turns.length).state
    ∃ found content checked, Answers base o t found content checked ∧
      (found = true → ∃ b, t.look (locate base o.oid) = .ok (.file b) ∧
        Sha256.hexDigest b = o.oid ∧ content = .ok b ∧
        (checked = .ok () ↔ (b.length : Int) = o.size)) ∧
      (found = false → checkOid o.oid ≠ .ok () →
        content = .error (.invalidOid o.oid) ∧ checked = .error (.invalidOid o.oid)) ∧
      (found = false → checkOid o.oid = .ok () →
        content = .error (.notFound o.oid) ∧ checked = .error (.notFound o.oid) ∨
        (o.oid.toList.length = 2 ∧ t.look (locate base o.oid) = .ok .directory ∧
          content = .error (.io .isDirectory) ∧
          checked = if (t.directoryLength : Int) ≠ o.size then
            .error (.sizeMismatch o.size t.directoryLength) else .error (.io .isDirectory)) ∨
        (((∃ name ∈ Content.keyParts o.oid, tooLong name = true) ∨
            ¬ Path.Fits (locate base o.oid)) ∧
          content = .error (.io .nameTooLong) ∧ checked = .error (.io .nameTooLong))) := by
  intro t
  have htidy : Tidy base (Turn.origins turns) (start.look base = .ok .directory) t := by
    have hvalid := (orderly_reached hempty hnames turns.length).valid
    rw [List.take_length] at hvalid
    exact hvalid
  by_cases hoid : checkOid o.oid = .ok ()
  · by_cases hfits : Path.Fits (locate base o.oid)
    · have hfind := Tree.find_of_fits (t := t) hfits
      cases htidy.sight hroot hoid with
      | file b stands digest =>
        have hright : (Digest.of b).check o = .ok () ↔ (b.length : Int) = o.size :=
          Content.Digest.check_eq_ok_iff.trans (and_iff_left digest)
        exact ⟨_, _, _, answers_of_file hoid (hfind.trans stands),
          fun _ => ⟨b, stands, digest, rfl, hright⟩, nofun, nofun⟩
      | directory stands two =>
        exact ⟨_, _, _, answers_of_directory hoid (hfind.trans stands), nofun,
          fun _ h => absurd hoid h, fun _ _ => Or.inr (Or.inl ⟨two, stands, rfl, rfl⟩)⟩
      | nothing absent =>
        exact ⟨_, _, _, answers_of_error hoid (hfind.trans absent), nofun,
          fun _ h => absurd hoid h, fun _ _ => Or.inl ⟨rfl, rfl⟩⟩
      | unnameable refused long =>
        exact ⟨_, _, _, answers_of_error hoid (hfind.trans refused), nofun,
          fun _ h => absurd hoid h, fun _ _ => Or.inr (Or.inr ⟨.inl long, rfl, rfl⟩)⟩
    · have hfind := Tree.find_of_not_fits (t := t) hfits
      exact ⟨_, _, _, answers_of_error hoid hfind, nofun, fun _ h => absurd hoid h,
        fun _ _ => Or.inr (Or.inr ⟨.inr hfits, rfl, rfl⟩)⟩
  · exact ⟨_, _, _, answers_of_refused hoid t, nofun, fun _ _ => ⟨rfl, rfl⟩,
      fun _ h => absurd h hoid⟩

/-- While others are under way the file of an upload that is over is found, and what nobody uploads
is not. -/
theorem crowd_read :
    let others := crowd.take 14
    let t := ((uploads ["store"]).reached vacant others others.length).state
    vacant.listing ["store"] = [] ∧ vacant.look ["store"] = .ok .directory ∧
      ((Turn.origins others).map (Upload.staging ["store"])).Nodup ∧
      (∃ b, eval (get ["store"] abc.oid) t = (.ok b, t) ∧ Sha256.hexDigest b = abc.oid ∧
        ((eval (verify ["store"] abc) t).1 = .ok () ↔ (b.length : Int) = 3)) ∧
      eval (get ["store"] "b2") t = (.error (.notFound "b2"), t) := by
  intro others t
  have hempty : vacant.listing ["store"] = [] := by decide +kernel
  have hroot : vacant.look ["store"] = .ok .directory := rfl
  have hnames : ((Turn.origins others).map (Upload.staging ["store"])).Nodup := by decide +kernel
  have hlooks : ((exists? ["store"] abc.oid).run Tree.step t).1 = true ∧
      t.find (locate ["store"] "b2") = .error .notFound := by decide +kernel
  obtain ⟨found, content, checked, hanswers, hfile, -, -⟩ := readers_find hempty hroot hnames abc
  obtain ⟨b, -, hdigest, rfl, hright⟩ :=
    hfile ((congrArg Prod.fst hanswers.exists).symm.trans hlooks.1)
  have hchecked : (eval (verify ["store"] abc) t).1 = checked := congrArg Prod.fst hanswers.verify
  refine ⟨hempty, hroot, hnames, ⟨b, hanswers.get, hdigest, hchecked ▸ hright⟩, ?_⟩
  exact (answers_of_error (o := { abc with oid := "b2" }) (by decide) hlooks.2).get

/-- **An object that is neither there nor absent.** After an upload that has failed, the first two
characters of its object's id, which are accepted as an id, name no file. Still, neither reader
answers that the object is not found. -/
theorem directory_in_the_way :
    let failed := eval (put ["store"] "4" abc ⟨[[97], [98]], none⟩) vacant
    let o : Object := { abc with oid := "ba" }
    failed.1 = .error (.sizeMismatch 3 2) ∧ checkOid o.oid = .ok () ∧
      ((exists? ["store"] o.oid).run Tree.step failed.2).1 = false ∧
      (eval (get ["store"] o.oid) failed.2).1 = .error (.io .isDirectory) ∧
      (eval (verify ["store"] o) failed.2).1 =
        .error (.sizeMismatch 3 failed.2.directoryLength) := by
  decide +kernel

end Depot.Files
