import Depot.Proofs.Files.Store
import Depot.Proofs.Ownership

/-!
# Uploads side by side

Uploads go on by a file operation at a time, in any order, with content that is right, wrong or
breaks off. Each is written under a name that no other one has, in the same directories as the files
that readers open, and takes the place of such a file only after it has been checked. So a file that
can be opened under a digest has that digest at any time.

Headlines
* **`shared`** says what holds of the files below a base directory at any time and what the uploads
  leave to each other; **`fair_of_alters`**, **`fair_makeDirs`** and **`fair_rename`** that each
  file operation of an upload keeps to it.
* **`Upload.verdict`** is what an upload comes to by its content alone.
* **`respects_put`**: an upload by itself, whatever the others do between its file operations.
* **`uploads_keep_content`**: what holds in every run of uploads.
-/

namespace Depot.Files

open Content (Body Digest checkOid)
open Registry (Object isDigest)
open Files.Tree (Alters Keeps)

/-- An upload of the content of an object under a name of its own. -/
structure Upload where
  /-- The object. -/
  object : Object
  /-- What is uploaded. -/
  body : Body
  /-- What sets its name apart. -/
  token : String
deriving DecidableEq, Repr

/-- Uploads below a base directory. No file operation fails but for what it finds. -/
def uploads (base : Path) :
    Protocol Upload Tree Empty Call Call.Reply (Except Content.Error Unit) where
  program u := (put base u.token u.object u.body).run
  serve _ := Tree.step
  fail e := e.elim

variable {α β : Type} {base : Path} {us : List Upload} {rooted : Prop} {u v : Upload}
  {oid : String} {s t : Tree}

namespace Upload

/-- Where the content is to stand. -/
def place (base : Path) (u : Upload) : Path := locate base u.object.oid

/-- Where it is written. -/
def staging (base : Path) (u : Upload) : Path := stagingPath (u.place base) u.token

/-- The id of its object is a storage key. -/
def Accepted (u : Upload) : Prop := checkOid u.object.oid = .ok ()

/-- Neither its name is too long nor its path. -/
def Nameable (base : Path) (u : Upload) : Prop :=
  (u.staging base).getLast?.any tooLong = false ∧ Path.Fits (u.staging base)

instance (base : Path) (u : Upload) : Decidable (u.Nameable base) :=
  inferInstanceAs (Decidable (_ ∧ _))

/-- What its content alone makes of an upload. -/
def verdict (u : Upload) : Except Content.Error Unit := do
  checkOid u.object.oid
  match u.body.measure with
  | .error text => throw (.io (.broken text))
  | .ok digest => digest.check u.object

/-- What has been written of an upload, if it has been begun, for which the system has to take its
path. -/
def Written (base : Path) (u : Upload) : Option Bytes → Tree → Prop
  | none, t => t.entries.get? (u.staging base) = none
  | some b, t => Path.Fits (u.staging base) ∧ t.look (u.staging base) = .ok (.file b)

/-- Something has been written of an upload, or nothing. -/
def Left (base : Path) (u : Upload) (t : Tree) : Prop := ∃ w, u.Written base w t

theorem verdict_of_accepted {u : Upload} (ha : u.Accepted) : u.verdict =
    match u.body.failure with
    | some text => .error (.io (.broken text))
    | none => (Digest.of u.body.pieces.flatten).check u.object := by
  have hoid : checkOid u.object.oid = .ok () := ha
  unfold verdict
  rw [hoid, u.body.measure_eq]
  cases u.body.failure with
  | some text => rfl
  | none => rfl

end Upload

/-- The file of an object holds content of its digest, and can be opened. -/
def Shelved (base : Path) (oid : String) (t : Tree) : Prop :=
  Path.Fits (locate base oid) ∧
    ∃ b : Bytes, t.look (locate base oid) = .ok (.file b) ∧ Sha256.hexDigest b = oid

theorem Shelved.isDigest (h : Shelved base oid t) : isDigest oid = true := by
  obtain ⟨-, b, -, rfl⟩ := h
  exact Content.isDigest_hexDigest b

/-! ### Names -/

/-- An upload is written in the directory of its object, under a name with a dot. -/
theorem staging_eq (base : Path) (u : Upload) : ∃ name : String, '.' ∈ name.toList ∧
    u.staging base = base ++ (Content.keyParts u.object.oid).dropLast ++ [name] := by
  refine ⟨(u.place base).getLast?.getD "" ++ "." ++ u.token ++ ".tmp", by simp, ?_⟩
  unfold Upload.staging stagingPath
  congr 1
  unfold Upload.place locate
  rw [List.dropLast_append_of_ne_nil (Content.keyParts_ne_nil _)]

/-- No part of a key has a dot. -/
theorem not_mem_keyParts {name : String} (hdot : '.' ∈ name.toList) (h : checkOid oid = .ok ()) :
    name ∉ Content.keyParts oid := by
  intro hmem
  exact absurd (Content.plain_of_mem_keyParts h hmem hdot) (by decide)

/-- The path of an upload leads through that of no other one. -/
theorem eq_of_staging_isPrefix (hv : v.Accepted) (h : u.staging base <+: v.staging base) :
    u.staging base = v.staging base := by
  obtain ⟨name, hdot, hu⟩ := staging_eq base u
  obtain ⟨name', -, hname'⟩ := staging_eq base v
  rw [hname'] at h ⊢
  rcases List.prefix_concat_iff.mp h with heq | hshort
  · exact heq
  · rw [hu, List.append_assoc, List.prefix_append_right_inj] at hshort
    have hmem := hshort.subset (List.mem_append_right _ (List.mem_singleton_self name))
    exact absurd ((List.dropLast_prefix _).subset hmem) (not_mem_keyParts hdot hv)

/-- The place of a digest leads to no upload. -/
theorem locate_not_isPrefix_staging (hoid : isDigest oid = true) (v : Upload) :
    ¬ locate base oid <+: v.staging base := by
  intro h
  obtain ⟨name, hdot, hname⟩ := staging_eq base v
  rw [hname] at h
  unfold locate at h
  rcases List.prefix_concat_iff.mp h with heq | hshort
  · rw [List.append_assoc] at heq
    refine not_mem_keyParts hdot (Content.checkOid_of_isDigest hoid) ?_
    rw [List.append_cancel_left heq]
    exact List.mem_append_right _ (List.mem_singleton_self name)
  · have hle := ((List.prefix_append_right_inj base).mp hshort).length_le
    have hmost := Content.length_keyParts_le v.object.oid
    rw [Content.length_keyParts hoid, List.length_dropLast] at hle
    omega

theorem staging_not_isPrefix_locate (u : Upload) (h : checkOid oid = .ok ()) :
    ¬ u.staging base <+: locate base oid :=
  stagingPath_not_isPrefix h

theorem staging_ne_locate (u : Upload) (h : checkOid oid = .ok ()) :
    u.staging base ≠ locate base oid :=
  stagingPath_ne_locate h

theorem staging_ne_nil (base : Path) (u : Upload) : u.staging base ≠ [] := stagingPath_ne_nil _ _

/-- An upload is written in the directory of its place. -/
theorem dropLast_staging (base : Path) (u : Upload) :
    (u.staging base).dropLast = (u.place base).dropLast := by
  unfold Upload.staging stagingPath
  exact List.dropLast_concat

/-- The name of an object is no longer than that of an upload of it. -/
theorem Upload.short_place (h : (u.staging base).getLast?.any tooLong = false) :
    (u.place base).getLast?.any tooLong = false := by
  unfold Upload.staging stagingPath at h
  rw [List.getLast?_concat] at h
  generalize (u.place base).getLast? = last at h ⊢
  cases last with
  | none => rfl
  | some name =>
    simp only [Option.getD_some, Option.any_some, tooLong, decide_eq_false_iff_not,
      String.utf8ByteSize_append] at h ⊢
    omega

/-- So its path is no longer either. -/
theorem Upload.fits_place (h : Path.Fits (u.staging base)) : Path.Fits (u.place base) := by
  have hplace : u.place base = (u.place base).dropLast ++
      [(u.place base).getLast (locate_ne_nil base _)] := (List.dropLast_concat_getLast _).symm
  have hlast : (u.place base).getLast? = some ((u.place base).getLast (locate_ne_nil base _)) :=
    List.getLast?_eq_some_getLast _
  unfold Upload.staging stagingPath at h
  rw [hplace]
  rw [hlast] at h
  unfold Path.Fits at h ⊢
  rw [Path.size_append] at h ⊢
  simp only [Path.size, Option.getD_some, String.utf8ByteSize_append] at h ⊢
  omega

/-! ### What uploads leave to each other -/

/-- Nothing stands below the base directory but what uploads make. -/
structure Tidy (base : Path) (us : List Upload) (rooted : Prop) (t : Tree) : Prop where
  /-- A file is the content of its place or is being uploaded. -/
  files : ∀ p b, base <+: p → p ≠ base → t.entries.get? p = some (.file b) →
    p = locate base (Sha256.hexDigest b) ∨ ∃ u ∈ us, u.Accepted ∧ p = u.staging base
  /-- A directory is on the way to an object. -/
  directories : ∀ p, base <+: p → p ≠ base → t.entries.get? p = some .directory →
    ∃ oid, checkOid oid = .ok () ∧ p <+: (locate base oid).dropLast
  /-- The base directory itself is there if it has been so from the start. -/
  root : rooted → t.look base = .ok .directory

/-- What has been written of an upload, the content that stands, and the directories are left as
they are. -/
structure Spares (base : Path) (u : Upload) (s t : Tree) : Prop where
  written : u.Accepted → ∀ w, u.Written base w s → u.Written base w t
  shelved : ∀ oid, Shelved base oid s → Shelved base oid t
  housed : ∀ p, s.look p = .ok .directory → t.look p = .ok .directory

/-- The base directory is kept tidy, and uploads with different names spare each other. -/
def shared (base : Path) (us : List Upload) (rooted : Prop) : Estate Upload Tree where
  valid := Tidy base us rooted
  spared := Spares base
  apart u v := u.staging base ≠ v.staging base
  refl _ _ := ⟨fun _ _ h => h, fun _ h => h, fun _ h => h⟩
  trans hst htu := ⟨fun ha w h => htu.written ha w (hst.written ha w h),
    fun oid h => htu.shelved oid (hst.shelved oid h), fun p h => htu.housed p (hst.housed p h)⟩
  symm := Ne.symm

theorem isPrefix_staging (base : Path) (u : Upload) :
    base <+: u.staging base ∧ u.staging base ≠ base := by
  obtain ⟨name, -, hname⟩ := staging_eq base u
  rw [hname, List.append_assoc]
  exact ⟨List.prefix_append _ _, by simp⟩

theorem isPrefix_locate (base : Path) (oid : String) :
    base <+: locate base oid ∧ locate base oid ≠ base := by
  unfold locate
  refine ⟨List.prefix_append _ _, fun h => Content.keyParts_ne_nil oid ?_⟩
  exact List.append_right_eq_self.mp h

namespace Tidy

/-- No directory has the name of an upload. -/
theorem staging_ne_directory (h : Tidy base us rooted t) (u : Upload) :
    t.entries.get? (u.staging base) ≠ some .directory := by
  intro hentry
  obtain ⟨hbelow, hne⟩ := isPrefix_staging base u
  obtain ⟨oid, hoid, hstarts⟩ := h.directories _ hbelow hne hentry
  exact staging_not_isPrefix_locate u hoid (hstarts.trans (List.dropLast_prefix _))

/-- No directory has the place of a digest. -/
theorem place_ne_directory (h : Tidy base us rooted t) (hdigest : isDigest oid = true) :
    t.entries.get? (locate base oid) ≠ some .directory := by
  intro hentry
  obtain ⟨hbelow, hne⟩ := isPrefix_locate base oid
  obtain ⟨oid', -, hstarts⟩ := h.directories _ hbelow hne hentry
  have hle := hstarts.length_le
  have hmost := Content.length_keyParts_le oid'
  unfold locate at hle
  rw [List.length_dropLast, List.length_append, List.length_append,
    Content.length_keyParts hdigest] at hle
  omega

/-- No file is in the way of the directories of an object. -/
theorem directory_ne_file (h : Tidy base us rooted t) (hoid : checkOid oid = .ok ()) {x : Path}
    (hx : x <+: (Content.keyParts oid).dropLast) (hne : x ≠ []) (b : Bytes) :
    t.entries.get? (base ++ x) ≠ some (.file b) := by
  intro hentry
  have hstarts : base ++ x <+: locate base oid := by
    unfold locate
    exact (List.prefix_append_right_inj base).mpr (hx.trans (List.dropLast_prefix _))
  rcases h.files _ b (List.prefix_append _ _) (by simpa using hne) hentry with hplace | hstaging
  · have hle := hx.length_le
    have hmost := Content.length_keyParts_le oid
    rw [List.append_cancel_left hplace, Content.length_keyParts (Content.isDigest_hexDigest b),
      List.length_dropLast] at hle
    omega
  · obtain ⟨u, -, -, hu⟩ := hstaging
    rw [hu] at hstarts
    exact staging_not_isPrefix_locate u hoid hstarts

/-- The directories of an object can be made. -/
theorem makeDirs_eq_ok (h : Tidy base us rooted t) (hroot : rooted) (hoid : checkOid oid = .ok ()) :
    (t.makeDirs (locate base oid).dropLast).1 = .ok () := by
  have hparts : (locate base oid).dropLast = base ++ (Content.keyParts oid).dropLast := by
    unfold locate
    rw [List.dropLast_append_of_ne_nil (Content.keyParts_ne_nil oid)]
  unfold Tree.makeDirs
  rw [hparts, Tree.makeDirsFrom_of_walkFrom base _ (h.root hroot)]
  refine Tree.makeDirsFrom_eq_ok (fun name hname => ?_) fun x b hx hne =>
    h.directory_ne_file hoid hx hne b
  have hshort := Content.utf8ByteSize_le_of_mem_dropLast hname
  unfold tooLong
  simp only [decide_eq_false_iff_not]
  omega

end Tidy

/-- The tree that a file operation of an upload leaves is as the others need it. -/
def Fair (base : Path) (us : List Upload) (rooted : Prop) (u : Upload) (s t : Tree) : Prop :=
  (shared base us rooted).valid t ∧
    ∀ v, (shared base us rooted).apart u v → (shared base us rooted).spared v s t

theorem Fair.refl (hv : Tidy base us rooted t) : Fair base us rooted u t t :=
  ⟨hv, fun v _ => (shared base us rooted).refl v t⟩

/-- What an upload writes to its own file concerns nobody else. -/
theorem fair_of_alters (hu : u ∈ us) (ha : u.Accepted) (hv : Tidy base us rooted s)
    (h : Alters (u.staging base) s t) : Fair base us rooted u s t := by
  have hhoused : ∀ p, s.look p = .ok .directory → t.look p = .ok .directory := fun p hp =>
    h.keeps (Tree.not_isPrefix_of_look_directory (staging_ne_nil base u)
      (hv.staging_ne_directory u) hp) _ hp
  refine ⟨⟨fun p b hp hne hentry => ?_, fun p hp hne hentry => ?_,
    fun hroot => hhoused base (hv.root hroot)⟩,
    fun v hapart => ⟨fun hacc w hw => ?_, fun oid hoid => ?_, hhoused⟩⟩
  · by_cases hown : p = u.staging base
    · exact Or.inr ⟨u, hu, ha, hown⟩
    · rw [h.elsewhere p hown] at hentry
      exact hv.files p b hp hne hentry
  · by_cases hown : p = u.staging base
    · subst hown
      exact hv.directories _ hp hne (h.here hentry)
    · rw [h.elsewhere p hown] at hentry
      exact hv.directories p hp hne hentry
  · cases w with
    | none => exact (h.elsewhere _ hapart.symm).trans hw
    | some b =>
      exact ⟨hw.1, h.keeps (fun hstarts => hapart (eq_of_staging_isPrefix hacc hstarts)) _ hw.2⟩
  · obtain ⟨hfits, b, hstands, hb⟩ := id hoid
    have hoid' := Content.checkOid_of_isDigest hoid.isDigest
    exact ⟨hfits, b, h.keeps (staging_not_isPrefix_locate u hoid') _ hstands, hb⟩

/-- Directories are made for all. -/
theorem spares_makeDirs (hoid : checkOid oid = .ok ()) (v : Upload) (t : Tree) :
    Spares base v t (t.makeDirs (locate base oid).dropLast).2 := by
  refine ⟨fun _ w hw => ?_, fun oid' ⟨hfits, b, hstands, hb⟩ => ?_,
    fun p => t.keeps_makeDirs p _ _⟩
  · cases w with
    | none =>
      refine (Tree.get?_makeDirsFrom_of_not_isPrefix [] _ fun hstarts => ?_).trans hw
      exact staging_not_isPrefix_locate v hoid (hstarts.trans (List.dropLast_prefix _))
    | some b => exact ⟨hw.1, t.keeps_makeDirs _ _ _ hw.2⟩
  · exact ⟨hfits, b, t.keeps_makeDirs _ _ _ hstands, hb⟩

theorem fair_makeDirs (hoid : checkOid oid = .ok ()) (hv : Tidy base us rooted t) :
    Fair base us rooted u t (t.makeDirs (locate base oid).dropLast).2 := by
  refine ⟨⟨fun p b hp hne hentry => ?_, fun p hp hne hentry => ?_, fun hroot => ?_⟩,
    fun v _ => spares_makeDirs hoid v t⟩
  · exact hv.files p b hp hne (Tree.get?_of_makeDirsFrom_eq_file [] _ hentry)
  · by_cases hstarts : p <+: (locate base oid).dropLast
    · exact ⟨oid, hoid, hstarts⟩
    · refine hv.directories p hp hne ?_
      rw [← hentry]
      exact (Tree.get?_makeDirsFrom_of_not_isPrefix [] _ hstarts).symm
  · exact t.keeps_makeDirs _ _ _ (hv.root hroot)

section

variable {b : Bytes} (hb : Sha256.hexDigest b = u.object.oid) (hw : u.Written base (some b) t)

include hw

/-- Content can be moved to the place of a digest. -/
theorem rename_eq_ok (hdigest : isDigest u.object.oid = true) (hv : Tidy base us rooted t) :
    (t.rename (u.staging base) (u.place base)).1 = .ok () := by
  obtain ⟨habove, hname, -⟩ :=
    Tree.lookForNew_eq_ok_iff.mp ((Tree.look_eq_ok_iff (staging_ne_nil base u)).mp hw.2)
  rw [dropLast_staging] at habove
  exact Tree.rename_eq_ok hw.2 habove (Upload.short_place hname) (hv.place_ne_directory hdigest)

include hb

omit hw in
/-- Directories stay where content is moved. -/
theorem housed_rename (hv : Tidy base us rooted t) {p : Path} (hp : t.look p = .ok .directory) :
    (t.rename (u.staging base) (u.place base)).2.look p = .ok .directory := by
  have hdigest : isDigest u.object.oid = true := hb ▸ Content.isDigest_hexDigest b
  exact t.keeps_rename
    (Tree.not_isPrefix_of_look_directory (staging_ne_nil base u) (hv.staging_ne_directory u) hp)
    (Tree.not_isPrefix_of_look_directory (locate_ne_nil base _) (hv.place_ne_directory hdigest) hp)
    _ hp

/-- Content that is moved to the place of its digest is no longer where it was written. -/
theorem tidy_rename (hv : Tidy base us rooted t)
    (hok : (t.rename (u.staging base) (u.place base)).1 = .ok ()) :
    Tidy base us rooted (t.rename (u.staging base) (u.place base)).2 := by
  refine ⟨fun p c hp hne hentry => ?_, fun p hp hne hentry => ?_,
    fun hroot => housed_rename hb hv (hv.root hroot)⟩
  · rcases Tree.get?_rename_cases hw.2 hok hentry with ⟨rfl, hfile⟩ | hbefore
    · cases hfile
      rw [hb]
      exact Or.inl rfl
    · exact hv.files p c hp hne hbefore
  · rcases Tree.get?_rename_cases hw.2 hok hentry with ⟨-, hfile⟩ | hbefore
    · exact absurd hfile (by simp)
    · exact hv.directories p hp hne hbefore

/-- It takes the place of content of the same digest only. -/
theorem spares_rename (hv : Tidy base us rooted t)
    (hok : (t.rename (u.staging base) (u.place base)).1 = .ok ())
    (hapart : u.staging base ≠ v.staging base) :
    Spares base v t (t.rename (u.staging base) (u.place base)).2 := by
  have hdigest : isDigest u.object.oid = true := hb ▸ Content.isDigest_hexDigest b
  have hoid := Content.checkOid_of_isDigest hdigest
  refine ⟨fun hacc w hwritten => ?_, fun oid hshelved => ?_, fun p => housed_rename hb hv⟩
  · cases w with
    | none =>
      have hne : v.staging base ≠ u.place base := staging_ne_locate v hoid
      rw [Tree.rename_of_ok hw.2 hok]
      exact ((Tree.alters_put _ _ _).elsewhere _ hne).trans
        (((Tree.alters_erase _ _).elsewhere _ hapart.symm).trans hwritten)
    | some c =>
      exact ⟨hwritten.1, t.keeps_rename (fun hstarts => hapart (eq_of_staging_isPrefix hacc hstarts))
        (locate_not_isPrefix_staging hdigest v) _ hwritten.2⟩
  · by_cases hsame : oid = u.object.oid
    · subst hsame
      exact ⟨Upload.fits_place hw.1, b, Tree.look_rename (locate_ne_nil base _)
        (staging_not_isPrefix_locate u hoid) hw.2 hok, hb⟩
    · obtain ⟨hfits, c, hstands, hc⟩ := id hshelved
      refine ⟨hfits, c, t.keeps_rename ?_ ?_ _ hstands, hc⟩
      · exact staging_not_isPrefix_locate u (Content.checkOid_of_isDigest hshelved.isDigest)
      · exact fun hstarts => hsame (eq_of_locate_isPrefix hdigest hshelved.isDigest hstarts).symm

/-- Content of the digest may take the place of what stands there. -/
theorem fair_rename (hv : Tidy base us rooted t) :
    Fair base us rooted u t (t.rename (u.staging base) (u.place base)).2 := by
  have hok := rename_eq_ok hw (hb ▸ Content.isDigest_hexDigest b) hv
  exact ⟨tidy_rename hb hw hv hok, fun v hapart => spares_rename hb hw hv hok hapart⟩

end

/-! ### An upload by itself -/

/-- What holds after success and what after failure. -/
def After (success : Tree → Prop) (failure : Content.Error → Tree → Prop) :
    Except Content.Error α → Tree → Prop
  | .ok _ => success
  | .error e => failure e

/-- An upload between the file operations of others. -/
abbrev Proceeds (base : Path) (us : List Upload) (rooted : Prop) (u : Upload)
    (success : Tree → Prop) (failure : Content.Error → Tree → Prop) (x : Action α) (t : Tree) :
    Prop :=
  Respects (uploads base) (shared base us rooted) u (After success failure) x.run t

section

variable {pre success success' : Tree → Prop} {failure failure' : Content.Error → Tree → Prop}

theorem stable_after (hsuccess : (shared base us rooted).Stable u success)
    (hfailure : ∀ e, (shared base us rooted).Stable u (failure e)) (r : Except Content.Error α) :
    (shared base us rooted).Stable u (After success failure r) := by
  cases r with
  | ok a => exact hsuccess
  | error e => exact hfailure e

theorem stable_written (ha : u.Accepted) (w : Option Bytes) :
    (shared base us rooted).Stable u (u.Written base w) :=
  fun _ _ h => h.written ha w

theorem stable_left (ha : u.Accepted) : (shared base us rooted).Stable u (u.Left base) :=
  fun _ _ h ⟨w, hw⟩ => ⟨w, h.written ha w hw⟩

theorem stable_shelved (u : Upload) (oid : String) :
    (shared base us rooted).Stable u (Shelved base oid) :=
  fun _ _ h => h.shelved oid

theorem stable_housed (u : Upload) (p : Path) :
    (shared base us rooted).Stable u fun t => t.look p = .ok .directory :=
  fun _ _ h => h.housed p

theorem proceeds_pure (hsuccess : (shared base us rooted).Stable u success) (a : α)
    (h : success t) : Proceeds base us rooted u success failure (pure a : Action α) t :=
  Respects.of_stable hsuccess h

theorem proceeds_throw {e : Content.Error}
    (hfailure : (shared base us rooted).Stable u (failure e)) (h : failure e t) :
    Proceeds base us rooted u success failure (throw e : Action α) t :=
  Respects.of_stable hfailure h

theorem proceeds_bind {x : Action α} {f : α → Action β}
    (h : Proceeds base us rooted u success failure x t)
    (hfailure : ∀ e t, failure e t → failure' e t)
    (hf : ∀ a t, Tidy base us rooted t → success t →
      Proceeds base us rooted u success' failure' (f a) t) :
    Proceeds base us rooted u success' failure' (x >>= f) t :=
  h.bind_action hfailure hf

/-- A call is judged in each tree that the others can leave. -/
theorem respects_perform {c : Call} {post : c.Reply → Tree → Prop}
    (hpre : (shared base us rooted).Stable u pre)
    (hpost : ∀ r, (shared base us rooted).Stable u (post r))
    (hstep : ∀ t, Tidy base us rooted t → pre t →
      Fair base us rooted u t (t.step c).2 ∧ post (t.step c).1 (t.step c).2)
    (h : pre t) :
    Respects (uploads base) (shared base us rooted) u post (Program.perform c) t := by
  refine Respects.perform hpre hpost (fun t fate hv ht => ?_) h
  cases fate with
  | answered =>
    obtain ⟨⟨h1, h2⟩, h3⟩ := hstep t hv ht
    exact ⟨h1, h2, h3⟩
  | refused e => exact e.elim
  | unconfirmed e => exact e.elim

/-- An operation fails on a path that the system does not take, and is judged by what it finds
otherwise. -/
theorem proceeds_operation {c : Call} (hpre : (shared base us rooted).Stable u pre)
    (hsuccess : (shared base us rooted).Stable u success)
    (hfailure : ∀ e, (shared base us rooted).Stable u (failure e))
    (hrefused : ¬ c.Fits → ∀ t, pre t → failure (.io .nameTooLong) t)
    (hperform : c.Fits → ∀ t, Tidy base us rooted t → pre t →
      Fair base us rooted u t (t.perform c).2 ∧
      (∀ a, (t.perform c).1 = .ok a → success (t.perform c).2) ∧
      ∀ fault, (t.perform c).1 = .error fault → failure (.io fault) (t.perform c).2)
    (h : pre t) : Proceeds base us rooted u success failure (operation c) t := by
  have hcall : Respects (uploads base) (shared base us rooted) u
      (fun r => After success failure (r.mapError Content.Error.io)) (Program.perform c) t := by
    refine respects_perform hpre (fun r => stable_after hsuccess hfailure _) (fun t hv ht => ?_) h
    by_cases hfits : c.Fits
    · obtain ⟨hfair, hok, herror⟩ := hperform hfits t hv ht
      rw [Tree.step_of_fits hfits]
      refine ⟨hfair, ?_⟩
      cases hreply : (t.perform c).1 with
      | ok a => exact hok a hreply
      | error fault => exact herror fault hreply
    · rw [Tree.step_of_not_fits hfits]
      exact ⟨.refl hv, hrefused hfits t ht⟩
  exact hcall.bind fun r t _ ht => Respects.of_stable (stable_after hsuccess hfailure _) ht

end

/-- Nothing has been written of an upload, but the directory of its object is there. -/
def Upload.Housed (base : Path) (u : Upload) (t : Tree) : Prop :=
  u.Written base none t ∧ t.look (u.place base).dropLast = .ok .directory

/-- Nothing is left of an upload but its content at its place. -/
def Upload.Stored (base : Path) (u : Upload) (t : Tree) : Prop :=
  u.Written base none t ∧ Shelved base u.object.oid t

section

variable (hu : u ∈ us) (ha : u.Accepted)

include ha

theorem stable_stored : (shared base us rooted).Stable u (u.Stored base) :=
  (stable_written ha _).and (stable_shelved u _)

/-- Directories can be made below a base directory that is there, if an upload into them has a name
that can be used. -/
theorem proceeds_makeDirs (h : u.Written base none t) :
    Proceeds base us rooted u (u.Housed base)
      (fun _ t => u.Written base none t ∧ (rooted → ¬ u.Nameable base))
      (operation (.makeDirs (u.place base).dropLast)) t := by
  have hpath : u.Nameable base → (Call.makeDirs (u.place base).dropLast).Fits := fun hname => by
    rw [Call.fits_iff_of_paths rfl, ← dropLast_staging]
    exact hname.2.of_isPrefix (List.dropLast_prefix _)
  refine proceeds_operation (stable_written ha _)
    ((stable_written ha _).and (stable_housed u _))
    (fun _ => (stable_written ha _).and (.const _ _ _))
    (fun hlong t ht => ⟨ht, fun _ hname => hlong (hpath hname)⟩) (fun _ t hv ht => ?_) h
  have hkept : u.Written base none (t.makeDirs (u.place base).dropLast).2 :=
    (spares_makeDirs ha u t).written ha none ht
  refine ⟨fair_makeDirs ha hv, fun _ hreply => ⟨hkept, ?_⟩, fun fault hreply => ⟨hkept, ?_⟩⟩
  · exact Tree.look_makeDirs hreply
  · intro hroot
    exact absurd ((hv.makeDirs_eq_ok hroot ha).symm.trans hreply) (by simp)

include hu

/-- A file can be made under a name that is not too long. -/
theorem proceeds_createNew (h : u.Housed base t) :
    Proceeds base us rooted u (u.Written base (some []))
      (fun _ t => u.Written base none t ∧ ¬ u.Nameable base)
      (operation (.createNew (u.staging base))) t := by
  have hpath : (Call.createNew (u.staging base)).Fits ↔ Path.Fits (u.staging base) :=
    Call.fits_iff_of_paths rfl
  refine proceeds_operation ((stable_written ha _).and (stable_housed u _)) (stable_written ha _)
    (fun _ => (stable_written ha _).and (.const _ _ _))
    (fun hlong t ht => ⟨ht.1, fun hname => hlong (hpath.mpr hname.2)⟩) (fun hfits t hv ht => ?_) h
  refine ⟨fair_of_alters hu ha hv (t.alters_createNew _), fun _ hreply => ?_,
    fun fault hreply => ⟨?_, fun hname => ?_⟩⟩
  · exact ⟨hpath.mp hfits, Tree.look_createNew (staging_ne_nil base u) hreply⟩
  · show u.Written base none (t.createNew (u.staging base)).2
    rw [Tree.createNew_of_error hreply]
    exact ht.1
  · have habove := ht.2
    rw [← dropLast_staging] at habove
    exact absurd ((Tree.createNew_eq_ok habove hname.1 ht.1).symm.trans hreply) (by simp)

/-- Bytes can always be added. -/
theorem proceeds_appendAll (old : Bytes) (reads : List Bytes)
    (h : u.Written base (some old) t) :
    Proceeds base us rooted u (u.Written base (some (old ++ reads.flatten))) (fun _ _ => False)
      (appendAll (u.staging base) reads) t := by
  induction reads generalizing old t with
  | nil =>
    rw [List.flatten_nil, List.append_nil]
    exact proceeds_pure (stable_written ha _) () h
  | cons b reads ih =>
    have hfirst : Proceeds base us rooted u (u.Written base (some (old ++ b))) (fun _ _ => False)
        (operation (.append (u.staging base) b)) t := by
      refine proceeds_operation (stable_written ha _) (stable_written ha _)
        (fun _ => .const _ _ _) (fun hlong => absurd (List.forall_mem_nil _) hlong)
        (fun _ t hv ht => ?_) h
      obtain ⟨hok, hstands⟩ := Tree.look_append b ht.2
      refine ⟨fair_of_alters hu ha hv (t.alters_append _ b), fun _ _ => ⟨ht.1, hstands⟩,
        fun fault hreply => ?_⟩
      exact absurd (hok.symm.trans hreply) (by simp)
    refine proceeds_bind hfirst (fun _ _ h => h) fun _ t _ ht => ?_
    rw [List.flatten_cons, ← List.append_assoc]
    exact ih _ ht

omit hu in
/-- Content of the digest can always be moved to its place. -/
theorem proceeds_rename {b : Bytes} (hb : Sha256.hexDigest b = u.object.oid)
    (h : u.Written base (some b) t) :
    Proceeds base us rooted u (u.Stored base) (fun _ _ => False)
      (operation (.rename (u.staging base) (u.place base))) t := by
  have hfits : (Call.rename (u.staging base) (u.place base)).Fits := by
    simp [Call.Fits, Call.paths, h.1, Upload.fits_place h.1]
  refine proceeds_operation (stable_written ha _) (stable_stored ha) (fun _ => .const _ _ _)
    (fun hlong => absurd hfits hlong) (fun _ t hv ht => ?_) h
  have hok := rename_eq_ok ht (hb ▸ Content.isDigest_hexDigest b) hv
  refine ⟨fair_rename hb ht hv, fun _ _ => ⟨?_, Upload.fits_place ht.1, b, ?_, hb⟩,
    fun fault hreply => ?_⟩
  · have hne : u.staging base ≠ u.place base := staging_ne_locate u ha
    show (t.rename _ _).2.entries.get? (u.staging base) = none
    rw [Tree.rename_of_ok ht.2 hok, (Tree.alters_put _ _ _).elsewhere _ hne, Tree.erase,
      Table.get?_erase, if_pos rfl]
  · exact Tree.look_rename (locate_ne_nil base _) (staging_not_isPrefix_locate u ha) ht.2 hok
  · exact absurd (hok.symm.trans hreply) (by simp)

/-- Whatever has been written, nothing is left of it once it is removed. -/
theorem respects_remove (h : u.Left base t) :
    Respects (uploads base) (shared base us rooted) u (fun _ => u.Written base none)
      (Program.perform (Call.remove (u.staging base))) t := by
  refine respects_perform (stable_left ha) (fun _ => stable_written ha _)
    (fun t hv ⟨w, hw⟩ => ?_) h
  cases w with
  | none =>
    have hsame : (t.step (.remove (u.staging base))).2 = t :=
      Tree.step_induction (motive := (· = t)) rfl
        (Tree.remove_of_get?_none (staging_ne_nil base u) hw)
    rw [hsame]
    exact ⟨.refl hv, hw⟩
  | some b =>
    rw [Tree.step_of_fits ((Call.fits_iff_of_paths rfl).mpr hw.1)]
    exact ⟨fair_of_alters hu ha hv (t.alters_remove _), Tree.get?_remove_self hw.2⟩

/-- Content is written to a file of its own and moved if it is the object's. -/
theorem proceeds_writeStaged (h : u.Housed base t) :
    Proceeds base us rooted u (fun t => u.Stored base t ∧ u.verdict = .ok ())
      (fun e t => u.Left base t ∧ (u.Nameable base → u.verdict = .error e))
      (writeStaged (u.staging base) (u.place base) u.object u.body) t := by
  have hleft : ∀ e, (shared base us rooted).Stable u fun t =>
      u.Left base t ∧ (u.Nameable base → u.verdict = .error e) := fun e =>
    (stable_left ha).and (.const _ _ _)
  unfold writeStaged
  refine proceeds_bind (proceeds_createNew hu ha h)
    (fun _ _ h => ⟨⟨none, h.1⟩, fun hname => absurd hname h.2⟩) fun _ t _ ht => ?_
  refine proceeds_bind (proceeds_appendAll hu ha [] _ ht) (fun _ _ h => h.elim) fun _ t _ ht => ?_
  have hverdict := Upload.verdict_of_accepted ha
  rw [List.nil_append, u.body.flatten_reads] at ht
  rw [u.body.measure_eq]
  cases hfailure : u.body.failure with
  | some text =>
    rw [hfailure] at hverdict
    exact proceeds_throw (hleft _) ⟨⟨_, ht⟩, fun _ => hverdict⟩
  | none =>
    rw [hfailure] at hverdict
    simp only at hverdict ⊢
    cases hcheck : (Digest.of u.body.pieces.flatten).check u.object with
    | error e => exact proceeds_throw (hleft e) ⟨⟨_, ht⟩, fun _ => hverdict.trans hcheck⟩
    | ok _ =>
      have hdigest := (Content.Digest.check_eq_ok_iff.mp hcheck).2
      refine (proceeds_rename ha hdigest ht).weaken fun r t h => ?_
      cases r with
      | ok _ => exact ⟨h, hverdict.trans hcheck⟩
      | error e => exact h.elim

/-- What is written of an upload that fails is removed. -/
theorem proceeds_put (h : u.Written base none t) :
    Proceeds base us rooted u (fun t => u.Stored base t ∧ u.verdict = .ok ())
      (fun e t => u.Written base none t ∧ (rooted → u.Nameable base → u.verdict = .error e))
      (put base u.token u.object u.body) t := by
  have hoid : checkOid u.object.oid = .ok () := ha
  unfold put
  rw [hoid]
  show Proceeds base us rooted u _ _
    (operation (.makeDirs (u.place base).dropLast) >>= fun _ => _) t
  refine proceeds_bind (proceeds_makeDirs ha h)
    (fun _ _ h => ⟨h.1, fun hroot hname => absurd hname (h.2 hroot)⟩) fun _ t _ ht => ?_
  refine (proceeds_writeStaged hu ha ht).bind fun r t _ hr => ?_
  cases r with
  | ok _ => exact proceeds_pure ((stable_stored ha).and (.const _ _ _)) () hr
  | error e =>
    refine (respects_remove hu ha hr.1).bind fun _ t _ ht => ?_
    exact proceeds_throw ((stable_written ha _).and (.const _ _ _)) ⟨ht, fun _ => hr.2⟩

end

/-- What is left of an upload that is over, and what it has come to if the base directory has been
there from the start. -/
structure Finished (base : Path) (rooted : Prop) (u : Upload) (r : Except Content.Error Unit)
    (t : Tree) : Prop where
  cleared : u.Accepted → u.Written base none t
  stored : r = .ok () → Shelved base u.object.oid t
  deserved : rooted → u.Nameable base → r = u.verdict

/-- **An upload between the file operations of others** leaves nothing of its own file behind, and
once it has succeeded the object's content stands. -/
theorem respects_put (hu : u ∈ us) (h : u.Written base none t) :
    Respects (uploads base) (shared base us rooted) u (Finished base rooted u)
      ((uploads base).program u) t := by
  show Respects _ _ _ _ (put base u.token u.object u.body).run t
  cases hoid : checkOid u.object.oid with
  | error e =>
    unfold put
    rw [hoid]
    refine fun t' _ _ => ⟨fun ha => ?_, fun hr => absurd hr (by simp), fun _ _ => ?_⟩
    · exact absurd (hoid.symm.trans ha) (by simp)
    · unfold Upload.verdict
      rw [hoid]
      rfl
  | ok _ =>
    refine (proceeds_put hu hoid h).weaken fun r t h => ?_
    cases r with
    | ok _ => exact ⟨fun _ => h.1.1, fun _ => h.1.2, fun _ _ => h.2.symm⟩
    | error e =>
      exact ⟨fun _ => h.1, fun hr => absurd hr (by simp), fun hroot hname =>
        (h.2 hroot hname).symm⟩

/-! ### Uploads together -/

section

variable {start : Tree} {turns : List (Turn Upload Empty)}

/-- A file at the place of an object is no upload, so it has the object's digest. -/
theorem Tidy.digest (h : Tidy base us rooted t) (hoid : checkOid oid = .ok ()) {b : Bytes}
    (hlook : t.look (locate base oid) = .ok (.file b)) : Sha256.hexDigest b = oid := by
  obtain ⟨hbelow, hne⟩ := isPrefix_locate base oid
  rcases h.files _ b hbelow hne (Tree.get?_of_look (locate_ne_nil base oid) hlook) with
    hplace | hstaging
  · exact (Content.keyParts_injective (List.append_cancel_left hplace)).symm
  · obtain ⟨u, -, -, hu⟩ := hstaging
    exact absurd hu.symm (staging_ne_locate u hoid)

/-- Uploads below an empty directory proceed in order. -/
theorem orderly_reached (hempty : start.listing base = [])
    (hnames : ((Turn.origins turns).map (Upload.staging base)).Nodup) (k : Nat) :
    Protocol.Orderly (uploads base)
      (shared base (Turn.origins (turns.take k)) (start.look base = .ok .directory))
      (Finished base (start.look base = .ok .directory)) []
      ((uploads base).reached start turns k) := by
  have hnothing : ∀ p, base <+: p → p ≠ base → start.entries.get? p = none := fun p hp hne =>
    Tree.get?_of_listing_eq_nil hempty hp hne
  refine Protocol.run_orderly ⟨⟨fun p b hp hne hentry => ?_, fun p hp hne hentry => ?_, id⟩,
    fun _ ht => absurd ht List.not_mem_nil, fun u hu => ?_, ?_⟩
  · exact absurd ((hnothing p hp hne).symm.trans hentry) (by simp)
  · exact absurd ((hnothing p hp hne).symm.trans hentry) (by simp)
  · obtain ⟨hbelow, hne⟩ := isPrefix_staging base u
    exact respects_put hu (hnothing _ hbelow hne)
  · have hnodup := hnames.sublist ((Turn.origins_take_isPrefix turns k).sublist.map _)
    show (Turn.origins (turns.take k)).Pairwise fun u v => u.staging base ≠ v.staging base
    exact List.pairwise_map.mp hnodup

/-- **Uploads side by side keep the content below their directory right.** Let any uploads be
started below an empty directory at any time, each under a name that is used once, and go on by a
file operation at a time in any order. Then, at any time,

* a file at the place of an object has the object's digest,
* the file of an object of which an upload has succeeded stands from then on,
* when no upload is under way, every file stands at the place of its digest and none is left under
  the name of an upload, and
* an upload that is over has come to what its content alone makes of it, if the directory has been
  there from the start and neither the name of the upload nor its path is too long. -/
theorem uploads_keep_content (hempty : start.listing base = [])
    (hnames : ((Turn.origins turns).map (Upload.staging base)).Nodup) :
    (∀ k oid b, checkOid oid = .ok () →
      ((uploads base).reached start turns k).state.look (locate base oid) = .ok (.file b) →
      Sha256.hexDigest b = oid) ∧
    (∀ k k' task, k ≤ k' → task ∈ ((uploads base).reached start turns k).tasks →
      task.result? = some (.ok ()) →
      Shelved base task.origin.object.oid ((uploads base).reached start turns k').state) ∧
    (∀ k, (∀ task ∈ ((uploads base).reached start turns k).tasks, task.result? ≠ none) →
      (∀ p b, base <+: p → p ≠ base →
        ((uploads base).reached start turns k).state.entries.get? p = some (.file b) →
        p = locate base (Sha256.hexDigest b)) ∧
      ∀ task ∈ ((uploads base).reached start turns k).tasks, ∀ b,
        ((uploads base).reached start turns k).state.entries.get? (task.origin.staging base) ≠
          some (.file b)) ∧
    (start.look base = .ok .directory →
      ∀ k, ∀ task ∈ ((uploads base).reached start turns k).tasks, task.origin.Nameable base →
        ∀ r, task.result? = some r → r = task.origin.verdict) := by
  refine ⟨fun k oid b hoid hlook => ?_, fun k k' task hle htask hresult => ?_, fun k hover => ?_,
    fun hroot k task htask hname r hresult => ?_⟩
  · exact (orderly_reached hempty hnames k).valid.digest hoid hlook
  · have hrest := Task.result?_eq_some_iff.mp hresult
    have htask' : task ∈ ((uploads base).reached start turns k').tasks := by
      rw [Protocol.reached_of_le hle]
      exact Protocol.mem_run_of_done htask hrest _
    exact ((orderly_reached hempty hnames k').result htask' hrest).stored rfl
  · have horderly := orderly_reached hempty hnames k
    have hplaces : ∀ p b, base <+: p → p ≠ base →
        ((uploads base).reached start turns k).state.entries.get? p = some (.file b) →
        p = locate base (Sha256.hexDigest b) := by
      intro p b hp hne hentry
      rcases horderly.valid.files p b hp hne hentry with hplace | ⟨u, hu, ha, rfl⟩
      · exact hplace
      · have hstarted : u ∈ ((uploads base).reached start turns k).tasks.map Task.origin := by
          rw [Protocol.reached, Protocol.origins_run]
          exact hu
        obtain ⟨task, htask, rfl⟩ := List.mem_map.mp hstarted
        obtain ⟨r, hr⟩ := Option.ne_none_iff_exists'.mp (hover task htask)
        have hgone := (horderly.result htask (Task.result?_eq_some_iff.mp hr)).cleared ha
        exact absurd (hgone.symm.trans hentry) (by simp)
    refine ⟨hplaces, fun task _ b hentry => ?_⟩
    obtain ⟨hbelow, hne⟩ := isPrefix_staging base task.origin
    have hdigest := Content.checkOid_of_isDigest (Content.isDigest_hexDigest b)
    exact staging_ne_locate task.origin hdigest (hplaces _ b hbelow hne hentry)
  · have hrest := Task.result?_eq_some_iff.mp hresult
    exact ((orderly_reached hempty hnames k).result htask hrest).deserved hroot hname

/-- Content of three bytes. -/
def abc : Object where
  oid := "ba7816bf8f01cfea414140de5dae2223b00361a396177a9cb410ff61f20015ad"
  size := 3
  projects := []
  existing := false

/-- An empty base directory. -/
def vacant : Tree := (({} : Tree).makeDirs ["store"]).2

/-- Two uploads of the same content and one that breaks off, in turns. -/
def crowd : List (Turn Upload Empty) :=
  [.start ⟨abc, ⟨[[97, 98, 99]], none⟩, "1"⟩, .start ⟨abc, ⟨[[97], [98, 99]], none⟩, "2"⟩,
    .call 0 .answered, .call 1 .answered, .call 0 .answered, .call 1 .answered,
    .start ⟨abc, ⟨[[97, 98]], some "connection reset"⟩, "3"⟩, .call 1 .answered,
    .call 2 .answered, .call 2 .answered, .call 0 .answered, .call 1 .answered, .call 2 .answered,
    .call 1 .answered, .call 0 .answered, .call 2 .answered]

theorem crowd_results :
    ((uploads ["store"]).reached vacant crowd crowd.length).tasks.map
      (fun task => (task.origin.object, task.result?.map Except.isOk)) =
      [(abc, some true), (abc, some true), (abc, some false)] := by
  decide +kernel

theorem crowd_keeps_content :
    vacant.listing ["store"] = [] ∧ vacant.look ["store"] = .ok .directory ∧
      ((Turn.origins crowd).map (Upload.staging ["store"])).Nodup ∧
      (∀ k b, ((uploads ["store"]).reached vacant crowd k).state.look
        (locate ["store"] abc.oid) = .ok (.file b) → Sha256.hexDigest b = abc.oid) ∧
      Shelved ["store"] abc.oid ((uploads ["store"]).reached vacant crowd crowd.length).state ∧
      (∀ p b, ["store"] <+: p → p ≠ ["store"] →
        ((uploads ["store"]).reached vacant crowd crowd.length).state.entries.get? p =
          some (.file b) →
        p = locate ["store"] (Sha256.hexDigest b)) ∧
      ∀ k, ∀ task ∈ ((uploads ["store"]).reached vacant crowd k).tasks,
        task.origin.Nameable ["store"] → ∀ r, task.result? = some r → r = task.origin.verdict := by
  have hempty : vacant.listing ["store"] = [] := by decide +kernel
  have hroot : vacant.look ["store"] = .ok .directory := rfl
  have hnames : ((Turn.origins crowd).map (Upload.staging ["store"])).Nodup := by decide +kernel
  obtain ⟨hright, hstands, hover, hdeserved⟩ := uploads_keep_content hempty hnames
  have hresults := crowd_results
  generalize (uploads ["store"]).reached vacant crowd = reached at *
  refine ⟨hempty, hroot, hnames, fun k b => hright k abc.oid b ?_, ?_, ?_, hdeserved hroot⟩
  · exact Content.checkOid_of_isDigest (by decide +kernel)
  · have hmem : (abc, some true) ∈ [(abc, some true), (abc, some true), (abc, some false)] :=
      List.mem_cons_self
    rw [← hresults] at hmem
    obtain ⟨task, htask, hfirst⟩ := List.mem_map.mp hmem
    obtain ⟨hobject, hok⟩ := Prod.ext_iff.mp hfirst
    have hresult : task.result? = some (.ok ()) := by
      cases hr : task.result? with
      | none => simp [hr] at hok
      | some r =>
        cases r with
        | ok _ => rfl
        | error e => simp [hr, Except.isOk, Except.toBool] at hok
    have hshelved := hstands _ _ task (Nat.le_refl _) htask hresult
    simp only at hobject
    rw [hobject] at hshelved
    exact hshelved
  · refine (hover _ fun task htask hnone => ?_).1
    have hmem := List.mem_map_of_mem (f := fun task =>
      (task.origin.object, task.result?.map Except.isOk)) htask
    rw [hresults] at hmem
    simp [hnone] at hmem

end

end Depot.Files
