import Depot.Files.Store
import Depot.Proofs.Content.Body
import Depot.Proofs.Files.Tree

/-!
# Uploads to files

An upload touches no file but its own and, once its content proves to be the object's, that of the
object. So whatever is stored stays until the same content takes its place, and is found right when
it is verified.

Headlines
* **`put_cases`**: an upload that fails leaves everything but its own file as it was; one that
  succeeds leaves the object's content at the object's place.
* **`Holds.put`**: content that is stored survives every upload, whatever comes of it.
* **`run_exists?`**, **`eval_get`**, **`eval_verify`**: each way to read an object by what stands at
  its place; **`verify_of_holds`**: content that is stored is verified.
-/

namespace Depot.Files

open Content (Body Digest checkOid)
open Registry (Object isDigest)
open Files.Tree (Keeps)

variable {α β : Type} {t u : Tree} {base path staging : Path} {o : Object} {body : Body}

/-- What an action comes to over a tree, and the tree after it. -/
def eval (x : Action α) (t : Tree) : Except Content.Error α × Tree := Program.run Tree.step x.run t

@[simp] theorem eval_lift (x : Except Content.Error α) (t : Tree) :
    eval (liftM x : Action α) t = (x, t) := rfl

theorem eval_operation_of_ok {c : Call} {wrap : Fault → Content.Error} {a : c.Answer}
    (h : (t.step c).1 = .ok a) : eval (operation c wrap) t = (.ok a, (t.perform c).2) := by
  show ((t.step c).1.mapError wrap, (t.step c).2) = _
  rw [h, (Tree.step_of_ok h).2.2]
  rfl

theorem eval_operation_of_error {c : Call} {wrap : Fault → Content.Error} {fault : Fault}
    (h : (t.step c).1 = .error fault) :
    eval (operation c wrap) t = (.error (wrap fault), (t.step c).2) := by
  show ((t.step c).1.mapError wrap, (t.step c).2) = _
  rw [h]
  rfl

theorem eval_bind_of_ok {x : Action α} {f : α → Action β} {a : α} (h : eval x t = (.ok a, u)) :
    eval (x >>= f) t = eval (f a) u := Program.run_bind_of_ok h

theorem eval_bind_of_error {x : Action α} {f : α → Action β} {e : Content.Error}
    (h : eval x t = (.error e, u)) : eval (x >>= f) t = (.error e, u) :=
  Program.run_bind_of_error h

/-! ### Paths -/

/-- The path of an upload leads to no object. -/
theorem stagingPath_not_isPrefix {oid oid' token : String} (h : checkOid oid' = .ok ()) :
    ¬ stagingPath (locate base oid) token <+: locate base oid' := by
  intro hstarts
  unfold stagingPath locate at hstarts
  rw [List.dropLast_append_of_ne_nil (Content.keyParts_ne_nil oid), List.append_assoc,
    List.prefix_append_right_inj] at hstarts
  -- The name of an upload holds a dot, which no part of a key does.
  have hname := hstarts.subset (List.mem_append_right _ (List.mem_singleton_self _))
  have hdot := Content.plain_of_mem_keyParts h hname (c := '.') (by simp)
  exact absurd hdot (by decide)

theorem stagingPath_ne_locate {oid oid' token : String} (h : checkOid oid' = .ok ()) :
    stagingPath (locate base oid) token ≠ locate base oid' := by
  intro heq
  have hstarts : ¬ stagingPath (locate base oid) token <+: locate base oid' :=
    stagingPath_not_isPrefix h
  rw [heq] at hstarts
  exact hstarts (List.prefix_refl _)

theorem stagingPath_ne_nil (path : Path) (token : String) : stagingPath path token ≠ [] := by
  unfold stagingPath
  simp

theorem locate_ne_nil (base : Path) (oid : String) : locate base oid ≠ [] := by
  unfold locate
  simp [Content.keyParts_ne_nil]

/-- Of two digests neither place leads through the other. -/
theorem eq_of_locate_isPrefix {oid oid' : String} (h : isDigest oid = true)
    (h' : isDigest oid' = true) (hstarts : locate base oid <+: locate base oid') : oid = oid' :=
  Content.eq_of_keyParts_isPrefix h h' ((List.prefix_append_right_inj base).mp hstarts)

/-! ### Reading -/

section

variable {oid : String}

/-- There is a file for an object just if one is found at its place. -/
theorem run_exists? (hoid : checkOid oid = .ok ()) (t : Tree) :
    (exists? base oid).run Tree.step t =
      (match t.find (locate base oid) with
        | .ok (.file _) => true
        | .ok .directory | .error _ => false, t) := by
  have hstatus : (Program.perform (.status (locate base oid))).run Tree.step t =
      t.step (.status (locate base oid)) := rfl
  unfold exists?
  rw [hoid]
  simp only
  rw [Program.run_bind, hstatus, Tree.step_status]
  cases t.find (locate base oid) with
  | error fault => rfl
  | ok e => cases e <;> rfl

/-- The content of an object is that of the file at its place. A directory is opened as well, and
cannot be read. -/
theorem eval_get (hoid : checkOid oid = .ok ()) (t : Tree) :
    eval (get base oid) t =
      (match t.find (locate base oid) with
        | .ok (.file b) => .ok b
        | .ok .directory => .error (.io .isDirectory)
        | .error fault => .error (openFailure oid fault), t) := by
  have hread : eval (operation (.read (locate base oid)) (openFailure oid)) t =
      ((t.step (.read (locate base oid))).1.mapError (openFailure oid),
        (t.step (.read (locate base oid))).2) := rfl
  unfold get
  rw [hoid, eval_bind_of_ok (eval_lift (.ok ()) t)]
  refine hread.trans ?_
  rw [Tree.step_read]
  cases t.find (locate base oid) with
  | error fault => rfl
  | ok e => cases e <;> rfl

/-- The length is compared before the bytes are read, which the comparison of the bytes would do
first as well. A directory shows a length of its own. -/
theorem eval_verify (hoid : checkOid o.oid = .ok ()) (t : Tree) :
    eval (verify base o) t =
      (match t.find (locate base o.oid) with
        | .ok (.file b) => (Digest.of b).check o
        | .ok .directory =>
          if (t.directoryLength : Int) ≠ o.size then .error (.sizeMismatch o.size t.directoryLength)
          else .error (.io .isDirectory)
        | .error fault => .error (openFailure o.oid fault), t) := by
  have hstatus : eval (operation (.status (locate base o.oid)) (openFailure o.oid)) t =
      ((t.step (.status (locate base o.oid))).1.mapError (openFailure o.oid),
        (t.step (.status (locate base o.oid))).2) := rfl
  have hread : eval (operation (.read (locate base o.oid)) (openFailure o.oid)) t =
      ((t.step (.read (locate base o.oid))).1.mapError (openFailure o.oid),
        (t.step (.read (locate base o.oid))).2) := rfl
  rw [Tree.step_status] at hstatus
  rw [Tree.step_read] at hread
  unfold verify
  rw [hoid, eval_bind_of_ok (eval_lift (.ok ()) t)]
  simp only
  cases hfind : t.find (locate base o.oid) with
  | error fault =>
    rw [hfind] at hstatus
    exact eval_bind_of_error hstatus
  | ok e =>
    rw [hfind] at hstatus hread
    cases e with
    | file b =>
      have hlength : eval (operation (.status (locate base o.oid)) (openFailure o.oid)) t =
          (.ok (.file b.length), t) := hstatus
      rw [eval_bind_of_ok hlength]
      by_cases hsize : (b.length : Int) = o.size
      · rw [if_neg (fun h => h hsize), eval_bind_of_ok hread]
        rfl
      · have hcheck : (Digest.of b).check o = .error (.sizeMismatch o.size b.length) := if_pos hsize
        have hdiffers : ((Status.file b.length).length : Int) ≠ o.size := hsize
        rw [if_pos hdiffers]
        simp only [hcheck]
        rfl
    | directory =>
      have hlength : eval (operation (.status (locate base o.oid)) (openFailure o.oid)) t =
          (.ok (.directory t.directoryLength), t) := hstatus
      rw [eval_bind_of_ok hlength]
      by_cases hsize : (t.directoryLength : Int) = o.size
      · have hsame : ((Status.directory t.directoryLength).length : Int) = o.size := hsize
        rw [if_neg (fun h => h hsame), eval_bind_of_error hread]
        simp only [hsize, ne_eq, not_true_eq_false, if_false]
        rfl
      · have hdiffers : ((Status.directory t.directoryLength).length : Int) ≠ o.size := hsize
        rw [if_pos hdiffers, if_pos hsize]
        rfl

end

/-! ### Uploads -/

/-- A whole body that is the content of an object stands at a path that the system takes. -/
structure Stored (o : Object) (body : Body) (path : Path) (t : Tree) : Prop where
  /-- The path is not too long. -/
  fits : Path.Fits path
  /-- The body did not break off. -/
  whole : body.failure = none
  /-- It is the object's content. -/
  checked : (Digest.of body.pieces.flatten).check o = .ok ()
  /-- It is the file at the path. -/
  stands : t.look path = .ok (.file body.pieces.flatten)

/-- The reads of a body are added to a file one after another. -/
theorem eval_appendAll {old : Bytes} (h : t.look staging = .ok (.file old)) (reads : List Bytes) :
    ∃ u, eval (appendAll staging reads) t = (.ok (), u) ∧
      u.look staging = .ok (.file (old ++ reads.flatten)) ∧
      ∀ p, ¬ staging <+: p → Keeps p t u := by
  induction reads generalizing t old with
  | nil =>
    refine ⟨t, rfl, ?_, fun p _ => Keeps.refl p t⟩
    rw [List.flatten_nil, List.append_nil]
    exact h
  | cons b reads ih =>
    obtain ⟨hok, hstands⟩ := Tree.look_append b h
    obtain ⟨u, hrest, hstands', hkeeps⟩ := ih hstands
    have hfirst : eval (operation (.append staging b)) t = (.ok (), (t.append staging b).2) := by
      rw [← Tree.step_append] at hok
      exact eval_operation_of_ok hok
    refine ⟨u, ?_, ?_, fun p hp => ?_⟩
    · unfold appendAll
      rw [eval_bind_of_ok hfirst, hrest]
    · rw [List.flatten_cons, ← List.append_assoc]
      exact hstands'
    · exact (Tree.keeps_append t b hp).trans (hkeeps p hp)

/-- **An upload to a file of its own** leaves all but that file as it was if it fails, and the
object's content in its place if it succeeds. -/
theorem writeStaged_cases (hstaging : staging ≠ []) (hpath : path ≠ [])
    (hapart : ¬ staging <+: path) (o : Object) (body : Body) (t : Tree) :
    (∃ e u, eval (writeStaged staging path o body) t = (.error e, u) ∧
      ∀ p, ¬ staging <+: p → Keeps p t u) ∨
    ∃ u, eval (writeStaged staging path o body) t = (.ok (), u) ∧ Stored o body path u ∧
      ∀ p, ¬ staging <+: p → ¬ path <+: p → Keeps p t u := by
  unfold writeStaged
  have hnew : ∀ p, Keeps p t (t.createNew staging).2 := fun p => t.keeps_createNew p staging
  cases hcreate : (t.step (.createNew staging)).1 with
  | error fault =>
    have hfirst : eval (operation (.createNew staging)) t =
        (.error (.io fault), (t.step (.createNew staging)).2) := eval_operation_of_error hcreate
    exact Or.inl ⟨_, _, eval_bind_of_error hfirst, fun p _ =>
      Tree.step_induction (Keeps.refl p t) (hnew p)⟩
  | ok _ =>
    have hfirst : eval (operation (.createNew staging)) t =
        (.ok (), (t.createNew staging).2) := eval_operation_of_ok hcreate
    obtain ⟨u, happend, hstands, hkeeps⟩ :=
      eval_appendAll (Tree.look_createNew hstaging (Tree.step_of_ok hcreate).2.1) body.reads
    have hwritten : ∀ p, ¬ staging <+: p → Keeps p t u := fun p hp =>
      (hnew p).trans (hkeeps p hp)
    rw [eval_bind_of_ok hfirst, eval_bind_of_ok happend, body.measure_eq]
    rw [List.nil_append, body.flatten_reads] at hstands
    cases hfailure : body.failure with
    | some text => exact Or.inl ⟨_, u, rfl, hwritten⟩
    | none =>
      simp only
      cases hcheck : (Digest.of body.pieces.flatten).check o with
      | error e => exact Or.inl ⟨e, u, rfl, hwritten⟩
      | ok _ =>
        rw [eval_bind_of_ok (eval_lift (.ok ()) u)]
        cases hrename : (u.step (.rename staging path)).1 with
        | error fault =>
          refine Or.inl ⟨_, _, eval_operation_of_error hrename, ?_⟩
          rw [Tree.step_rename_of_error hrename]
          exact hwritten
        | ok _ =>
          obtain ⟨hfits, hok, -⟩ := Tree.step_of_ok hrename
          have hstored : Stored o body path (u.rename staging path).2 :=
            ⟨hfits path (by simp [Call.paths]), hfailure, hcheck,
              Tree.look_rename hpath hapart hstands hok⟩
          exact Or.inr ⟨_, eval_operation_of_ok hrename, hstored, fun p hp hp' =>
            (hwritten p hp).trans (u.keeps_rename hp hp')⟩

/-- **An upload that fails leaves everything but its own file as it was. One that succeeds leaves
the object's content at the object's place** and everything else as it was. -/
theorem put_cases (base : Path) (token : String) (o : Object) (body : Body) (t : Tree) :
    (∃ e u, eval (put base token o body) t = (.error e, u) ∧
      ∀ p, ¬ stagingPath (locate base o.oid) token <+: p → Keeps p t u) ∨
    ∃ u, eval (put base token o body) t = (.ok (), u) ∧ Stored o body (locate base o.oid) u ∧
      ∀ p, ¬ stagingPath (locate base o.oid) token <+: p → ¬ locate base o.oid <+: p →
        Keeps p t u := by
  unfold put
  cases hoid : checkOid o.oid with
  | error e => exact Or.inl ⟨e, t, rfl, fun p _ => Keeps.refl p t⟩
  | ok _ =>
    rw [eval_bind_of_ok (eval_lift (.ok ()) t)]
    simp only
    generalize hpath : locate base o.oid = path
    generalize hstaging : stagingPath path token = staging
    have hdirs : ∀ p, Keeps p t (t.makeDirs path.dropLast).2 := fun p =>
      t.keeps_makeDirs p path.dropLast
    cases hmake : (t.step (.makeDirs path.dropLast)).1 with
    | error fault =>
      have hfirst : eval (operation (.makeDirs path.dropLast)) t =
          (.error (.io fault), (t.step (.makeDirs path.dropLast)).2) :=
        eval_operation_of_error hmake
      exact Or.inl ⟨_, _, eval_bind_of_error hfirst, fun p _ =>
        Tree.step_induction (Keeps.refl p t) (hdirs p)⟩
    | ok _ =>
      have hfirst : eval (operation (.makeDirs path.dropLast)) t =
          (.ok (), (t.makeDirs path.dropLast).2) := eval_operation_of_ok hmake
      rw [eval_bind_of_ok hfirst]
      obtain ⟨e, u, hstaged, hkeeps⟩ | ⟨u, hstaged, hstored, hkeeps⟩ :=
        writeStaged_cases (hstaging ▸ stagingPath_ne_nil path token)
          (hpath ▸ locate_ne_nil base o.oid)
          (hstaging ▸ hpath ▸ stagingPath_not_isPrefix hoid) o body (t.makeDirs path.dropLast).2
      · refine Or.inl ⟨e, (u.step (.remove staging)).2, ?_, fun p hp => ?_⟩
        · unfold eval at hstaged ⊢
          rw [ExceptT.run_mk, Program.run_bind, hstaged]
          rfl
        · have hwritten : Keeps p t u := (hdirs p).trans (hkeeps p hp)
          exact Tree.step_induction hwritten (hwritten.trans (u.keeps_remove hp))
      · refine Or.inr ⟨u, ?_, hstored, fun p hp hp' => (hdirs p).trans (hkeeps p hp hp')⟩
        unfold eval at hstaged ⊢
        rw [ExceptT.run_mk, Program.run_bind, hstaged]
        rfl

/-! ### What is stored -/

/-- The file of an object holds content of its digest and of some size, and can be opened. -/
def Holds (base : Path) (oid : String) (size : Int) (t : Tree) : Prop :=
  Path.Fits (locate base oid) ∧
    ∃ b : Bytes, t.look (locate base oid) = .ok (.file b) ∧ (b.length : Int) = size ∧
      Sha256.hexDigest b = oid

theorem Holds.isDigest {oid : String} {size : Int} (h : Holds base oid size t) :
    isDigest oid = true := by
  obtain ⟨-, b, -, -, rfl⟩ := h
  exact Content.isDigest_hexDigest b

theorem Stored.holds (h : Stored o body (locate base o.oid) t) : Holds base o.oid o.size t := by
  obtain ⟨hsize, hoid⟩ := Content.Digest.check_eq_ok_iff.mp h.checked
  exact ⟨h.fits, body.pieces.flatten, h.stands, hsize, hoid⟩

/-- An upload that succeeds stores its object. -/
theorem holds_of_put_ok {token : String} (h : eval (put base token o body) t = (.ok (), u)) :
    Holds base o.oid o.size u := by
  obtain ⟨e, u', heval, -⟩ | ⟨u', heval, hstored, -⟩ := put_cases base token o body t
  · exact absurd (congrArg Prod.fst (h.symm.trans heval)) (by simp)
  · obtain rfl : u = u' := congrArg Prod.snd (h.symm.trans heval)
    exact hstored.holds

/-- **Content that is stored survives every upload**, whatever comes of it, as long as no object
with that digest and another size is uploaded. -/
theorem Holds.put {oid : String} {size : Int} (h : Holds base oid size t) {token : String}
    (hsize : o.oid = oid → o.size = size) :
    Holds base oid size (eval (put base token o body) t).2 := by
  have hstaging : ¬ stagingPath (locate base o.oid) token <+: locate base oid :=
    stagingPath_not_isPrefix (Content.checkOid_of_isDigest h.isDigest)
  obtain ⟨e, u, heval, hkeeps⟩ | ⟨u, heval, hstored, hkeeps⟩ := put_cases base token o body t
  · rw [heval]
    obtain ⟨hfits, b, hstands, hb⟩ := h
    exact ⟨hfits, b, hkeeps _ hstaging _ hstands, hb⟩
  · rw [heval]
    have hnew := hstored.holds
    -- The same object gets content of the same digest and size, another one a place of its own.
    by_cases hoid : o.oid = oid
    · rw [hoid, hsize hoid] at hnew
      exact hnew
    · have hapart : ¬ locate base o.oid <+: locate base oid := fun hstarts =>
        hoid (eq_of_locate_isPrefix hnew.isDigest h.isDigest hstarts)
      obtain ⟨hfits, b, hstands, hb⟩ := h
      exact ⟨hfits, b, hkeeps _ hstaging hapart _ hstands, hb⟩

/-- **Content that is stored is verified**, and that changes nothing. -/
theorem verify_of_holds (h : Holds base o.oid o.size t) : eval (verify base o) t = (.ok (), t) := by
  have hoid := Content.checkOid_of_isDigest h.isDigest
  obtain ⟨hfits, b, hstands, hsize, hdigest⟩ := h
  have hcheck : (Digest.of b).check o = .ok () :=
    Content.Digest.check_eq_ok_iff.mpr ⟨hsize, hdigest⟩
  rw [eval_verify hoid, Tree.find_of_fits hfits, hstands]
  simp only [hcheck]

end Depot.Files
