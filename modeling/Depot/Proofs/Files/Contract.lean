import Depot.Proofs.Content.Contract

/-!
# Files keep to the contract

Below a base directory that is there and was empty at first, the file of an object holds the bytes
that are kept for it, and where nothing is kept there is no file. An upload by itself is a run
without others beside it, so it comes to what its content makes of it and leaves the directory tidy;
what is left to show is that it makes no file but the one it is to make.

Headlines
* **`Holding`** says how files hold contents; **`holding_empty`**: an empty directory holds none.
* **`file_of_makes`**: the calls of an upload make no file but its own and, if its content is right,
  that of its object.
* **`meets`**: files keep to the contract as long as neither the names of uploads are too long nor
  any path.
-/

namespace Depot.Files

open Content (Answer Contents Digest checkOid)
open Registry (Object isDigest)
open Files.Tree (Alters)

variable {base : Path} {u : Upload} {m : Contents} {t : Tree} {oid : String} {b : Bytes}

/-- The answer to a call, and the tree after it. -/
def answer (base : Path) (t : Tree) : Content.Call → Answer × Tree
  | .put u =>
    let (r, t) := eval (put base u.token u.object u.body) t
    (.stored r, t)
  | .get oid =>
    let (r, t) := eval (get base oid) t
    (.content r, t)
  | .exists oid =>
    let (r, t) := (exists? base oid).run Tree.step t
    (.present r, t)
  | .verify o =>
    let (r, t) := eval (verify base o) t
    (.verified r, t)

/-- A call that needs no path that is too long and uploads nothing under a name that is. -/
def Nameable (base : Path) : Content.Call → Prop
  | .put u => u.Nameable base
  | .get oid => Path.Fits (locate base oid)
  | .exists oid => Path.Fits (locate base oid)
  | .verify o => Path.Fits (locate base o.oid)

instance (base : Path) : DecidablePred (Nameable base)
  | .put u => inferInstanceAs (Decidable (u.Nameable base))
  | .get oid | .exists oid => inferInstanceAs (Decidable (Path.Fits (locate base oid)))
  | .verify o => inferInstanceAs (Decidable (Path.Fits (locate base o.oid)))

/-- The files below a base directory hold contents: those of all digests, and nothing else is
there. -/
structure Holding (base : Path) (t : Tree) (m : Contents) : Prop where
  tidy : Tidy base [] True t
  stands : ∀ oid b, isDigest oid = true → m oid = some b → t.look (locate base oid) = .ok (.file b)
  absent : ∀ oid, isDigest oid = true → m oid = none → t.entries.get? (locate base oid) = none

theorem tidy_of_empty (hempty : t.listing base = []) (hroot : t.look base = .ok .directory)
    (us : List Upload) : Tidy base us True t := by
  have hnothing : ∀ p, base <+: p → p ≠ base → t.entries.get? p = none := fun p hp hne =>
    Tree.get?_of_listing_eq_nil hempty hp hne
  refine ⟨fun p b hp hne hentry => ?_, fun p hp hne hentry => ?_, fun _ => hroot⟩
  · exact absurd ((hnothing p hp hne).symm.trans hentry) (by simp)
  · exact absurd ((hnothing p hp hne).symm.trans hentry) (by simp)

/-- **An empty directory holds nothing.** -/
theorem holding_empty (hempty : t.listing base = []) (hroot : t.look base = .ok .directory) :
    Holding base t .empty := by
  refine ⟨tidy_of_empty hempty hroot [], fun _ _ _ h => absurd h (by simp [Contents.empty]),
    fun oid _ _ => ?_⟩
  obtain ⟨hbelow, hne⟩ := isPrefix_locate base oid
  exact Tree.get?_of_listing_eq_nil hempty hbelow hne

/-! ### The files that an upload makes -/

/-- The calls of an upload: only its own file is written, and only right content is moved. -/
def Upload.Asks (base : Path) (u : Upload) : Call → Prop
  | .createNew p | .append p _ | .remove p => p = u.staging base
  | .rename source target =>
    source = u.staging base ∧ target = u.place base ∧ u.verdict = .ok ()
  | .makeDirs _ | .status _ | .read _ => True

theorem makes_operation {c : Call} (h : u.Asks base c) :
    Program.Makes (u.Asks base) (operation c).run :=
  Program.Makes.bind (Program.makes_perform h) fun _ => trivial

theorem makes_appendAll (base : Path) (u : Upload) (reads : List Bytes) :
    Program.Makes (u.Asks base) (appendAll (u.staging base) reads).run := by
  induction reads with
  | nil => trivial
  | cons b reads ih =>
    refine Program.Makes.bind_action (makes_operation ?_) fun _ => ih
    rfl

theorem makes_writeStaged (ha : u.Accepted) : Program.Makes (u.Asks base)
    (writeStaged (u.staging base) (u.place base) u.object u.body).run := by
  have hverdict := Upload.verdict_of_accepted ha
  unfold writeStaged
  refine Program.Makes.bind_action (makes_operation ?_) fun _ => ?_
  · rfl
  refine Program.Makes.bind_action (makes_appendAll base u _) fun _ => ?_
  rw [u.body.measure_eq]
  cases hfailure : u.body.failure with
  | some text => trivial
  | none =>
    rw [hfailure] at hverdict
    simp only at hverdict ⊢
    cases hcheck : (Digest.of u.body.pieces.flatten).check u.object with
    | error e => trivial
    | ok _ =>
      have hmove : u.Asks base (.rename (u.staging base) (u.place base)) :=
        ⟨rfl, rfl, hverdict.trans hcheck⟩
      exact makes_operation hmove

theorem makes_put (base : Path) (u : Upload) :
    Program.Makes (u.Asks base) (put base u.token u.object u.body).run := by
  unfold put
  cases hoid : checkOid u.object.oid with
  | error e => trivial
  | ok _ =>
    refine Program.Makes.bind_action (x := operation (.makeDirs _)) (makes_operation ?_) fun _ => ?_
    · trivial
    refine Program.Makes.bind (makes_writeStaged hoid) fun r => ?_
    cases r with
    | ok _ => trivial
    | error e =>
      refine Program.Makes.bind (Program.makes_perform ?_) fun _ => trivial
      rfl

/-- A call of an upload makes no file but its own and that of its object. -/
theorem file_of_asks {c : Call} (hc : u.Asks base c) {p : Path}
    (hp : (t.step c).2.entries.get? p = some (.file b)) :
    t.entries.get? p = some (.file b) ∨ p = u.staging base ∨
      (p = u.place base ∧ u.verdict = .ok ()) := by
  refine Tree.step_induction (motive := fun t' => t'.entries.get? p = some (.file b) → _) Or.inl
    (fun hp => ?_) hp
  have halters : ∀ {q t'}, Alters q t t' → q = u.staging base →
      t'.entries.get? p = some (.file b) →
      t.entries.get? p = some (.file b) ∨ p = u.staging base ∨
        (p = u.place base ∧ u.verdict = .ok ()) := by
    intro q t' h hq hp
    by_cases hown : p = q
    · exact Or.inr (Or.inl (hown.trans hq))
    · exact Or.inl ((h.elsewhere p hown).symm.trans hp)
  cases c with
  | makeDirs q => exact Or.inl (Tree.get?_of_makeDirsFrom_eq_file [] q hp)
  | createNew q => exact halters (t.alters_createNew q) hc hp
  | append q x => exact halters (t.alters_append q x) hc hp
  | remove q => exact halters (t.alters_remove q) hc hp
  | rename source target =>
    obtain ⟨-, rfl, hverdict⟩ := hc
    by_cases hplace : p = u.place base
    · exact Or.inr (Or.inr ⟨hplace, hverdict⟩)
    · exact Or.inl (Tree.get?_of_rename hplace hp)
  | status q => exact Or.inl hp
  | read q => exact Or.inl hp

/-- **The calls of an upload make no file but its own and, if its content is right, that of its
object.** -/
theorem file_of_makes {α : Type} {p : Program Call Call.Reply α} (hp : p.Makes (u.Asks base))
    {q : Path} (hq : (p.run Tree.step t).2.entries.get? q = some (.file b)) :
    t.entries.get? q = some (.file b) ∨ q = u.staging base ∨
      (q = u.place base ∧ u.verdict = .ok ()) := by
  induction p generalizing t with
  | done a => exact Or.inl hq
  | call c next ih =>
    rcases ih _ (hp.2 _) hq with hbefore | hown
    · exact file_of_asks hp.1 hbefore
    · exact Or.inr hown

/-! ### What is kept -/

section

variable {us : List Upload} {rooted : Prop}

/-- A directory is tidy between uploads if it is tidy during one and nothing is left of that. -/
theorem Tidy.of_cleared (h : Tidy base [u] rooted t) (hu : u.Accepted → u.Written base none t) :
    Tidy base [] rooted t := by
  refine ⟨fun p b hp hne hentry => ?_, h.directories, h.root⟩
  rcases h.files p b hp hne hentry with hplace | ⟨v, hv, ha, rfl⟩
  · exact Or.inl hplace
  · obtain rfl := List.mem_singleton.mp hv
    exact absurd ((hu ha).symm.trans hentry) (by simp)

theorem Tidy.mono (h : Tidy base us rooted t) {us' : List Upload} (hus : ∀ v ∈ us, v ∈ us') :
    Tidy base us' rooted t := by
  refine ⟨fun p b hp hne hentry => ?_, h.directories, h.root⟩
  exact (h.files p b hp hne hentry).imp_right fun ⟨v, hv, hfile⟩ => ⟨v, hus v hv, hfile⟩

/-- There is no file of an upload whose name no other one has. -/
theorem Tidy.unwritten_of_apart (h : Tidy base us rooted t)
    (hapart : ∀ v ∈ us, u.staging base ≠ v.staging base) : u.Written base none t := by
  obtain ⟨hbelow, hne⟩ := isPrefix_staging base u
  show t.entries.get? (u.staging base) = none
  cases hentry : t.entries.get? (u.staging base) with
  | none => rfl
  | some e =>
    cases e with
    | directory => exact absurd hentry (h.staging_ne_directory u)
    | file b =>
      rcases h.files _ b hbelow hne hentry with hplace | ⟨v, hv, -, hsame⟩
      · have hdigest := Content.checkOid_of_isDigest (Content.isDigest_hexDigest b)
        exact absurd hplace (staging_ne_locate u hdigest)
      · exact absurd hsame (hapart v hv)

/-- Between uploads there is no file of an upload. -/
theorem Tidy.unwritten (h : Tidy base [] rooted t) (u : Upload) : u.Written base none t :=
  h.unwritten_of_apart fun _ hv => absurd hv List.not_mem_nil

/-- Where there is no file of an object, a look finds nothing. -/
theorem Tidy.look_absent (h : Tidy base us rooted t) (hroot : rooted) (hdigest : isDigest oid = true)
    (hnone : t.entries.get? (locate base oid) = none) :
    t.look (locate base oid) = .error .notFound := by
  unfold locate at hnone ⊢
  rw [Tree.look_below (h.root hroot)]
  refine Tree.walkFrom_eq_notFound (Content.keyParts_ne_nil oid) (fun name hname => ?_)
    (fun x b hx hne => ?_) hnone
  · have hshort := Content.utf8ByteSize_le_of_mem_keyParts hdigest hname
    unfold tooLong
    simp only [decide_eq_false_iff_not]
    omega
  · rw [← List.dropLast_concat_getLast (Content.keyParts_ne_nil oid)] at hx
    rcases List.prefix_concat_iff.mp hx with hwhole | hshort
    · rw [List.dropLast_concat_getLast] at hwhole
      rw [hwhole, hnone]
      exact fun h => absurd h (by simp)
    · exact h.directory_ne_file (Content.checkOid_of_isDigest hdigest) hshort hne b

end

/-- What a look at the place of an object finds: its bytes, or nothing. -/
theorem Holding.look (h : Holding base t m) (hdigest : isDigest oid = true) :
    t.look (locate base oid) =
      match m oid with
      | some b => .ok (.file b)
      | none => .error .notFound := by
  cases hm : m oid with
  | some b => exact h.stands oid b hdigest hm
  | none => exact h.tidy.look_absent trivial hdigest (h.absent oid hdigest hm)

/-- The place of an upload does not lead to that of another object. -/
theorem place_not_isPrefix_locate (hdigest : isDigest u.object.oid = true)
    (hoid : isDigest oid = true) (hne : oid ≠ u.object.oid) : ¬ u.place base <+: locate base oid :=
  fun hstarts => hne (eq_of_locate_isPrefix hdigest hoid hstarts).symm

section

variable (h : Holding base t m) (hdigest : isDigest u.object.oid = true)

include h hdigest

/-- After an upload by itself the bytes that are kept stand. -/
theorem Holding.stands_put (hverdict : (eval (put base u.token u.object u.body) t).1 = u.verdict)
    (hoid : isDigest oid = true) (hkept : m.store u oid = some b) :
    (eval (put base u.token u.object u.body) t).2.look (locate base oid) = .ok (.file b) := by
  have hstaging : ¬ u.staging base <+: locate base oid :=
    staging_not_isPrefix_locate u (Content.checkOid_of_isDigest hoid)
  obtain ⟨e, t', heval, hkeeps⟩ | ⟨t', heval, hstored, hkeeps⟩ :=
    put_cases base u.token u.object u.body t
  · rw [heval] at hverdict ⊢
    rw [Contents.store_of_error hverdict.symm] at hkept
    exact hkeeps _ hstaging _ (h.stands oid b hoid hkept)
  · rw [heval] at hverdict ⊢
    obtain ⟨-, rfl, hnew⟩ | ⟨hsame, hne⟩ := Contents.store_cases m u oid
    · obtain rfl := Option.some.inj (hnew.symm.trans hkept)
      exact hstored.stands
    · have hapart : ¬ u.place base <+: locate base oid :=
        place_not_isPrefix_locate hdigest hoid (hne hverdict.symm)
      exact hkeeps _ hstaging hapart _ (h.stands oid b hoid (hsame.symm.trans hkept))

/-- After an upload by itself there is no file where nothing is kept. -/
theorem Holding.absent_put (htidy : Tidy base [] True (eval (put base u.token u.object u.body) t).2)
    (hoid : isDigest oid = true) (hnone : m.store u oid = none) :
    (eval (put base u.token u.object u.body) t).2.entries.get? (locate base oid) = none := by
  obtain ⟨-, -, hnew⟩ | ⟨hsame, hne⟩ := Contents.store_cases m u oid
  · exact absurd (hnew.symm.trans hnone) (by simp)
  cases hentry : (eval (put base u.token u.object u.body) t).2.entries.get? (locate base oid) with
  | none => rfl
  | some e =>
    cases e with
    | directory => exact absurd hentry (htidy.place_ne_directory hoid)
    | file b =>
      rcases file_of_makes (makes_put base u) hentry with hbefore | hstaging | ⟨hplace, hok⟩
      · have hnothing := h.absent oid hoid (hsame.symm.trans hnone)
        exact absurd (hnothing.symm.trans hbefore) (by simp)
      · exact absurd hstaging.symm (staging_ne_locate u (Content.checkOid_of_isDigest hoid))
      · have hstarts : u.place base <+: locate base oid := hplace ▸ List.prefix_refl _
        exact absurd hstarts (place_not_isPrefix_locate hdigest hoid (hne hok))

/-- An upload by itself comes to what its content makes of it, and is kept if it succeeds. -/
theorem Holding.put (hname : u.Nameable base) :
    (eval (put base u.token u.object u.body) t).1 = u.verdict ∧
      Holding base (eval (put base u.token u.object u.body) t).2 (m.store u) := by
  obtain ⟨htidy, hfinished⟩ := Respects.run
    (respects_put (List.mem_singleton_self u) (h.tidy.unwritten u))
    (h.tidy.mono fun _ hv => absurd hv List.not_mem_nil)
  have hverdict : (eval (Files.put base u.token u.object u.body) t).1 = u.verdict :=
    hfinished.deserved trivial hname
  have hdone : Tidy base [] True (eval (Files.put base u.token u.object u.body) t).2 :=
    Tidy.of_cleared htidy hfinished.cleared
  exact ⟨hverdict, hdone, fun oid b hoid hkept => h.stands_put hdigest hverdict hoid hkept,
    fun oid hoid hnone => h.absent_put hdigest hdone hoid hnone⟩

end

/-! ### What is read -/

section

variable (h : Holding base t m) (hdigest : isDigest oid = true) (hfits : Path.Fits (locate base oid))

include h hdigest hfits

/-- What is found at the place of an object: its bytes, or nothing. -/
theorem Holding.find : t.find (locate base oid) =
    match m oid with
    | some b => .ok (.file b)
    | none => .error .notFound :=
  (Tree.find_of_fits hfits).trans (h.look hdigest)

theorem Holding.get : eval (get base oid) t = (m.fetch oid, t) := by
  rw [eval_get (Content.checkOid_of_isDigest hdigest), h.find hdigest hfits]
  unfold Contents.fetch
  cases m oid with
  | some b => rfl
  | none => rfl

theorem Holding.exists? : (exists? base oid).run Tree.step t = ((m oid).isSome, t) := by
  rw [run_exists? (Content.checkOid_of_isDigest hdigest), h.find hdigest hfits]
  cases m oid with
  | some b => rfl
  | none => rfl

theorem Holding.verify {o : Object} (ho : o.oid = oid) : eval (verify base o) t =
    ((m.fetch oid).bind fun b => (Digest.of b).check o, t) := by
  subst ho
  rw [eval_verify (Content.checkOid_of_isDigest hdigest), h.find hdigest hfits]
  unfold Contents.fetch
  cases m o.oid with
  | some b => rfl
  | none => rfl

end

/-- **Files keep to the contract.** -/
theorem meets (base : Path) :
    Content.Meets (answer base) (Holding base) fun c => c.Proper ∧ Nameable base c := by
  intro t m c h ⟨hproper, hname⟩
  cases c with
  | put u =>
    obtain ⟨hverdict, hkept⟩ := h.put hproper.1 hname
    exact ⟨congrArg Answer.stored hverdict, hkept⟩
  | get oid =>
    simp only [answer, h.get hproper hname]
    exact ⟨rfl, h⟩
  | «exists» oid =>
    simp only [answer, h.exists? hproper hname]
    exact ⟨rfl, h⟩
  | verify o =>
    simp only [answer, h.verify hproper hname rfl]
    exact ⟨rfl, h⟩

end Depot.Files
