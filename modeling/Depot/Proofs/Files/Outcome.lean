import Depot.Proofs.Files.Contract

/-!
# What an upload comes to, and what it leaves of other files

An upload is refused for the first thing that is wrong with it: its id, its end, its length, its
digest. Whatever other uploads have left behind, be they over or broken off between two of their
file operations, it comes to that and changes no file but the one of its object, and that one only
if nothing is wrong.

Headlines
* **`Upload.outcome`** is the first thing that is wrong; **`Upload.verdict_eq_outcome`**.
* **`file?_of_makes`**: the calls of an upload leave every file but its own and its object's.
* **`put_outcome`**: the outcome of an upload and every file after it, from every tree that uploads
  have led to.
-/

namespace Depot.Files

open Content (Body Digest checkOid)
open Registry (Object isDigest)
open Files.Tree (Alters)

variable {base : Path} {us us' : List Upload} {rooted : Prop} {u : Upload} {t : Tree} {p : Path}
  {b : Bytes}

/-! ### The outcome -/

/-- What an upload comes to: the first thing that is wrong with it. -/
def Upload.outcome (u : Upload) : Except Content.Error Unit :=
  let bytes := u.body.pieces.flatten
  if checkOid u.object.oid ≠ .ok () then .error (.invalidOid u.object.oid)
  else match u.body.failure with
    | some text => .error (.io (.broken text))
    | none =>
      if (bytes.length : Int) ≠ u.object.size then
        .error (.sizeMismatch u.object.size bytes.length)
      else if Sha256.hexDigest bytes ≠ u.object.oid then
        .error (.hashMismatch u.object.oid (Sha256.hexDigest bytes))
      else .ok ()

/-- The content of an upload alone makes of it what is first wrong with it. -/
theorem Upload.verdict_eq_outcome (u : Upload) : u.verdict = u.outcome := by
  unfold outcome
  cases hoid : checkOid u.object.oid with
  | error e =>
    unfold verdict
    rw [hoid, Content.eq_invalidOid hoid]
    exact (if_pos (by simp)).symm
  | ok _ =>
    rw [verdict_of_accepted hoid]
    refine Eq.trans ?_ (if_neg (by simp)).symm
    cases u.body.failure with
    | some text => rfl
    | none => rfl

/-- Nothing is wrong with an upload. -/
theorem Upload.outcome_eq_ok_iff : u.outcome = .ok () ↔
    checkOid u.object.oid = .ok () ∧ u.body.failure = none ∧
      (u.body.pieces.flatten.length : Int) = u.object.size ∧
      Sha256.hexDigest u.body.pieces.flatten = u.object.oid := by
  unfold outcome
  generalize u.body.pieces.flatten = bytes
  by_cases hoid : checkOid u.object.oid = .ok ()
  · cases u.body.failure with
    | some text => simp [hoid]
    | none =>
      by_cases hsize : (bytes.length : Int) = u.object.size
      · by_cases hdigest : Sha256.hexDigest bytes = u.object.oid
        · simp [hoid, hsize, hdigest]
        · simp [hoid, hsize, hdigest]
      · simp [hoid, hsize]
  · simp [hoid]

/-! ### The files of a tree -/

/-- The bytes of the file at a path, if one stands there. -/
def Tree.file? (t : Tree) (p : Path) : Option Bytes :=
  match t.entries.get? p with
  | some (.file b) => some b
  | some .directory | none => none

theorem Tree.file?_eq_some_iff : t.file? p = some b ↔ t.entries.get? p = some (.file b) := by
  unfold file?
  cases t.entries.get? p with
  | none => simp
  | some e =>
    cases e with
    | directory => simp
    | file c => simp

/-- Making directories leaves the files. -/
theorem Tree.file?_makeDirs (t : Tree) (q : Path) : (t.makeDirs q).2.file? = t.file? := by
  funext p
  refine Option.ext fun b => ?_
  rw [file?_eq_some_iff, file?_eq_some_iff]
  exact ⟨get?_of_makeDirsFrom_eq_file [] q, get?_makeDirsFrom [] q⟩

/-- A file that is not moved and not replaced stays when another one is moved. -/
theorem Tree.get?_rename_of_ne {source target : Path} (hsource : p ≠ source)
    (htarget : p ≠ target) :
    (t.rename source target).2.entries.get? p = t.entries.get? p := by
  unfold rename
  split
  · rfl
  · rfl
  · rfl
  · rfl
  · rw [(alters_put _ _ _).elsewhere p htarget, (alters_erase _ _).elsewhere p hsource]

/-- A call of an upload leaves every file but its own and, if its content is right, that of its
object. -/
theorem file?_of_asks {c : Call} (hc : u.Asks base c) (hstaging : p ≠ u.staging base)
    (hplace : u.verdict = .ok () → p ≠ u.place base) : (t.step c).2.file? p = t.file? p := by
  refine Tree.step_induction (motive := fun t' => t'.file? p = t.file? p) rfl ?_
  have halters : ∀ {q t'}, Alters q t t' → q = u.staging base → t'.file? p = t.file? p := by
    rintro q t' h rfl
    unfold Tree.file?
    rw [h.elsewhere p hstaging]
  cases c with
  | makeDirs q => exact congrFun (t.file?_makeDirs q) p
  | createNew q => exact halters (t.alters_createNew q) hc
  | append q x => exact halters (t.alters_append q x) hc
  | remove q => exact halters (t.alters_remove q) hc
  | rename source target =>
    obtain ⟨rfl, rfl, hverdict⟩ := hc
    have hsame : (t.perform (.rename (u.staging base) (u.place base))).2.entries.get? p =
        t.entries.get? p := Tree.get?_rename_of_ne hstaging (hplace hverdict)
    unfold Tree.file?
    rw [hsame]
  | status q => rfl
  | read q => rfl

/-- **The calls of an upload leave every file but its own and, if its content is right, that of its
object.** -/
theorem file?_of_makes {α : Type} {x : Program Call Call.Reply α} (hx : x.Makes (u.Asks base))
    (hstaging : p ≠ u.staging base) (hplace : u.verdict = .ok () → p ≠ u.place base) :
    (x.run Tree.step t).2.file? p = t.file? p := by
  induction x generalizing t with
  | done a => rfl
  | call c next ih => exact (ih _ (hx.2 _)).trans (file?_of_asks hx.1 hstaging hplace)

/-! ### An upload from a tree that uploads lead to -/

section

variable (htidy : Tidy base us True t) (hapart : ∀ v ∈ us, u.staging base ≠ v.staging base)

include htidy hapart

/-- An upload by itself, in a tidy tree that has nothing of it, comes to its outcome and leaves
nothing of its own file. -/
theorem outcome_of_tidy (hname : u.Nameable base) :
    (eval (put base u.token u.object u.body) t).1 = u.outcome ∧
      (eval (put base u.token u.object u.body) t).2.entries.get? (u.staging base) = none := by
  have hnone : u.Written base none t := htidy.unwritten_of_apart hapart
  have hmore : Tidy base (u :: us) True t := htidy.mono fun _ hv => List.mem_cons_of_mem u hv
  obtain ⟨-, hfinished⟩ := Respects.run (respects_put List.mem_cons_self hnone) hmore
  have hverdict : (eval (put base u.token u.object u.body) t).1 = u.verdict :=
    hfinished.deserved trivial hname
  refine ⟨hverdict.trans u.verdict_eq_outcome, ?_⟩
  cases hoid : checkOid u.object.oid with
  | error e =>
    -- An upload under an id that is no key does not get as far as to a file.
    unfold put
    rw [hoid]
    exact hnone
  | ok _ => exact hfinished.cleared hoid

/-- It leaves every file as it was but that of its object, and that one too if it is refused. -/
theorem file?_put (hname : u.Nameable base) (hplace : u.outcome = .ok () → p ≠ u.place base) :
    (eval (put base u.token u.object u.body) t).2.file? p = t.file? p := by
  by_cases hstaging : p = u.staging base
  · subst hstaging
    have hbefore : t.entries.get? (u.staging base) = none := htidy.unwritten_of_apart hapart
    have hafter := (outcome_of_tidy htidy hapart hname).2
    unfold Tree.file?
    rw [hbefore, hafter]
  · exact file?_of_makes (makes_put base u) hstaging fun h => hplace (u.verdict_eq_outcome ▸ h)

end

/-- **The outcome of an upload and every file after it.** Let any uploads have been started below an
empty directory, each under a name that is used once, and have gone on for a while by a file
operation at a time in any order, and let another one be made from the tree that they have led to,
its name not used before and, as its path, not too long. It comes to the first thing that is wrong with it. If
nothing is, the file of its object holds its bytes and every other file is as it was; otherwise
every file is as it was. Its own file is not left. -/
theorem put_outcome {start : Tree} {turns : List (Turn Upload Empty)}
    (hempty : start.listing base = []) (hroot : start.look base = .ok .directory)
    (hnames : ((Turn.origins turns ++ [u]).map (Upload.staging base)).Nodup)
    (hname : u.Nameable base) :
    let t := ((uploads base).reached start turns turns.length).state
    let bytes := u.body.pieces.flatten
    let r := (eval (put base u.token u.object u.body) t).1
    let t' := (eval (put base u.token u.object u.body) t).2
    r = u.outcome ∧
      (r = .ok () ↔ checkOid u.object.oid = .ok () ∧ u.body.failure = none ∧
        (bytes.length : Int) = u.object.size ∧ Sha256.hexDigest bytes = u.object.oid) ∧
      (r = .ok () → t'.look (u.place base) = .ok (.file bytes) ∧
        t'.file? = Function.update t.file? (u.place base) (some bytes)) ∧
      (r ≠ .ok () → t'.file? = t.file?) ∧
      t'.entries.get? (u.staging base) = none := by
  intro t bytes r t'
  rw [List.map_append, List.nodup_append] at hnames
  have hapart : ∀ v ∈ Turn.origins turns, u.staging base ≠ v.staging base := fun v hv hsame =>
    hnames.2.2 _ (List.mem_map_of_mem hv) _ (List.mem_singleton_self _) hsame.symm
  have htidy : Tidy base (Turn.origins turns) True t := by
    have hvalid := (orderly_reached hempty hnames.1 turns.length).valid
    rw [List.take_length] at hvalid
    exact ⟨hvalid.files, hvalid.directories, fun _ => hvalid.root hroot⟩
  obtain ⟨houtcome, hcleared⟩ := outcome_of_tidy htidy hapart hname
  have hfiles : ∀ p, (u.outcome = .ok () → p ≠ u.place base) → t'.file? p = t.file? p := fun p hp =>
    file?_put htidy hapart hname hp
  have hok : r = .ok () → t'.look (u.place base) = .ok (.file bytes) := by
    intro hr
    obtain ⟨e, t'', heval, -⟩ | ⟨t'', heval, hstored, -⟩ :=
      put_cases base u.token u.object u.body t
    · exact nomatch (congrArg Prod.fst heval).symm.trans hr
    · have ht' : t' = t'' := congrArg Prod.snd heval
      rw [ht']
      exact hstored.stands
  refine ⟨houtcome, ?_, fun hr => ⟨hok hr, funext fun p => ?_⟩, fun hr => funext fun p => ?_,
    hcleared⟩
  · rw [← u.outcome_eq_ok_iff]
    exact ⟨fun hr => houtcome.symm.trans hr, fun h => houtcome.trans h⟩
  · by_cases hp : p = u.place base
    · subst hp
      rw [Function.update_self, Tree.file?_eq_some_iff]
      exact Tree.get?_of_look (locate_ne_nil base _) (hok hr)
    · rw [Function.update_of_ne hp]
      exact hfiles p fun _ => hp
  · exact hfiles p fun h => absurd (houtcome.trans h) hr

/-- An upload that ends too early. -/
def tooShort : Upload := ⟨abc, ⟨[[97], [98]], none⟩, "4"⟩

/-- It is refused while others are under way, and changes no file. -/
theorem tooShort_refused :
    let others := crowd.take 9
    let t := ((uploads ["store"]).reached vacant others others.length).state
    vacant.listing ["store"] = [] ∧ vacant.look ["store"] = .ok .directory ∧
      ((Turn.origins others ++ [tooShort]).map (Upload.staging ["store"])).Nodup ∧
      tooShort.Nameable ["store"] ∧
      (eval (put ["store"] "4" abc ⟨[[97], [98]], none⟩) t).1 = .error (.sizeMismatch 3 2) ∧
      (eval (put ["store"] "4" abc ⟨[[97], [98]], none⟩) t).2.file? = t.file? := by
  intro others t
  have hempty : vacant.listing ["store"] = [] := by decide +kernel
  have hroot : vacant.look ["store"] = .ok .directory := rfl
  have hnames : ((Turn.origins others ++ [tooShort]).map (Upload.staging ["store"])).Nodup := by
    decide +kernel
  have hname : tooShort.Nameable ["store"] := by
    unfold Upload.Nameable
    decide +kernel
  have houtcome : tooShort.outcome = .error (.sizeMismatch 3 2) := by decide +kernel
  obtain ⟨hresult, -, -, hkept, -⟩ := put_outcome hempty hroot hnames hname
  have herror := hresult.trans houtcome
  exact ⟨hempty, hroot, hnames, hname, herror, hkept fun hok => nomatch herror.symm.trans hok⟩

end Depot.Files
