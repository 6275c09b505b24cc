import Depot.Proofs.Files.Reading

/-!
# What a verification comes to

Whoever else writes below a base directory, the place of a digest shows one of four things, and
each of them decides what verifying an object comes to. Only two of them are meant to happen: the
bytes of a file are judged by their digest, and an object without a file is not found. A directory
may have the place, and a file may have that of a directory on the way. Nothing is kept for the
object then either, but it is not said to be missing. A base directory may lie so deep that the
system does not take the path, and then it does not matter what is there.

Headlines
* **`Offers`**: what a directory keeps for an object; **`Obstructed`**: a file is in the way.
* **`standing`**: what the place of a digest can show.
* **`eval_verify_of_offers`**, **`eval_verify_of_obstructed`**: what verifying comes to where the
  system takes the path; **`eval_verify_of_not_fits`**: where it does not.
-/

namespace Depot

open Registry (Object isDigest)

namespace Content

/-- What the bytes that are kept for an object are worth. -/
def judge (kept : Option Bytes) (o : Object) : Except Error Unit :=
  match kept with
  | some b => (Digest.of b).check o
  | none => .error (.notFound o.oid)

end Content

namespace Files

variable {base : Path} {oid : String} {t : Tree} {o : Object}

/-- A file stands where a directory on the way to an object would. -/
def Obstructed (base : Path) (oid : String) (t : Tree) : Prop :=
  ∃ x b, x <+: (Content.keyParts oid).dropLast ∧ t.look (base ++ x) = .ok (.file b)

/-- What a directory keeps for an object: the bytes of the file at its place, or nothing, with
nothing in the way. -/
def Offers (base : Path) (t : Tree) (oid : String) : Option Bytes → Prop
  | some b => t.look (locate base oid) = .ok (.file b)
  | none => (∀ e, t.look (locate base oid) ≠ .ok e) ∧ ¬ Obstructed base oid t

/-- What a look at the place of an object comes to. -/
inductive Standing (base : Path) (oid : String) (t : Tree) : Prop where
  /-- A file. -/
  | file (b : Bytes) (stands : t.look (locate base oid) = .ok (.file b))
  /-- Nothing. -/
  | absent (absent : t.look (locate base oid) = .error .notFound)
  /-- A directory. -/
  | directory (stands : t.look (locate base oid) = .ok .directory)
  /-- A file on the way. -/
  | obstructed (way : Obstructed base oid t)

/-- Where a file is in the way of an object, a look fails on it. -/
theorem Obstructed.look (h : Obstructed base oid t) :
    t.look (locate base oid) = .error .notDirectory := by
  obtain ⟨x, b, ⟨y, hy⟩, hfile⟩ := h
  have hparts : Content.keyParts oid =
      x ++ (y ++ [(Content.keyParts oid).getLast (Content.keyParts_ne_nil oid)]) := by
    rw [← List.append_assoc, hy, List.dropLast_concat_getLast]
  obtain ⟨name, rest, hrest⟩ := List.exists_cons_of_ne_nil
    (List.append_ne_nil_of_right_ne_nil y (List.cons_ne_nil _ []))
  unfold locate Tree.look at *
  rw [hparts, ← List.append_assoc, Tree.walkFrom_append, hfile, hrest]
  rfl

theorem Offers.not_obstructed {kept : Option Bytes} (h : Offers base t oid kept) :
    ¬ Obstructed base oid t := by
  cases kept with
  | some b => exact fun way => nomatch way.look.symm.trans h
  | none => exact h.2

/-- One thing at most is kept for an object. -/
theorem Offers.unique {kept kept' : Option Bytes} (h : Offers base t oid kept)
    (h' : Offers base t oid kept') : kept = kept' := by
  cases kept with
  | some b =>
    cases kept' with
    | some b' => exact congrArg some (Entry.file.inj (Except.ok.inj (h.symm.trans h')))
    | none => exact absurd h (h'.1 _)
  | none =>
    cases kept' with
    | some b' => exact absurd h' (h.1 _)
    | none => rfl

section

variable (hbase : t.look base = .ok .directory)

include hbase

/-- **What the place of a digest can show** below a base directory that is there. -/
theorem standing (hdigest : isDigest oid = true) : Standing base oid t := by
  have hwalk : ∀ x, t.look (base ++ x) = t.walkFrom base .directory x := Tree.look_below hbase
  obtain ⟨e, hfound⟩ | habsent | ⟨-, name, hname, hlong⟩ | ⟨-, x, b, hx, -, hfile⟩ :=
    t.walkFrom_cases base (Content.keyParts oid)
  · rw [← hwalk] at hfound
    cases e with
    | file b => exact .file b hfound
    | directory => exact .directory hfound
  · exact .absent ((hwalk _).trans habsent)
  · -- The parts of the key of a digest are short.
    have hshort := Content.utf8ByteSize_le_of_mem_keyParts hdigest hname
    unfold tooLong at hlong
    simp only [decide_eq_true_eq] at hlong
    omega
  · exact .obstructed ⟨x, b, hx, (hwalk x).trans hfile⟩

/-- Where nothing is kept for an object, a look finds nothing. -/
theorem offers_none_iff (hdigest : isDigest oid = true) :
    Offers base t oid none ↔ t.look (locate base oid) = .error .notFound := by
  constructor
  · rintro ⟨hnothing, hfree⟩
    cases standing hbase hdigest with
    | file b stands => exact absurd stands (hnothing _)
    | absent absent => exact absent
    | directory stands => exact absurd stands (hnothing _)
    | obstructed way => exact absurd way hfree
  · intro hlook
    refine ⟨fun e he => ?_, fun hway => ?_⟩
    · exact nomatch hlook.symm.trans he
    · exact nomatch hlook.symm.trans hway.look

/-- **What is kept for an object is judged**, and stays. -/
theorem eval_verify_of_offers (hdigest : isDigest o.oid = true)
    (hfits : Path.Fits (locate base o.oid)) {kept : Option Bytes}
    (h : Offers base t o.oid kept) : eval (verify base o) t = (Content.judge kept o, t) := by
  have hoid := Content.checkOid_of_isDigest hdigest
  have hfind := Tree.find_of_fits (t := t) hfits
  cases kept with
  | some b => exact (answers_of_file hoid (hfind.trans h)).verify
  | none =>
    exact (answers_of_error hoid (hfind.trans ((offers_none_iff hbase hdigest).mp h))).verify

end

/-- **A file in the way** is not told from other failures. -/
theorem eval_verify_of_obstructed (hdigest : isDigest o.oid = true)
    (hfits : Path.Fits (locate base o.oid)) (h : Obstructed base o.oid t) :
    eval (verify base o) t = (.error (.io .notDirectory), t) :=
  (answers_of_error (Content.checkOid_of_isDigest hdigest)
    ((Tree.find_of_fits hfits).trans h.look)).verify

/-- A path that the system does not take leads to nothing, whatever stands there. -/
theorem eval_verify_of_not_fits (hdigest : isDigest o.oid = true)
    (hlong : ¬ Path.Fits (locate base o.oid)) (t : Tree) :
    eval (verify base o) t = (.error (.io .nameTooLong), t) :=
  (answers_of_error (Content.checkOid_of_isDigest hdigest) (Tree.find_of_not_fits hlong)).verify

end Files

end Depot
