import Depot.Proofs.Content.Body
import Depot.Proofs.Digest.Sha256

/-!
# Bodies pass a buffer at a time

A body is passed on in a loop: a read fills the buffer as far as the piece at hand goes, what was
read is absorbed, written and counted, and the loop ends with the first read that brings nothing.
Each read takes the next of `Body.reads` off the pieces, so the loop does to any writer what those
do, whatever the sizes of the pieces, and has absorbed and counted just the bytes before the end.

Headlines
* **`Body.pass_eq`**: what the loop comes to and what it has written.
* **`Body.passes_all`**: the digest is that of all bytes in one go; a body that breaks off gives its
  error, and what came before it is written.
-/

namespace Depot

namespace Bytes

variable {n : Nat} {b : Bytes}

/-- No more runs are cut than there are bytes. -/
theorem go_runs (hn : 0 < n) {k l : Nat} (hk : b.length ≤ k) (hl : b.length ≤ l) :
    runs.go n k b = runs.go n l b := by
  induction k generalizing l b with
  | zero =>
    obtain rfl := List.eq_nil_of_length_eq_zero (Nat.le_zero.mp hk)
    cases l <;> rfl
  | succ k ih =>
    cases b with
    | nil => cases l <;> rfl
    | cons x b =>
      obtain ⟨l, rfl⟩ := Nat.exists_eq_succ_of_ne_zero (Nat.ne_of_gt (Nat.lt_of_lt_of_le
        (Nat.succ_pos _) hl))
      have hdrop : ((x :: b).drop n).length ≤ b.length := by
        rw [List.length_drop, List.length_cons]
        omega
      unfold runs.go
      rw [ih (hdrop.trans (Nat.le_of_succ_le_succ hk)) (hdrop.trans (Nat.le_of_succ_le_succ hl))]

/-- The first run is cut off and the others are those of the rest. -/
theorem runs_of_ne_nil (hn : 0 < n) (hb : b ≠ []) : runs n b = b.take n :: runs n (b.drop n) := by
  obtain ⟨x, rest, rfl⟩ := List.exists_cons_of_ne_nil hb
  have hdrop : ((x :: rest).drop n).length ≤ rest.length := by
    rw [List.length_drop, List.length_cons]
    omega
  show (x :: rest).take n :: runs.go n rest.length ((x :: rest).drop n) = _
  rw [go_runs hn hdrop (Nat.le_refl _)]
  rfl

/-- A run has bytes, and no more than asked for. -/
theorem length_of_mem_runs (hn : 0 < n) {r : Bytes} (h : r ∈ runs n b) :
    r ≠ [] ∧ r.length ≤ n := by
  -- Each run is shorter than what is left to cut.
  induction hlength : b.length using Nat.strong_induction_on generalizing b with
  | _ k ih =>
    by_cases hb : b = []
    · subst hb
      exact absurd h List.not_mem_nil
    rw [runs_of_ne_nil hn hb, List.mem_cons] at h
    rcases h with rfl | hrest
    · refine ⟨fun hnil => hb ?_, List.length_take_le n b⟩
      exact (List.take_eq_nil_iff.mp hnil).resolve_left (Nat.ne_of_gt hn)
    · refine ih _ ?_ hrest rfl
      rw [← hlength, List.length_drop]
      have hpos := List.length_pos_iff.mpr hb
      omega

end Bytes

namespace Content

/-- What a read brings. -/
inductive Read where
  /-- Some bytes. -/
  | bytes (b : Bytes)
  /-- None, since the body has ended. -/
  | ended
  /-- None, since the body has broken off. -/
  | failed (text : String)
deriving DecidableEq, Repr

namespace Body

variable {failure : Option String} {pieces rest : List Bytes} {x : Bytes}

/-- A read into the buffer, and the pieces that are left. Pieces without bytes are passed over. -/
def read (failure : Option String) : List Bytes → Read × List Bytes
  | [] => (failure.elim .ended .failed, [])
  | [] :: rest => read failure rest
  | piece :: rest => (.bytes (piece.take bufferSize), piece.drop bufferSize :: rest)

/-- A read that brings bytes brings the first of all reads. -/
theorem reads_of_read (h : read failure pieces = (.bytes x, rest)) :
    reads ⟨pieces, failure⟩ = x :: reads ⟨rest, failure⟩ := by
  fun_induction read failure pieces with
  | case1 => cases failure <;> exact nomatch h
  | case2 rest' ih => exact ih h
  | case3 piece rest' hne =>
    obtain ⟨hx, rfl⟩ := Prod.mk.inj h
    obtain rfl := Read.bytes.inj hx
    show Bytes.runs bufferSize piece ++ _ = _ :: (Bytes.runs bufferSize _ ++ _)
    rw [Bytes.runs_of_ne_nil (by decide) hne]
    rfl

/-- A read that brings none comes after all reads, and tells how the body has ended. -/
theorem read_of_reads_eq_nil {r : Read} (h : read failure pieces = (r, rest))
    (hr : ∀ x, r ≠ .bytes x) : reads ⟨pieces, failure⟩ = [] ∧ r = failure.elim .ended .failed := by
  fun_induction read failure pieces with
  | case1 => exact ⟨rfl, (Prod.mk.inj h).1.symm⟩
  | case2 rest' ih => exact ih h
  | case3 piece rest' hne => exact absurd (Prod.mk.inj h).1.symm (hr _)

/-- A read takes the bytes that it brings. -/
theorem length_of_read (h : read failure pieces = (.bytes x, rest)) :
    rest.flatten.length < pieces.flatten.length := by
  fun_induction read failure pieces with
  | case1 => cases failure <;> exact nomatch h
  | case2 rest' ih => exact ih h
  | case3 piece rest' hne =>
    obtain ⟨-, rfl⟩ := Prod.mk.inj h
    have hpos := List.length_pos_iff.mpr hne
    simp only [List.flatten_cons, List.length_append, List.length_drop, bufferSize]
    omega

/-! ### The loop -/

/-- The loop: `c` has absorbed and `size` counted what was read before, and `w` is what the writer
has come to. -/
def passFrom {ω : Type} (write : ω → Bytes → ω) (failure : Option String) (pieces : List Bytes)
    (c : Sha256.Context) (size : Int) (w : ω) : Except String Digest × ω :=
  match _hread : read failure pieces with
  | (.ended, _) => (.ok ⟨size, Hex.encode c.finish⟩, w)
  | (.failed text, _) => (.error text, w)
  | (.bytes b, rest) =>
    passFrom write failure rest (c.update b) (size + b.length) (write w b)
termination_by pieces.flatten.length
decreasing_by exact length_of_read _hread

/-- Passes a body on to a writer. -/
def pass {ω : Type} (b : Body) (write : ω → Bytes → ω) (w : ω) : Except String Digest × ω :=
  passFrom write b.failure b.pieces .empty 0 w

variable {ω : Type} {write : ω → Bytes → ω} {w : ω} {c : Sha256.Context} {size : Int}

/-- The loop does to the writer what the reads do, and has absorbed and counted them at its end. -/
theorem passFrom_eq : passFrom write failure pieces c size w =
    (failure.elim (.ok ⟨size + (reads ⟨pieces, failure⟩).flatten.length,
      Hex.encode (absorbAll c (reads ⟨pieces, failure⟩)).finish⟩) .error,
      (reads ⟨pieces, failure⟩).foldl write w) := by
  fun_induction passFrom write failure pieces c size w with
  | case1 pieces c size w rest hread =>
    obtain ⟨hreads, hended⟩ := read_of_reads_eq_nil hread (by simp)
    cases failure with
    | some text => exact nomatch hended
    | none =>
      rw [hreads]
      simp [absorbAll]
  | case2 pieces c size w text rest hread =>
    obtain ⟨hreads, hfailed⟩ := read_of_reads_eq_nil hread (by simp)
    cases failure with
    | none => exact nomatch hfailed
    | some text' =>
      obtain rfl := Read.failed.inj hfailed
      rw [hreads]
      rfl
  | case3 pieces c size w b rest hread ih =>
    rw [ih, reads_of_read hread, List.flatten_cons, List.length_append, Int.natCast_add,
      ← Int.add_assoc]
    rfl

/-- **What the loop comes to and what it has written.** -/
theorem pass_eq (b : Body) (write : ω → Bytes → ω) (w : ω) :
    b.pass write w = (b.copy.1, b.reads.foldl write w) := by
  have hdigest := ofContext_absorbAll b.reads
  have hlength : ((absorbAll .empty b.reads).length : Int) = b.reads.flatten.length :=
    congrArg Digest.size hdigest
  unfold pass copy Digest.ofContext
  rw [passFrom_eq, Int.zero_add, hlength]
  cases b.failure <;> rfl

/-- **A body passes whole, and its digest is that of all its bytes in one go.** However the bytes
are cut into pieces, and whatever is done with them as they pass, each read is of some bytes that
fit the buffer, the reads make up the bytes, and the writer is given these. A body that breaks off
gives its error, once all that came before has been written. -/
theorem passes_all (pieces : List Bytes) (failure : Option String) (write : ω → Bytes → ω) (w : ω) :
    let b : Body := ⟨pieces, failure⟩
    let d := pieces.flatten
    let outcome : Except String Digest := match failure with
      | some text => .error text
      | none => .ok ⟨d.length, Hex.encode (Sha256.ofMessage d)⟩
    (b.pass write w = (outcome, b.reads.foldl write w) ∧ b.reads.flatten = d ∧
      ∀ r ∈ b.reads, r ≠ [] ∧ r.length ≤ bufferSize) ∧
    b.pass (· ++ ·) [] = (outcome, d) ∧ b.copy = (outcome, d) ∧ b.measure = outcome ∧
    Sha256.hexDigest d = Hex.encode (Sha256.ofMessage d) := by
  intro b d outcome
  have hflatten : b.reads.flatten = d := b.flatten_reads
  have hdigest : Sha256.hexDigest d = Hex.encode (Sha256.ofMessage d) :=
    congrArg Hex.encode (Sha256.digest_eq d)
  have hof : Digest.of d = ⟨d.length, Hex.encode (Sha256.ofMessage d)⟩ :=
    congrArg (Digest.mk d.length) hdigest
  have hmeasure : b.measure = outcome := by
    refine b.measure_eq.trans ?_
    cases failure with
    | some text => rfl
    | none => exact congrArg Except.ok hof
  have hcopy : b.copy = (outcome, d) := Prod.ext hmeasure hflatten
  have hpass : ∀ {υ : Type} (write : υ → Bytes → υ) (u : υ),
      b.pass write u = (outcome, b.reads.foldl write u) := by
    intro υ write u
    rw [pass_eq, hcopy]
  have hsizes : ∀ r ∈ b.reads, r ≠ [] ∧ r.length ≤ bufferSize := by
    intro r hr
    obtain ⟨piece, -, hpiece⟩ := List.mem_flatMap.mp hr
    exact Bytes.length_of_mem_runs (by decide) hpiece
  refine ⟨⟨hpass write w, hflatten, hsizes⟩, ?_, hcopy, hmeasure, hdigest⟩
  rw [hpass, List.foldl_append_eq_append]
  simpa using hflatten

end Body

end Content

end Depot
