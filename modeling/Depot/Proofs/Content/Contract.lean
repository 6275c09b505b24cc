import Depot.Proofs.Files.Concurrent
import Depot.Text.Decimal
import Mathlib.Logic.Function.Basic

/-!
# The contract of a content store

What the calls to a store of content come to, whatever the content is kept in: an account of the
bytes that are kept for each id, from which the answer to every call follows. Two stores that keep
to the account give the same answers.

Headlines
* `Contents.perform` gives the answer to a call and the contents after it.
* **`Meets.answers_eq`**: a store that keeps to the account in each call keeps to it in every
  sequence of calls.
-/

namespace Depot.Content

open Files (Upload)
open Registry (Object isDigest)

/-- A call to a store. -/
inductive Call where
  /-- Store the content of an object. -/
  | put (u : Upload)
  /-- Read the content of an object. -/
  | get (oid : String)
  /-- Whether there is content of an object. -/
  | exists (oid : String)
  /-- Compare the content of an object with it. -/
  | verify (o : Object)
deriving DecidableEq, Repr

/-- The answer to a call, or why it failed. -/
inductive Answer where
  /-- Content has been stored. -/
  | stored (r : Except Error Unit)
  /-- The content of an object. -/
  | content (r : Except Error Bytes)
  /-- Whether there is content. -/
  | present (b : Bool)
  /-- The content is that of the object. -/
  | verified (r : Except Error Unit)

/-- The object of a call is named by a digest, and the size of one to store fits 64 bits. -/
def Call.Proper : Call → Prop
  | .put u => isDigest u.object.oid = true ∧ Text.fitsInt64 u.object.size = true
  | .get oid | .exists oid => isDigest oid = true
  | .verify o => isDigest o.oid = true

instance : DecidablePred Call.Proper
  | .put _ => inferInstanceAs (Decidable (_ ∧ _))
  | .get _ | .exists _ | .verify _ => inferInstanceAs (Decidable (_ = _))

/-- The bytes that are kept for each id. -/
abbrev Contents := String → Option Bytes

namespace Contents

/-- No bytes at all. -/
def empty : Contents := fun _ => none

/-- The bytes of an object. -/
def fetch (m : Contents) (oid : String) : Except Error Bytes :=
  match m oid with
  | some b => .ok b
  | none => .error (.notFound oid)

/-- The contents after an upload: the bytes of one that succeeds are kept. -/
def store (m : Contents) (u : Upload) : Contents :=
  match u.verdict with
  | .ok () => Function.update m u.object.oid (some u.body.pieces.flatten)
  | .error _ => m

/-- The answer to a call and the contents after it. -/
def perform (m : Contents) : Call → Answer × Contents
  | .put u => (.stored u.verdict, m.store u)
  | .get oid => (.content (m.fetch oid), m)
  | .exists oid => (.present (m oid).isSome, m)
  | .verify o => (.verified ((m.fetch o.oid).bind fun b => (Digest.of b).check o), m)

variable {m : Contents} {u : Upload} {oid : String}

theorem store_of_ok (h : u.verdict = .ok ()) :
    m.store u = Function.update m u.object.oid (some u.body.pieces.flatten) := by
  unfold store
  rw [h]

theorem store_of_error {e : Error} (h : u.verdict = .error e) : m.store u = m := by
  unfold store
  rw [h]

/-- What is kept after an upload has been uploaded with success or has been kept before. -/
theorem store_cases (m : Contents) (u : Upload) (oid : String) :
    (u.verdict = .ok () ∧ oid = u.object.oid ∧ m.store u oid = some u.body.pieces.flatten) ∨
    (m.store u oid = m oid ∧ (u.verdict = .ok () → oid ≠ u.object.oid)) := by
  cases hverdict : u.verdict with
  | error e =>
    rw [store_of_error hverdict]
    exact Or.inr ⟨rfl, fun h => absurd h (by simp)⟩
  | ok _ =>
    rw [store_of_ok hverdict]
    by_cases hoid : oid = u.object.oid
    · refine Or.inl ⟨rfl, hoid, ?_⟩
      rw [hoid, Function.update_self]
    · exact Or.inr ⟨Function.update_of_ne hoid _ _, fun _ => hoid⟩

end Contents

/-! ### Stores -/

variable {σ : Type} {step : σ → Call → Answer × σ} {holds : σ → Contents → Prop}
  {admits : Call → Prop}

/-- The answers to calls one after another. -/
def answers (step : σ → Call → Answer × σ) : σ → List Call → List Answer
  | _, [] => []
  | s, c :: calls => (step s c).1 :: answers step (step s c).2 calls

/-- A store answers a call by the contents that it holds, and holds those after it. -/
def Meets (step : σ → Call → Answer × σ) (holds : σ → Contents → Prop) (admits : Call → Prop) :
    Prop :=
  ∀ s m c, holds s m → admits c →
    (step s c).1 = (m.perform c).1 ∧ holds (step s c).2 (m.perform c).2

/-- **A store that keeps to the account in each call keeps to it in every sequence of calls.** -/
theorem Meets.answers_eq (h : Meets step holds admits) {s : σ} {m : Contents} (hs : holds s m)
    {calls : List Call} (hcalls : ∀ c ∈ calls, admits c) :
    answers step s calls = answers Contents.perform m calls := by
  induction calls generalizing s m with
  | nil => rfl
  | cons c calls ih =>
    obtain ⟨hanswer, hafter⟩ := h s m c hs (hcalls c List.mem_cons_self)
    unfold answers
    rw [hanswer, ih hafter fun c' hc' => hcalls c' (List.mem_cons_of_mem c hc')]

end Depot.Content
