import Depot.Content.Error
import Depot.Program
import Depot.Registry.Object

/-!
# Audits

An audit verifies the content of each recorded object and reports what is missing and what is not
the object's content.

Headlines
* `survey` verifies objects in order, and `Report.of` sums up what was found.
-/

namespace Depot.Audit

open Registry (Object)

/-- An object and what its verification said. -/
structure Finding where
  /-- The object. -/
  object : Object
  /-- What its verification said. -/
  outcome : Except Content.Error Unit
deriving Repr

/-- What a verification says about the content of an object. -/
inductive Verdict where
  /-- It is the object's. -/
  | sound
  /-- There is none. -/
  | missing
  /-- It is not the object's. -/
  | corrupt
  /-- It cannot be verified. -/
  | unsupported
  /-- Its verification failed. -/
  | failed
deriving DecidableEq, Repr

/-- The verdict of a verification. -/
def verdict : Except Content.Error Unit → Verdict
  | .ok () => .sound
  | .error (.notFound _) => .missing
  | .error (.sizeMismatch _ _) | .error (.hashMismatch _ _) => .corrupt
  | .error (.unsupported _) => .unsupported
  | .error (.invalidOid _) | .error (.io _) | .error (.backend _) => .failed

/-- The verdict on an object. -/
def Finding.verdict (f : Finding) : Verdict := Audit.verdict f.outcome

/-- What an audit reports. -/
structure Report where
  /-- The number of sound objects. -/
  checked : Nat := 0
  /-- The objects whose content is missing. -/
  missing : List String := []
  /-- The objects whose content is not theirs. -/
  corrupt : List String := []
  /-- The number of failed verifications. -/
  errors : Nat := 0
  /-- The number of objects that cannot be verified. -/
  unsupported : Nat := 0
deriving DecidableEq, Repr

/-- The ids of the objects with a verdict, in the order of the findings. -/
def withVerdict (v : Verdict) (findings : List Finding) : List String :=
  (findings.filter fun f => f.verdict == v).map fun f => f.object.oid

/-- The number of objects with a verdict. -/
def countVerdict (v : Verdict) (findings : List Finding) : Nat :=
  findings.countP fun f => f.verdict == v

/-- Sums up findings. -/
def Report.of (findings : List Finding) : Report where
  checked := countVerdict .sound findings
  missing := withVerdict .missing findings
  corrupt := withVerdict .corrupt findings
  errors := countVerdict .failed findings
  unsupported := countVerdict .unsupported findings

/-- Whether nothing is missing or corrupt. Failed verifications do not count. -/
def Report.isHealthy (r : Report) : Bool := r.missing.isEmpty && r.corrupt.isEmpty

variable {Call : Type} {Reply : Call → Type}

/-- Verifies objects in order. -/
def survey (verify : Object → Program Call Reply (Except Content.Error Unit)) :
    List Object → Program Call Reply (List Finding)
  | [] => .done []
  | o :: rest => (verify o).bind fun outcome =>
    (survey verify rest).bind fun findings => .done (⟨o, outcome⟩ :: findings)

end Depot.Audit
