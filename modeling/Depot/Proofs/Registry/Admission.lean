import Depot.Proofs.Credential.Header
import Depot.Proofs.Credential.Password
import Depot.Proofs.Registry.Accounts

/-!
# The headers of new accounts

An account is added under a name, and its user comes with a header that holds the name and the
password around a colon. The header is read up to its first colon, so the names of the account and
of the header are one if the name has no colon; any other name is read as another user's.

Headlines
* **`Edited.entry_kept`**: an entry stays until it is deleted.
* **`passes_header_iff`**: whom a header lets through.
* **`AccountTable.Keeps.admission`**: in every run the header of a new account passes until the
  account is deleted, if its name has no colon.
-/

namespace Depot.Registry

open Base64 (Alphabet)
open Credential (Login)

variable {σ Call : Type} {Answer : Call → Type}

/-! ### Entries that stay -/

section

variable (a : AccountTable σ Call) (turns : List (Turn Operation Breakdown))
  (after : Nat → System Operation σ Call (Replies Answer) Outcome)

/-- At turn `k` the addition of an account inserts its hash where there is no entry. -/
def OpensAt (k : Nat) (login : Login) (salt : Bytes) : Prop :=
  a.entry (after k).state login.user = none ∧
    EditsAt a turns after k (.addUser login.user login.password salt)
      (.add login.user (Credential.Password.hash salt login.password))

/-- Turn `k` comes after turn `j`, and in between the account of a user is not deleted. -/
def StandsAt (j k : Nat) (user : String) : Prop :=
  j < k ∧ ∀ i, j < i → i < k → ¬ RemovesAt a turns after i user

end

section

variable {a : AccountTable σ Call} {turns : List (Turn Operation Breakdown)}
  {after : Nat → System Operation σ Call (Replies Answer) Outcome} {j k : Nat}

/-- **An entry stays until it is deleted.** -/
theorem Edited.entry_kept (h : Edited a turns after) {login : Login} {salt : Bytes}
    (hopens : OpensAt a turns after j login salt)
    (hstands : StandsAt a turns after j k login.user) :
    a.entry (after k).state login.user =
      some (Credential.Password.hash salt login.password) := by
  obtain ⟨hjk, hkept⟩ := hstands
  induction k, hjk using Nat.le_induction with
  | base =>
    obtain ⟨hnone, hedit⟩ := hopens
    rw [h.entry_of_edit hedit, hnone]
    exact if_pos rfl
  | succ k hjk ih =>
    have hentry := ih fun i hji hik => hkept i hji (Nat.lt_succ_of_lt hik)
    rcases h.entry_succ hentry with hsame | ⟨hremoves, -⟩
    · exact hsame
    · exact absurd hremoves (hkept k hjk (Nat.lt_succ_self k))

end

/-! ### Headers that pass -/

/-- Every call about an object passes the gate with a header and is not refused. -/
def HeaderPasses (storage : Storage Call (Replies Answer))
    (service : Service σ Call (Replies Answer)) (s : σ) (header : String) : Prop :=
  ∀ (op : Operation) (r : Request), op.request? = some r → r.authorization = header →
    (eval service (storage.authorize .internal r) s).1 = .ok () ∧
      ∀ why, (storage.perform .internal service s op).1 ≠ .error (.auth why)

namespace AccountTable.Keeps

variable {a : AccountTable σ Call} {storage : Storage Call (Replies Answer)}
  {service : Service σ Call (Replies Answer)} {s : σ} {turns : List (Turn Operation Breakdown)}
  (h : a.Keeps storage service) (hrefuse : storage.StepsRefuseNone service)

include h hrefuse

theorem passes_iff (hs : a.valid s) {header : String} {login : Login}
    (hlogin : Credential.parseBasic header = .ok login) : HeaderPasses storage service s header ↔
      ∃ hash, a.entry s login.user = some hash ∧
        Credential.Password.verify hash login.password = true := by
  constructor
  · intro hpasses
    let r : Request := { authorization := header }
    exact (h.authorize_eq_ok_iff hs r hlogin).mp (hpasses (.get r) r rfl rfl).1
  · rintro hentry op r hop rfl
    have hgate := (h.authorize_eq_ok_iff hs r hlogin).mpr hentry
    refine ⟨hgate, fun why hwhy => ?_⟩
    rw [Storage.eval_gate, (hrefuse.perform_eq_auth_iff hop why).mp hwhy] at hgate
    exact nomatch hgate

/-- **A header passes just if its password belongs to the entry of its user**, whose name has no
colon. -/
theorem passes_header_iff (hs : a.valid s) {user : String} (hcolon : ':' ∉ user.toList)
    (password : String) (alphabet : Alphabet) :
    HeaderPasses storage service s (Login.header ⟨user, password⟩ alphabet) ↔
      ∃ hash, a.entry s user = some hash ∧ Credential.Password.verify hash password = true :=
  h.passes_iff hrefuse hs (Credential.parseBasic_eq_ok_iff.mpr
    (Credential.carries_header ⟨user, password⟩ alphabet hcolon))

end AccountTable.Keeps

/-! ### Runs -/

/-- What a run makes of the headers of new accounts. -/
structure Admission (a : AccountTable σ Call) (turns : List (Turn Operation Breakdown))
    (after : Nat → System Operation σ Call (Replies Answer) Outcome)
    (storage : Storage Call (Replies Answer)) (service : Service σ Call (Replies Answer)) :
    Prop where
  /-- A new account has its entry until it is deleted. -/
  kept : ∀ j k login salt, OpensAt a turns after j login salt →
    StandsAt a turns after j k login.user → a.entry (after k).state login.user =
      some (Credential.Password.hash salt login.password)
  /-- For as long its header passes, if the name has no colon. -/
  plain : ∀ j k login salt, OpensAt a turns after j login salt →
    StandsAt a turns after j k login.user → ':' ∉ login.user.toList → ∀ alphabet,
      HeaderPasses storage service (after k).state (login.header alphabet)
  /-- With a name that has a colon a header passes just if the part of the name before it has an
  entry, to which the rest of the name and the password belong. -/
  split : ∀ k user rest password alphabet, ':' ∉ user.toList →
    (HeaderPasses storage service (after k).state
        (Login.header ⟨user ++ ":" ++ rest, password⟩ alphabet) ↔
      ∃ hash, a.entry (after k).state user = some hash ∧
        Credential.Password.verify hash (rest ++ ":" ++ password) = true)

/-- **The header of a new account passes until the account is deleted**, in every run that closes
nothing, if the name has no colon. -/
theorem AccountTable.Keeps.admission {a : AccountTable σ Call}
    {storage : Storage Call (Replies Answer)} {service : Service σ Call (Replies Answer)} {s : σ}
    {turns : List (Turn Operation Breakdown)} (h : a.Keeps storage service)
    (hrefuse : storage.StepsRefuseNone service) (hopen : .start .close ∉ turns) (hs : a.valid s) :
    Admission a turns ((operations storage .internal service).reached s turns) storage service where
  kept j k login salt hopens hstands := (h.edited hopen hs).entry_kept hopens hstands
  plain j k login salt hopens hstands hcolon alphabet := by
    have hentry := (h.edited hopen hs).entry_kept hopens hstands
    have hvalid := h.valid_reached hopen hs k
    exact (h.passes_header_iff hrefuse hvalid hcolon login.password alphabet).mpr
      ⟨_, hentry, Credential.Password.verify_hash salt login.password⟩
  split k user rest password alphabet hcolon := by
    have hvalid := h.valid_reached hopen hs k
    have hheader : Login.header ⟨user ++ ":" ++ rest, password⟩ alphabet =
        Login.header ⟨user, rest ++ ":" ++ password⟩ alphabet := by
      simp only [Login.header, String.append_assoc]
    rw [hheader]
    exact h.passes_header_iff hrefuse hvalid hcolon (rest ++ ":" ++ password) alphabet

end Depot.Registry
