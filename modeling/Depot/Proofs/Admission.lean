import Depot.Proofs.Accounts
import Depot.Proofs.Registry.Admission

/-!
# New accounts and their headers over every kind of storage

Any name that is not blank can be given to an account, also one with a colon in it, which no header
can carry.

Headlines
* **`new_accounts_admitted`**: over every kind of storage the header of a new account passes until
  the account is deleted, if its name has no colon, and is read as another user's otherwise.
-/

namespace Depot

open Registry

/-- No statement over tables in memory fails with a refusal. -/
theorem Column.Tables.refusesNone_statement (c : Call) : RefusesNone Tables.step (statement c) :=
  fun t => unrefused_step t c

/-- **The header of a new account passes until the account is deleted, if its name has no colon.**
Over every kind of storage that is open, in every run that closes nothing, whatever users there are
at first and whatever else goes on: an account whose hash has been inserted has that entry until it
is deleted, and for as long every call about an object passes the gate with the name and the
password in its header, if the name has no colon. With any other name the header passes just if
there is an account of the part before the first colon, with the rest in its password. -/
theorem new_accounts_admitted {turns : List (Turn Operation Breakdown)}
    (hopen : .start .close ∉ turns) :
    (∀ d : Embedded.Database, d.closed = false → Admission Embedded.accounts turns
      ((operations Embedded.storage .internal Embedded.Database.step).reached d turns)
      Embedded.storage Embedded.Database.step) ∧
    (∀ d : Relational.Database, d.closed = false → Admission Relational.accounts turns
      ((operations Relational.storage .internal Relational.Database.step).reached d turns)
      Relational.storage Relational.Database.step) ∧
    (∀ t : Column.Tables, t.closed = false → Admission Column.accounts turns
      ((operations Column.storage .internal Column.Tables.step).reached t turns)
      Column.storage Column.Tables.step) ∧
    ∀ (n : Column.Connection) (t : Column.Tables), n.closed = false → n.cluster.misanswers = [] →
      Column.Encodes t n.cluster.rows → Admission Column.clusterAccounts turns
        ((operations Column.storage .internal Column.Connection.step).reached n turns)
        Column.storage Column.Connection.step := by
  refine ⟨fun d hd => ?_, fun d hd => ?_, fun t ht => ?_, fun n t hn hplans ht => ?_⟩
  · exact Embedded.keeps_accounts.admission Embedded.steps_refuse_none hopen hd
  · exact Relational.keeps_accounts.admission Relational.steps_refuse_none hopen hd
  · exact Column.keeps_accounts.admission
      (Column.steps_refuse_none Column.Tables.refusesNone_statement) hopen ht
  · exact Column.cluster_keeps_accounts.admission
      (Column.steps_refuse_none Column.Connection.refusesNone_statement) hopen
      ⟨hn, hplans, t, ht⟩

/-- An account is added, and beside it another one is deleted. -/
def arrival : List (Turn Operation Breakdown) :=
  [.start (.addUser "ada" "p:w" [1]), .call 0 .answered, .start (.deleteUser "bob"),
    .call 0 .answered, .call 1 .answered]

theorem arrival_admitted :
    .start .close ∉ arrival ∧
    let after := (operations Embedded.storage .internal Embedded.Database.step).reached {} arrival
    OpensAt Embedded.accounts arrival after 3 ⟨"ada", "p:w"⟩ [1] ∧
      StandsAt Embedded.accounts arrival after 3 5 "ada" ∧
      HeaderPasses Embedded.storage Embedded.Database.step (after 5).state
        (Credential.Login.header ⟨"ada", "p:w"⟩ .standard) := by
  have hopen : .start .close ∉ arrival := by simp [arrival]
  refine ⟨hopen, ?_⟩
  intro after
  have hadds : EditsAt Embedded.accounts arrival after 3 (.addUser "ada" "p:w" [1])
      (.add "ada" (Credential.Password.hash [1] "p:w")) :=
    ⟨.insertUser "ada" (Credential.Password.hash [1] "p:w"),
      ⟨0, .answered, _, rfl, trivial, rfl⟩, rfl⟩
  have hother : EditsAt Embedded.accounts arrival after 4 (.deleteUser "bob") (.remove "bob") :=
    ⟨.deleteUser "bob", ⟨1, .answered, _, rfl, trivial, rfl⟩, rfl⟩
  have hopens : OpensAt Embedded.accounts arrival after 3 ⟨"ada", "p:w"⟩ [1] := ⟨rfl, hadds⟩
  have hstands : StandsAt Embedded.accounts arrival after 3 5 "ada" := by
    refine ⟨by decide, fun i hi hi' hremoves => ?_⟩
    obtain rfl : i = 4 := by omega
    exact absurd (hother.unique hremoves).1 (by decide)
  have hadmission := (new_accounts_admitted hopen).1 {} rfl
  exact ⟨hopens, hstands, hadmission.plain 3 5 _ _ hopens hstands (by decide) .standard⟩

/-- An account with a colon in its name is added and listed, and its user is refused. -/
theorem colon_in_name_refused :
    let added := (Backend.embedded {}).perform .internal (.addUser "a:b" "pw" [1])
    added.1 = .ok .unit ∧ (added.2.perform .internal .users).1 = .ok (.users [⟨"a:b"⟩]) ∧
      (added.2.perform .internal (.put
        { oid := "6ae8a75555209fd6c44157c0aed8016e763ff435a19cf186f76863140143ff72", size := 12
          authorization := Credential.Login.header ⟨"a:b", "pw"⟩ .standard })).1 =
        .error (.auth .rejected) :=
  ⟨rfl, rfl, rfl⟩

end Depot
