import Depot.Proofs.Column.Lifecycle
import Depot.Proofs.Embedded.Lifecycle
import Depot.Proofs.Relational.Lifecycle

/-!
# The life of a record over every kind of storage

Column tables take an operation a statement at a time, embedded and relational databases a
transaction at a time. Over each of them any number of operations may go on side by side, any of
their calls may fail, whether or not it took effect, and the registry may be closed on the way.

Headlines
* **`record_lifecycle`**: the record of an object is made by one registration, keeps its size, and
  becomes and stays committed by a commitment of the object; whoever registers it is told its size.
-/

namespace Depot

open Credential (Gate)
open Registry

/-- **Every kind of storage keeps the life of each record**, from any state and in every run: an
embedded database as long as its records take less than four gibibytes each and the sizes that are
registered have 64 bits. -/
theorem record_lifecycle (gate : Gate) (turns : List (Turn Operation Breakdown)) :
    (∀ t : Column.Tables, Lifecycle Column.Tables.standing turns
      ((operations Column.storage gate Column.Tables.step).reached t turns)) ∧
    (∀ d : Relational.Database, Lifecycle Relational.Database.standing turns
      ((operations Relational.storage gate Relational.Database.step).reached d turns)) ∧
    ∀ d : Embedded.Database, (∃ l, Embedded.Tells l d.tables) →
      (∀ r, .start (.put r) ∈ turns → Text.fitsInt64 r.size = true) →
      (∀ k ≤ turns.length, Embedded.Room
        ((operations Embedded.storage gate Embedded.Database.step).reached d turns k).state.tables) →
      Lifecycle Embedded.Database.standing turns
        ((operations Embedded.storage gate Embedded.Database.step).reached d turns) :=
  ⟨fun t => Column.lifecycle gate t turns, fun d => Relational.lifecycle gate d turns,
    fun _ htells hsizes hroom => Embedded.lifecycle gate htells hsizes hroom⟩

/-- Two registrations of an object with different sizes, of which the second one to be started
goes on first, and a commitment whose confirmation is lost. -/
def contested : List (Turn Operation Breakdown) :=
  [.start (.put { oid := digest, size := 12, repo := "books" }),
    .start (.put { oid := digest, size := 30, repo := "films" }),
    .start (.commit { oid := digest }), .call 1 .answered, .call 0 .answered,
    .call 2 (.unconfirmed (.reported "timeout"))]
where
  digest := "6ae8a75555209fd6c44157c0aed8016e763ff435a19cf186f76863140143ff72"

theorem contested_lifecycle :
    (∃ l, Embedded.Tells l ({} : Embedded.Database).tables) ∧
    (∀ r, .start (.put r) ∈ contested → Text.fitsInt64 r.size = true) ∧
    (∀ k ≤ contested.length, Embedded.Room ((operations Embedded.storage .everyone
      Embedded.Database.step).reached {} contested k).state.tables) ∧
    ((operations Embedded.storage .everyone Embedded.Database.step).reached {} contested
      6).state.standing contested.digest = some ⟨30, true⟩ ∧
    Lifecycle Column.Tables.standing contested
      ((operations Column.storage .everyone Column.Tables.step).reached {} contested) ∧
    Lifecycle Relational.Database.standing contested
      ((operations Relational.storage .everyone Relational.Database.step).reached {} contested) ∧
    Lifecycle Embedded.Database.standing contested
      ((operations Embedded.storage .everyone Embedded.Database.step).reached {} contested) := by
  have htells : ∃ l, Embedded.Tells l ({} : Embedded.Database).tables :=
    ⟨Ledger.empty, Embedded.tells_empty⟩
  have hsizes : ∀ r, .start (.put r) ∈ contested → Text.fitsInt64 r.size = true := by
    intro r hr
    simp only [contested, List.mem_cons, Turn.start.injEq, Operation.put.injEq, reduceCtorEq,
      List.not_mem_nil, or_false] at hr
    rcases hr with rfl | rfl <;> rfl
  have hroom : ∀ k ≤ contested.length, Embedded.Room ((operations Embedded.storage .everyone
      Embedded.Database.step).reached {} contested k).state.tables := by decide +kernel
  have hend : ((operations Embedded.storage .everyone Embedded.Database.step).reached {} contested
      6).state.standing contested.digest = some ⟨30, true⟩ := by decide +kernel
  obtain ⟨hcolumn, hrelational, hembedded⟩ := record_lifecycle .everyone contested
  exact ⟨htells, hsizes, hroom, hend, hcolumn {}, hrelational {}, hembedded {} htells hsizes hroom⟩

end Depot
