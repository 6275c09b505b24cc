import Depot.Proofs.Bytes.Percent
import Depot.Proofs.Text.Append
import Depot.Proofs.Text.Pairs
import Depot.Url.Query

/-!
# The canonical query is a normal form

The canonical form of a query forgets the order of its pairs and nothing else. Escaped names and
values hold no separator, so the pairs are read off the joined text; the text of each is read off
its escapes; and sorted lists of the same pairs are equal.

Headlines
* **`formPairs_append`**: the pairs of a query that goes on.
* **`splitPairs_joinPairs`**: joined pairs are read back.
* **`canonicalQuery_eq_iff`**: queries have one canonical form just if they have the same pairs,
  each as often.
* **`canonical_query_faithful`**: so it is a normal form, of unreserved characters and escapes, and
  the escapes give the texts back.
-/

namespace Depot.Url

open Percent (Escaped isUnreserved)
open Text (cut pieces)

variable {u v : Url} {pairs : List (String × String)}

/-- The pairs of queries with an ampersand between them are those of the one and those of the
other. -/
theorem formPairs_append (query next : String) :
    formPairs (query ++ "&" ++ next) = formPairs query ++ formPairs next := by
  have htext : (query ++ "&" ++ next).toList = query.toList ++ '&' :: next.toList := by simp
  unfold formPairs
  rw [htext, Text.pieces_append, List.filter_append, List.map_append]

/-! ### Joined pairs -/

/-- The pairs of a joined text: what stands around the first equals sign of each part. -/
def splitPairs (query : String) : List (String × String) :=
  (pieces '&' query.toList).filterMap fun part =>
    (cut '=' part).map fun (name, value) => (String.ofList name, String.ofList value)

/-- A name holds no separator, a value none of parts. -/
def Separable (p : String × String) : Prop :=
  '&' ∉ p.1.toList ∧ '=' ∉ p.1.toList ∧ '&' ∉ p.2.toList

theorem toList_joinPairs (pairs : List (String × String)) : (joinPairs pairs).toList =
    List.intercalate ['&'] (pairs.map fun p => p.1.toList ++ '=' :: p.2.toList) := by
  have hpair : ∀ p : String × String, (p.1 ++ "=" ++ p.2).toList =
      p.1.toList ++ '=' :: p.2.toList := by
    intro p
    simp
  unfold joinPairs
  rw [String.toList_intercalate, List.map_map]
  simp only [Function.comp_def, hpair]
  rfl

/-- **Joined pairs are read back.** No pairs are told from an empty one, which has its equals
sign. -/
theorem splitPairs_joinPairs (h : ∀ p ∈ pairs, Separable p) :
    splitPairs (joinPairs pairs) = pairs := by
  unfold splitPairs
  rw [toList_joinPairs]
  by_cases hnone : pairs = []
  · rw [hnone]
    rfl
  · have hparts : pieces '&' (List.intercalate ['&']
        (pairs.map fun p => p.1.toList ++ '=' :: p.2.toList)) =
          pairs.map fun p => p.1.toList ++ '=' :: p.2.toList := by
      refine Text.pieces_intercalate (by simpa using hnone) fun part hpart => ?_
      obtain ⟨p, hp, rfl⟩ := List.mem_map.mp hpart
      obtain ⟨hname, -, hvalue⟩ := h p hp
      simp [hname, hvalue]
    rw [hparts, List.filterMap_map]
    have hread : ∀ p ∈ pairs, (cut '=' (p.1.toList ++ '=' :: p.2.toList)).map
        (fun (name, value) => (String.ofList name, String.ofList value)) = some p := by
      intro p hp
      rw [Text.cut_eq_some_iff.mpr ⟨rfl, (h p hp).2.1⟩]
      simp
    exact (List.filterMap_congr hread).trans List.filterMap_some

/-- No pairs, one empty pair and two of them are joined to different texts. -/
example : [[], [("", "")], [("", ""), ("", "")]].map joinPairs = ["", "=", "=&="] := by
  decide

/-! ### Escaped pairs -/

/-- A pair with its name and its value escaped. -/
def escapedPair (p : String × String) : String × String := (Percent.encode p.1, Percent.encode p.2)

/-- Characters that stand for themselves in a canonical query. -/
def InCanonical (c : Char) : Prop := isUnreserved c = true ∨ c = '=' ∨ c = '&'

theorem escapedPair_injective : Function.Injective escapedPair := by
  intro p q h
  obtain ⟨hname, hvalue⟩ := Prod.mk.inj h
  exact Prod.ext (Percent.encodeWith_injective (by decide) hname)
    (Percent.encodeWith_injective (by decide) hvalue)

theorem separable_escapedPair (p : String × String) : Separable (escapedPair p) := by
  have hnone : ∀ (s : String) (c : Char), isUnreserved c = false → c ≠ '%' → c ∉ Percent.digits →
      c ∉ (Percent.encode s).toList := fun s c hc hpercent hdigit =>
    (Percent.escaped_encodeWith isUnreserved s).not_mem (by simp [hc]) hpercent hdigit
  exact ⟨hnone p.1 '&' (by decide) (by decide) (by decide),
    hnone p.1 '=' (by decide) (by decide) (by decide),
    hnone p.2 '&' (by decide) (by decide) (by decide)⟩

theorem canonicalQuery_eq (u : Url) :
    u.canonicalQuery = joinPairs (Text.sortPairs (u.queryPairs.map escapedPair)) := rfl

/-- The pairs of a canonical query are those of the query, escaped and in order. -/
theorem splitPairs_canonicalQuery (u : Url) :
    splitPairs u.canonicalQuery = Text.sortPairs (u.queryPairs.map escapedPair) := by
  rw [canonicalQuery_eq]
  refine splitPairs_joinPairs fun p hp => ?_
  obtain ⟨q, -, rfl⟩ := List.mem_map.mp ((Text.sortPairs_perm _).mem_iff.mp hp)
  exact separable_escapedPair q

/-- **Queries have one canonical form just if they have the same pairs**, each as often. -/
theorem canonicalQuery_eq_iff :
    u.canonicalQuery = v.canonicalQuery ↔ u.queryPairs.Perm v.queryPairs := by
  constructor
  · intro h
    have hsorted := congrArg splitPairs h
    rw [splitPairs_canonicalQuery, splitPairs_canonicalQuery, Text.sortPairs_eq_iff] at hsorted
    exact (List.map_perm_map_iff escapedPair_injective).mp hsorted
  · intro h
    rw [canonicalQuery_eq, canonicalQuery_eq, Text.sortPairs_eq_iff.mpr (h.map escapedPair)]

/-! ### Characters -/

/-- Pairs of escaped texts are joined to an escaped text. -/
theorem escaped_joinPairs (h : ∀ p ∈ pairs, Escaped InCanonical p.1.toList ∧
    Escaped InCanonical p.2.toList) : Escaped InCanonical (joinPairs pairs).toList := by
  have hpair : ∀ p ∈ pairs, Escaped InCanonical (p.1.toList ++ '=' :: p.2.toList) := fun p hp =>
    (h p hp).1.append (.char (.inr (.inl rfl)) (h p hp).2)
  rw [toList_joinPairs]
  clear h
  induction pairs with
  | nil => exact .nil
  | cons p pairs ih =>
    obtain ⟨hfirst, hrest⟩ := List.forall_mem_cons.mp hpair
    by_cases hlast : pairs = []
    · rw [hlast, List.map_singleton, List.intercalate_singleton]
      exact hfirst
    · rw [List.map_cons, List.intercalate_cons_of_ne_nil (by simpa using hlast), List.append_assoc]
      exact hfirst.append (.char (.inr (.inr rfl)) (ih hrest))

theorem escaped_canonicalQuery (u : Url) : Escaped InCanonical u.canonicalQuery.toList := by
  have htext : ∀ s, Escaped InCanonical (Percent.encode s).toList := fun s =>
    (Percent.escaped_encodeWith isUnreserved s).imp fun _ hc => Or.inl hc
  rw [canonicalQuery_eq]
  refine escaped_joinPairs fun p hp => ?_
  obtain ⟨q, -, rfl⟩ := List.mem_map.mp ((Text.sortPairs_perm _).mem_iff.mp hp)
  exact ⟨htext q.1, htext q.2⟩

/-- **The canonical form of a query is a normal form.** Two queries have one canonical form just if
they have the same pairs, each as often. It consists of unreserved characters, escapes of two
upper-case digits, equals signs and ampersands. Decoding an escaped text gives the text back. -/
theorem canonical_query_faithful :
    (∀ u v : Url, u.canonicalQuery = v.canonicalQuery ↔ u.queryPairs.Perm v.queryPairs) ∧
    (∀ u : Url, Escaped (fun c => isUnreserved c = true ∨ c = '=' ∨ c = '&')
      u.canonicalQuery.toList) ∧
    ∀ s : String, Bytes.ofUtf8? (Percent.decode (Bytes.utf8 (Percent.encode s))) = some s := by
  refine ⟨fun u v => canonicalQuery_eq_iff, escaped_canonicalQuery, fun s => ?_⟩
  unfold Percent.encode
  rw [Percent.decode_encodeWith (by decide), Bytes.ofUtf8?_utf8]

end Depot.Url
