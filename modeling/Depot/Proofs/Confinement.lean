import Depot.Proofs.Bucket.Contract
import Depot.Proofs.Files.Store

/-!
# Keys lead where they belong

The key of an object is appended to the path of a directory or to the address of a bucket. Between
its slashes it has names of letters and digits, so none of them is empty or goes up, and what it
leads to lies below. The keys of different objects lead to different places, and where the objects
are digests, no place is on the way to another one or is that of an upload.

Headlines
* **`Files.Path.ofString_below`**: names of letters and digits lead on from where a path leads to.
* `Confined` says what the key of one object is, `Apart` what the keys of two are to each other.
* **`keys_confined_and_apart`**: the keys of accepted ids are confined, those of digests apart.
-/

namespace Depot

open Bucket (Store)
open Content (checkOid isPlain keyParts storageKey)
open Files (Path locate stagingPath)
open Registry (isDigest)

variable {oid a b : String}

/-! ### Below the base -/

/-- **Names of letters and digits lead on from where a path leads to.** -/
theorem Files.Path.ofString_below (base : String) {names : List String} (hne : names ≠ [])
    (hplain : ∀ name ∈ names, name ≠ "" ∧ ∀ c ∈ name.toList, isPlain c = true) :
    ofString (base ++ "/" ++ String.intercalate "/" names) = ofString base ++ names := by
  have hpieces : (Text.pieces '/' (base ++ "/" ++ String.intercalate "/" names).toList).map
      String.ofList = (Text.pieces '/' base.toList).map String.ofList ++ names := by
    have htext : (base ++ "/" ++ String.intercalate "/" names).toList =
        base.toList ++ '/' :: List.intercalate ['/'] (names.map String.toList) := by
      simp [String.toList_intercalate]
    rw [htext, Text.pieces_append, Text.pieces_intercalate (by simpa using hne)]
    · simp
    · intro part hpart hslash
      obtain ⟨name, hname, rfl⟩ := List.mem_map.mp hpart
      exact absurd ((hplain name hname).2 '/' hslash) (by decide)
  unfold ofString
  rw [hpieces, List.foldl_append]
  generalize List.foldl _ [] ((Text.pieces '/' base.toList).map String.ofList) = p
  clear hpieces hne
  induction names generalizing p with
  | nil => exact (List.append_nil p).symm
  | cons name names ih =>
    obtain ⟨hempty, hname⟩ := hplain name List.mem_cons_self
    -- A name of dots would stay or go up, but a dot is no letter.
    have hstays : name ≠ "." := by
      rintro rfl
      exact absurd (hname '.' (by simp)) (by decide)
    have hup : name ≠ ".." := by
      rintro rfl
      exact absurd (hname '.' (by simp)) (by decide)
    rw [List.foldl_cons, if_neg (not_or.mpr ⟨hempty, hstays⟩), if_neg hup,
      ih (fun n hn => hplain n (List.mem_cons_of_mem name hn)), List.append_assoc]
    rfl

/-- What the key of an object is, wherever it is appended. -/
structure Confined (oid : String) : Prop where
  /-- Without its slashes it is the id. -/
  joined : (storageKey oid).toList.filter (· != '/') = oid.toList
  /-- Between its slashes it has names of letters and digits. -/
  named : ∀ name ∈ Text.pieces '/' (storageKey oid).toList,
    name ≠ [] ∧ ∀ c ∈ name, isPlain c = true
  /-- It leads to a place below the base directory. -/
  below : ∀ base, Path.ofString (base ++ "/" ++ storageKey oid) = locate (Path.ofString base) oid
  /-- It goes to the end of the path of the bucket's address. -/
  within : ∀ (s : Store) (root : Url), s.Usable root →
    Url.parse (s.bucketUrl ++ "/" ++ storageKey oid) =
      .ok { root with path := root.path ++ storageKey oid }

/-- The key of an id that is accepted is confined. -/
theorem confined_of_checkOid (h : checkOid oid = .ok ()) : Confined oid where
  joined := Content.filter_storageKey h
  named := by
    intro name hname
    rw [Content.pieces_storageKey h] at hname
    obtain ⟨part, hpart, rfl⟩ := List.mem_map.mp hname
    refine ⟨?_, fun c hc => Content.plain_of_mem_keyParts h hpart hc⟩
    simpa using Content.ne_empty_of_mem_keyParts h hpart
  below base := Files.Path.ofString_below base (Content.keyParts_ne_nil oid) fun name hname =>
    ⟨Content.ne_empty_of_mem_keyParts h hname, fun c hc => Content.plain_of_mem_keyParts h hname hc⟩
  within s root hs := hs.parse_key h

/-! ### Out of each other's way -/

/-- What the keys of two objects are to each other. -/
structure Apart (a b : String) : Prop where
  /-- The first key is no directory on the way to the second one, -/
  key : ∀ rest, storageKey b ≠ storageKey a ++ "/" ++ rest
  /-- nor the name that an upload of the second object has. -/
  staging : ∀ token, storageKey a ≠ storageKey b ++ "." ++ token ++ ".tmp"
  /-- The same holds of the places that the keys lead to. -/
  place : ∀ base, ¬ locate base a <+: locate base b
  upload : ∀ base token, locate base a ≠ stagingPath (locate base b) token

/-- The keys of two digests are apart. -/
theorem apart_of_isDigest (ha : isDigest a = true) (hb : isDigest b = true) (hne : a ≠ b) :
    Apart a b where
  key := by
    intro rest hrest
    have haccepted := Content.checkOid_of_isDigest ha
    have hpieces : (keyParts b).map String.toList =
        (keyParts a).map String.toList ++ Text.pieces '/' rest.toList := by
      rw [← Content.pieces_storageKey (Content.checkOid_of_isDigest hb), hrest,
        ← Content.pieces_storageKey haccepted, ← Text.pieces_append]
      simp
    -- Both keys have three names, so that nothing is left for the rest.
    have hlength := congrArg List.length hpieces
    rw [List.length_append, List.length_map, List.length_map, Content.length_keyParts ha,
      Content.length_keyParts hb] at hlength
    exact Text.pieces_ne_nil '/' rest.toList (List.length_eq_zero_iff.mp (by omega))
  staging := by
    intro token hstaging
    have haccepted := Content.checkOid_of_isDigest ha
    have hdot : '.' ∈ (storageKey a).toList := by
      rw [hstaging]
      simp
    exact absurd (Content.plain_of_mem_storageKey haccepted hdot (by decide)) (by decide)
  place base hstarts := hne (Files.eq_of_locate_isPrefix ha hb hstarts)
  upload _ _ := (Files.stagingPath_ne_locate (Content.checkOid_of_isDigest ha)).symm

/-- **The keys of accepted ids are confined and belong to one id each, and those of digests are
apart.** -/
theorem keys_confined_and_apart :
    (∀ oid, checkOid oid = .ok () → Confined oid) ∧
    (∀ a b, checkOid a = .ok () → checkOid b = .ok () → storageKey a = storageKey b → a = b) ∧
    ∀ a b, isDigest a = true → isDigest b = true → a ≠ b → Apart a b := by
  refine ⟨fun oid haccepted => confined_of_checkOid haccepted, fun a b ha hb hkey => ?_,
    fun a b ha hb hne => apart_of_isDigest ha hb hne⟩
  exact Content.storageKey_injective ha hb hkey

/-- Two digests that differ in the last digit. -/
def neighbours : String × String :=
  ("6ae8a75555209fd6c44157c0aed8016e763ff435a19cf186f76863140143ff72",
    "6ae8a75555209fd6c44157c0aed8016e763ff435a19cf186f76863140143ff73")

/-- The contents of two digests that differ in the last digit alone are kept in one directory, each
clear of the other. A short id is its own key. -/
theorem neighbours_apart :
    checkOid "abcd" = .ok () ∧ Confined "abcd" ∧
    (isDigest neighbours.1 = true ∧ isDigest neighbours.2 = true ∧ neighbours.1 ≠ neighbours.2) ∧
    (keyParts neighbours.1).dropLast = (keyParts neighbours.2).dropLast ∧
    Apart neighbours.1 neighbours.2 ∧ storageKey neighbours.1 ≠ storageKey neighbours.2 := by
  obtain ⟨hconfined, hinjective, hapart⟩ := keys_confined_and_apart
  have hshort : checkOid "abcd" = .ok () := by decide
  have hfirst : isDigest neighbours.1 = true := by decide +kernel
  have hsecond : isDigest neighbours.2 = true := by decide +kernel
  have hne : neighbours.1 ≠ neighbours.2 := by decide
  have haccepted := fun oid (h : isDigest oid = true) => Content.checkOid_of_isDigest h
  exact ⟨hshort, hconfined _ hshort, ⟨hfirst, hsecond, hne⟩, by decide +kernel,
    hapart _ _ hfirst hsecond hne,
    fun hkey => hne (hinjective _ _ (haccepted _ hfirst) (haccepted _ hsecond) hkey)⟩

end Depot
