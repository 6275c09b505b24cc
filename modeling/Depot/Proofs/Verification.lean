import Depot.Proofs.Bucket.Upload
import Depot.Proofs.Contents
import Depot.Proofs.Files.Standing

/-!
# Verifying in files and in a bucket

A file is measured before it is read, and what a bucket sends is read at once. Both come to the same:
the judgement on the bytes that are kept for the object. A directory differs from a bucket in what
others can put into it, since a file can stand where a directory would have to.

Headlines
* **`Bucket.Store.Offers`**: what a service keeps for an object of a bucket.
* **`Bucket.Store.eval_verify_of_offers`**: it is judged.
* **`verifications_agree`**: both stores judge the bytes that are kept, whatever they are.
* **`unseen_behind_a_file`**: an object without content that is not said to be missing.
-/

namespace Depot

open Files (Path Tree locate)
open Registry (Object isDigest)

namespace Bucket.Store

variable {σ : Type} {service : Depot.Service σ Request Reply} {s : Store} {n n' : σ} {oid : String}
  {kept : Option Bytes}

/-- What a service keeps for an object, as it answers a request for it: bytes, or nothing. -/
def Offers (s : Store) (service : Depot.Service σ Request Reply) (n : σ) (oid : String)
    (kept : Option Bytes) (n' : σ) : Prop :=
  ∃ address url a, s.objectUrl oid = .ok address ∧ Url.parse address = .ok url ∧
    (s.request .get url none false).canBeSent = true ∧
    service n (s.request .get url none false) = (some a, n') ∧ Response.Meant a .get kept

/-- A faithful service offers what it shows. -/
theorem Usable.offers {root : Url} {shows : σ → Kept → Prop} {all : Kept} (hs : s.Usable root)
    (hservice : Faithful service s.Asks shows) (hshows : shows n all) (hdigest : isDigest oid = true) :
    ∃ n', s.Offers service n oid (all (place root oid).path) n' := by
  obtain ⟨address, haddress, hparse⟩ := hs.parse_object hdigest
  have hscheme : (place root oid).scheme = "http" ∨ (place root oid).scheme = "https" := hs.scheme
  have hsent := canBeSent_request hs.key hs.region .get hscheme none false
  obtain ⟨a, n', hanswer, hmeant, -⟩ := hservice _ n all
    (.object hdigest haddress hparse .get none false (by simp)) hshows
  exact ⟨n', address, place root oid, a, haddress, hparse, hsent, hanswer, hmeant⟩

theorem eval_get_of_offers (h : s.Offers service n oid kept n') : eval service (s.get oid) n =
    (kept.elim (.error (.notFound oid)) .ok, n') := by
  obtain ⟨address, url, a, haddress, hurl, hsent, hanswer, hmeant⟩ := h
  have hsend : eval service (s.send .get address none false) n = (.ok a, n') := by
    unfold eval
    rw [run_send hurl hsent]
    simp only [Program.run, hanswer]
  exact eval_get_of_meant haddress hsend hmeant

/-- **What is kept for an object is judged.** -/
theorem eval_verify_of_offers {o : Object} (h : s.Offers service n o.oid kept n') :
    eval service (s.verify o) n = (Content.judge kept o, n') := by
  have hget := eval_get_of_offers h
  unfold verify
  cases kept with
  | none =>
    rw [eval_bind_of_error hget]
    rfl
  | some b =>
    rw [eval_bind_of_ok hget]
    rfl

end Bucket.Store

namespace Content

/-- **Both stores judge the bytes that are kept**, whatever they are: right, of another length, or
other bytes of the same length. Where nothing is kept, neither finds the object. A directory that
has a file in the place of a directory of the object keeps nothing for it, and fails in another way;
so it does where a directory has the place of the object, and where the base directory lies so deep
that the system does not take the object's path. No other failure happens. -/
theorem verifications_agree {o : Object} (hdigest : isDigest o.oid = true) :
    (∀ (base : Path) (t : Tree), t.look base = .ok .directory → Path.Fits (locate base o.oid) →
      (∀ kept, Files.Offers base t o.oid kept →
        Files.eval (Files.verify base o) t = (judge kept o, t)) ∧
      (Files.Obstructed base o.oid t →
        Files.eval (Files.verify base o) t = (.error (.io .notDirectory), t)) ∧
      (t.look (locate base o.oid) = .ok .directory →
        Files.eval (Files.verify base o) t =
          (if (t.directoryLength : Int) ≠ o.size then
            .error (.sizeMismatch o.size t.directoryLength)
          else .error (.io .isDirectory), t)) ∧
      ((∃ kept, Files.Offers base t o.oid kept) ∨ Files.Obstructed base o.oid t ∨
        t.look (locate base o.oid) = .ok .directory)) ∧
    (∀ (base : Path) (t : Tree), ¬ Path.Fits (locate base o.oid) →
      Files.eval (Files.verify base o) t = (.error (.io .nameTooLong), t)) ∧
    ∀ {σ : Type} (service : Service σ Bucket.Request Bucket.Reply) (s : Bucket.Store) (n n' : σ)
      (kept : Option Bytes), s.Offers service n o.oid kept n' →
        Bucket.eval service (s.verify o) n = (judge kept o, n') := by
  refine ⟨fun base t hbase hfits => ⟨fun kept h => ?_, fun h => ?_, fun h => ?_, ?_⟩,
    fun base t hlong => Files.eval_verify_of_not_fits hdigest hlong t,
    fun service s n n' kept h => Bucket.Store.eval_verify_of_offers h⟩
  · exact Files.eval_verify_of_offers hbase hdigest hfits h
  · exact Files.eval_verify_of_obstructed hdigest hfits h
  · have hfind := (Tree.find_of_fits hfits).trans h
    exact (Files.answers_of_directory (checkOid_of_isDigest hdigest) hfind).verify
  · cases Files.standing hbase hdigest with
    | file b stands => exact Or.inl ⟨some b, stands⟩
    | absent absent => exact Or.inl ⟨none, (Files.offers_none_iff hbase hdigest).mpr absent⟩
    | directory stands => exact Or.inr (Or.inr stands)
    | obstructed way => exact Or.inr (Or.inl way)

/-! ### One object in both -/

/-- A base directory with a file that has lost its last byte. -/
def shortened : Tree := (Files.vacant.write (locate ["store"] Files.abc.oid) [97, 98]).2

/-- A service with an object that has. -/
def shortenedHost : Bucket.Service :=
  { host with objects := host.objects.insert (storageKey Files.abc.oid) [97, 98] }

theorem shortenedHost_shows : shortenedHost.Shows nearby nearbyRoot
    (Function.update (fun _ => none) (Bucket.Store.place nearbyRoot Files.abc.oid).path
      (some [97, 98])) := by
  refine host_shows.change (by decide +kernel) (fun key => Table.get?_insert ..) fun b hb => ?_
  obtain rfl := Option.some.inj hb
  decide

/-- Two bytes are found too few by both stores. -/
theorem shortened_mismatch :
    isDigest Files.abc.oid = true ∧ shortened.look ["store"] = .ok .directory ∧
      Path.Fits (locate ["store"] Files.abc.oid) ∧
      Files.Offers ["store"] shortened Files.abc.oid (some [97, 98]) ∧
      Files.eval (Files.verify ["store"] Files.abc) shortened =
        (.error (.sizeMismatch 3 2), shortened) ∧
      ∃ n, nearby.Offers Bucket.Service.step shortenedHost Files.abc.oid (some [97, 98]) n ∧
        Bucket.eval Bucket.Service.step (nearby.verify Files.abc) shortenedHost =
          (.error (.sizeMismatch 3 2), n) := by
  have hdigest : isDigest Files.abc.oid = true := by decide +kernel
  have hbase : shortened.look ["store"] = .ok .directory := by decide +kernel
  have hfits : Path.Fits (locate ["store"] Files.abc.oid) := by decide +kernel
  have hfile : Files.Offers ["store"] shortened Files.abc.oid (some [97, 98]) := by
    show shortened.look (locate ["store"] Files.abc.oid) = .ok (.file [97, 98])
    decide +kernel
  have hfaithful := Bucket.Service.faithful nearby_usable (by decide) (by decide)
  obtain ⟨n, hbucket⟩ := nearby_usable.offers hfaithful shortenedHost_shows hdigest
  rw [Function.update_self] at hbucket
  have hjudge : judge (some [97, 98]) Files.abc = .error (.sizeMismatch 3 2) := by
    show (Digest.of [97, 98]).check Files.abc = _
    exact if_pos (by decide)
  obtain ⟨hfiles, -, hservices⟩ := verifications_agree hdigest
  refine ⟨hdigest, hbase, hfits, hfile, ?_, n, hbucket, ?_⟩
  · rw [(hfiles ["store"] shortened hbase hfits).1 _ hfile, hjudge]
  · rw [hservices Bucket.Service.step nearby shortenedHost n _ hbucket, hjudge]

/-- A base directory with a file in the place of the directory of an object. -/
def blocked : Tree := (Files.vacant.write ["store", "ba"] [97]).2

/-- **An object without content that is not said to be missing.** A file has the name of the object's
directory, and nothing can stand below a file. Still, verifying the object does not find it absent. -/
theorem unseen_behind_a_file :
    isDigest Files.abc.oid = true ∧ blocked.look ["store"] = .ok .directory ∧
      (∀ e, blocked.look (locate ["store"] Files.abc.oid) ≠ .ok e) ∧
      ((Files.exists? ["store"] Files.abc.oid).run Tree.step blocked).1 = false ∧
      Files.eval (Files.verify ["store"] Files.abc) blocked =
        (.error (.io .notDirectory), blocked) := by
  have hlook : blocked.look (locate ["store"] Files.abc.oid) = .error .notDirectory := by
    decide +kernel
  have hfits : Path.Fits (locate ["store"] Files.abc.oid) := by decide +kernel
  refine ⟨by decide +kernel, by decide +kernel, fun e he => ?_, by decide +kernel, ?_⟩
  · exact nomatch hlook.symm.trans he
  · have hdigest : isDigest Files.abc.oid = true := by decide +kernel
    exact (Files.answers_of_error (checkOid_of_isDigest hdigest)
      ((Tree.find_of_fits hfits).trans hlook)).verify

end Content

end Depot
