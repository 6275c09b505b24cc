import Depot.Proofs.Bucket.Service
import Depot.Proofs.Files.Contract

/-!
# Content in files and content in a bucket

Files below a base directory and a bucket of a faithful service keep to one contract, so calls to
them cannot tell which of them it is that they are made to.

Headlines
* **`files_and_bucket_agree`**: from empty stores on, every call has the same answer.
-/

namespace Depot.Content

open Bucket (Faithful Kept Reply Request Store)
open Files (Path Tree Upload)

variable {σ : Type} {service : Service σ Request Reply} {shows : σ → Kept → Prop} {s : Store}
  {root : Url} {n : σ} {base : Path} {t : Tree} {calls : List Call}

/-- **Content in files and content in a bucket are told apart by no call.** Let the base directory
be there and empty, and let the service be faithful and keep nothing. Then calls one after another,
each about an object that is named by a digest, at paths that are not too long and with bodies that
are right, wrong or break off, have the same answers from both: those that follow from the
contents. -/
theorem files_and_bucket_agree (hempty : t.listing base = []) (hbase : t.look base = .ok .directory)
    (hs : s.Usable root) (hservice : Faithful service s.Asks shows) (hn : shows n fun _ => none)
    (hcalls : ∀ c ∈ calls, c.Proper ∧ Files.Nameable base c) :
    answers (Files.answer base) t calls = answers (Bucket.answer s service) n calls ∧
      answers (Bucket.answer s service) n calls = answers Contents.perform .empty calls := by
  have hfiles := (Files.meets base).answers_eq (Files.holding_empty hempty hbase) hcalls
  have hholding : Bucket.Holding shows root n .empty :=
    ⟨⟨_, hn, fun _ _ => rfl⟩, fun _ _ h => absurd h (by simp [Contents.empty])⟩
  have hbucket := (Bucket.meets hs hservice).answers_eq hholding fun c hc => (hcalls c hc).1
  exact ⟨hfiles.trans hbucket.symm, hbucket⟩

/-! ### A run over both -/

/-- A bucket on this machine. -/
def nearby : Store :=
  ⟨⟨some "http://localhost:9000", "us-east-1", "lfs", "depot", "secret", .private_⟩,
    ⟨2024, 5, 1, 12, 0, 0⟩⟩

/-- Where its paths begin. -/
def nearbyRoot : Url :=
  { scheme := "http", host := some "localhost", port := some 9000, path := "/lfs/" }

/-- The service that has it. -/
def host : Bucket.Service :=
  { authority := some "localhost:9000", buckets := (∅ : Table String String).insert "lfs" "private" }

theorem nearby_usable : nearby.Usable nearbyRoot where
  address := rfl
  scheme := Or.inl rfl
  query := rfl
  fragment := rfl
  key := by decide
  region := by decide

theorem host_shows : host.Shows nearby nearbyRoot fun _ => none where
  reached := by decide
  path := by decide
  bucket := by decide
  faults := rfl
  truncate := rfl
  objects _ _ := rfl
  fits _ _ _ h := absurd h (by simp)

/-- An upload that breaks off. -/
def cutShort : Upload := ⟨Files.abc, ⟨[[97, 98]], some "connection reset"⟩, "1"⟩

/-- An upload of the whole content. -/
def wholeUpload : Upload := ⟨Files.abc, ⟨[[97], [98, 99]], none⟩, "2"⟩

/-- Calls about one object. -/
def visits : List Call :=
  [.get Files.abc.oid, .put cutShort, .exists Files.abc.oid, .put wholeUpload,
    .exists Files.abc.oid, .get Files.abc.oid, .verify Files.abc,
    .verify { Files.abc with size := 4 }]

theorem visits_agree :
    Files.vacant.listing ["store"] = [] ∧ Files.vacant.look ["store"] = .ok .directory ∧
      (∀ c ∈ visits, c.Proper ∧ Files.Nameable ["store"] c) ∧
      answers (Files.answer ["store"]) Files.vacant visits =
        answers (Bucket.answer nearby Bucket.Service.step) host visits ∧
      answers (Bucket.answer nearby Bucket.Service.step) host visits =
        [.content (.error (.notFound Files.abc.oid)),
          .stored (.error (.io (.broken "connection reset"))), .present false, .stored (.ok ()),
          .present true, .content (.ok [97, 98, 99]), .verified (.ok ()),
          .verified (.error (.sizeMismatch 4 3))] := by
  have hempty : Files.vacant.listing ["store"] = [] := by decide +kernel
  have hbase : Files.vacant.look ["store"] = .ok .directory := rfl
  have hcalls : ∀ c ∈ visits, c.Proper ∧ Files.Nameable ["store"] c := by decide +kernel
  have hservice := Bucket.Service.faithful nearby_usable (by decide) (by decide)
  obtain ⟨hagree, hcontents⟩ := files_and_bucket_agree hempty hbase nearby_usable hservice host_shows
    hcalls
  refine ⟨hempty, hbase, hcalls, hagree, hcontents.trans ?_⟩
  have haccepted : checkOid Files.abc.oid = .ok () := checkOid_of_isDigest (by decide +kernel)
  have hcut : cutShort.verdict = .error (.io (.broken "connection reset")) :=
    Upload.verdict_of_accepted (u := cutShort) haccepted
  have hwhole : wholeUpload.verdict = .ok () :=
    (Upload.verdict_of_accepted (u := wholeUpload) haccepted).trans
      (Digest.check_eq_ok_iff.mpr ⟨rfl, by decide +kernel⟩)
  have hleft : Contents.empty.store cutShort = .empty := Contents.store_of_error hcut
  have hkept : Contents.empty.store wholeUpload =
      Function.update Contents.empty Files.abc.oid (some [97, 98, 99]) :=
    Contents.store_of_ok hwhole
  have hfound : Function.update Contents.empty Files.abc.oid (some [97, 98, 99]) Files.abc.oid =
      some [97, 98, 99] := Function.update_self ..
  have hright : (Digest.of [97, 98, 99]).check Files.abc = .ok () :=
    Digest.check_eq_ok_iff.mpr ⟨rfl, by decide +kernel⟩
  have hwrong : (Digest.of [97, 98, 99]).check { Files.abc with size := 4 } =
      .error (.sizeMismatch 4 3) := if_pos (by decide)
  simp only [visits, answers, Contents.perform, Contents.fetch, hcut, hwhole, hleft, hkept, hfound,
    Except.bind, hright, hwrong]
  rfl

end Depot.Content
