import Depot.Bucket.Signature
import Depot.Proofs.Url.Query

/-!
# Equal requests are signed alike

A request is signed in a canonical form: its headers with names in lower case and values trimmed, in
order, and the pairs of its query in order. So what is signed depends on neither order, and the
names that the signature tells are in the order of the headers that were signed.

Headlines
* **`canonicalHeaders_eq_of_perm`**: headers that are the same in normal form, but for their order,
  are signed alike.
* **`map_fst_canonicalHeaders`**: the signed names are those of the headers, sorted.
* **`canonical_signing`**: what is sent with a request, and which requests are sent with the same
  authorization.
-/

namespace Depot.Bucket

open Registry (sortNames sortNames_eq_of_perm)
open Text (pairLe sortPairs)

variable {headers headers' : Headers} {url url' : Url}

/-- Headers with their names in lower case and their values trimmed. -/
def normalized (headers : Headers) : Headers :=
  headers.map fun (name, value) => (Text.lower name, Text.trim value)

theorem normalized_append (headers headers' : Headers) :
    normalized (headers ++ headers') = normalized headers ++ normalized headers' :=
  List.map_append

theorem canonicalHeaders_eq (headers : Headers) (host : String) :
    canonicalHeaders headers host = sortPairs (normalized headers ++ [("host", host)]) := rfl

/-- **Headers that are the same in normal form, but for their order, are signed alike**, whatever
follows them. -/
theorem canonicalHeaders_eq_of_perm (h : (normalized headers).Perm (normalized headers'))
    (added : Headers) (host : String) :
    canonicalHeaders (headers ++ added) host = canonicalHeaders (headers' ++ added) host := by
  rw [canonicalHeaders_eq, canonicalHeaders_eq, Text.sortPairs_eq_iff, normalized_append,
    normalized_append]
  exact (h.append_right _).append_right _

/-- **The signed names are those of the headers and that of the host, sorted.** -/
theorem map_fst_canonicalHeaders (headers : Headers) (host : String) :
    (canonicalHeaders headers host).map Prod.fst =
      sortNames (headers.map (fun header => Text.lower header.1) ++ ["host"]) := by
  rw [canonicalHeaders_eq, Text.map_fst_sortPairs, List.map_append]
  unfold normalized
  rw [List.map_map]
  rfl

/-- The canonical form of a request depends on the path and the query of its address in canonical
form. -/
theorem canonicalRequest_congr (hpath : url.canonicalPath = url'.canonicalPath)
    (hquery : url.queryPairs.Perm url'.queryPairs) (method : String) (signed : Headers)
    (payloadHash : String) :
    canonicalRequest method url signed payloadHash =
      canonicalRequest method url' signed payloadHash := by
  unfold canonicalRequest
  rw [hpath, Url.canonicalQuery_eq_iff.mpr hquery]

/-- The name of the header that tells the date is in lower case. -/
theorem lower_date : Text.lower "x-amz-date" = "x-amz-date" := by
  decide +kernel

namespace Signer

/-- The headers that are signed with the given ones: these and the date in normal form, and the
host. -/
def toSign (headers : Headers) (url : Url) (now : Calendar) : Headers :=
  canonicalHeaders (headers ++ [("x-amz-date", now.stampText)]) url.hostHeader

theorem map_fst_toSign (headers : Headers) (url : Url) (now : Calendar) :
    (toSign headers url now).map Prod.fst =
      sortNames (headers.map (fun header => Text.lower header.1) ++ ["host", "x-amz-date"]) := by
  unfold toSign
  rw [map_fst_canonicalHeaders, List.map_append, List.append_assoc]
  simp only [List.map_cons, List.map_nil, lower_date]
  exact sortNames_eq_of_perm ((List.Perm.swap "host" "x-amz-date" []).append_left _)

/-- The value of the authorization header of a request. -/
def authorizationOf (s : Signer) (method : String) (url : Url) (headers : Headers)
    (payloadHash : String) (now : Calendar) : String :=
  let signed := toSign headers url now
  s.authorization now signed (canonicalRequest method url signed payloadHash)

theorem sign_eq (s : Signer) (method : String) (url : Url) (headers : Headers)
    (payloadHash : String) (now : Calendar) : s.sign method url headers payloadHash now =
      headers ++ [("x-amz-date", now.stampText),
        ("authorization", s.authorizationOf method url headers payloadHash now)] :=
  List.append_assoc ..

/-- **Requests that are the same in canonical form get one authorization.** -/
theorem authorizationOf_congr (hheaders : (normalized headers).Perm (normalized headers'))
    (hhost : url.hostHeader = url'.hostHeader) (hpath : url.canonicalPath = url'.canonicalPath)
    (hquery : url.queryPairs.Perm url'.queryPairs) (s : Signer) (method payloadHash : String)
    (now : Calendar) : s.authorizationOf method url headers payloadHash now =
      s.authorizationOf method url' headers' payloadHash now := by
  have hsigned : toSign headers url now = toSign headers' url' now := by
    unfold toSign
    rw [hhost, canonicalHeaders_eq_of_perm hheaders]
  simp only [authorizationOf, hsigned, canonicalRequest_congr hpath hquery]

/-- **What is sent with a request, and which requests get one authorization.** Requests whose
headers are the same in normal form but for their order, and whose addresses have one host, one path
in canonical form and the same pairs in their queries, get one authorization. What is sent are the
given headers as they are, the date and the authorization. What is signed are the given headers and
the date in normal form and the host, in order, and the authorization names them in that order: the
names in lower case, sorted. -/
theorem canonical_signing (s : Signer) (method payloadHash : String) (now : Calendar) :
    (∀ (headers headers' : Headers) (url url' : Url),
      (normalized headers).Perm (normalized headers') → url.hostHeader = url'.hostHeader →
      url.canonicalPath = url'.canonicalPath → url.queryPairs.Perm url'.queryPairs →
      ∃ value,
        s.sign method url headers payloadHash now =
          headers ++ [("x-amz-date", now.stampText), ("authorization", value)] ∧
        s.sign method url' headers' payloadHash now =
          headers' ++ [("x-amz-date", now.stampText), ("authorization", value)]) ∧
    ∀ (headers : Headers) (url : Url), ∃ signed : Headers,
      signed.Perm (normalized (headers ++ [("x-amz-date", now.stampText)]) ++
        [("host", url.hostHeader)]) ∧
      signed.Pairwise (fun header header' => pairLe header header' = true) ∧
      signed.map Prod.fst =
        sortNames (headers.map (fun header => Text.lower header.1) ++ ["host", "x-amz-date"]) ∧
      s.sign method url headers payloadHash now =
        headers ++ [("x-amz-date", now.stampText),
          ("authorization",
            "AWS4-HMAC-SHA256 Credential=" ++ s.accessKeyId ++ "/" ++ s.scope now.dateText ++
              ", " ++ ("SignedHeaders=" ++ String.intercalate ";" (signed.map Prod.fst) ++
              ", Signature=" ++
                s.signature now (canonicalRequest method url signed payloadHash)))] := by
  constructor
  · intro headers headers' url url' hheaders hhost hpath hquery
    refine ⟨s.authorizationOf method url headers payloadHash now, s.sign_eq .., ?_⟩
    rw [authorizationOf_congr hheaders hhost hpath hquery]
    exact s.sign_eq ..
  · intro headers url
    refine ⟨toSign headers url now, Text.sortPairs_perm _, Text.pairwise_sortPairs _,
      map_fst_toSign headers url now, s.sign_eq ..⟩

/-- The headers and the address of a request. -/
def spelled : Headers × Url :=
  ([("X-Amz-Acl", " private"), ("Content-Type", "a/b"), ("x-amz-acl", "x")],
    { scheme := "http", host := some "h", port := some 9000, query := some "b=2&a=1" })

/-- The same headers in another order and with other letters and blanks, and an address of another
scheme, with the path that is meant by none and the query in another order. -/
def respelled : Headers × Url :=
  ([("x-amz-acl", "x\t"), ("X-AMZ-ACL", "private"), ("content-type", "a/b")],
    { scheme := "https", host := some "h", port := some 9000, path := "/",
      query := some "a=1&b=2" })

theorem respelled_signed_alike :
    (normalized spelled.1).Perm (normalized respelled.1) ∧
      spelled.2.hostHeader = respelled.2.hostHeader ∧
      spelled.2.canonicalPath = respelled.2.canonicalPath ∧
      spelled.2.queryPairs.Perm respelled.2.queryPairs ∧
      ∃ value,
        (Signer.mk "AKID" "key" "eu-west-1").sign "GET" spelled.2 spelled.1 ""
            ⟨2024, 1, 2, 3, 4, 5⟩ =
          spelled.1 ++ [("x-amz-date", "20240102T030405Z"), ("authorization", value)] ∧
        (Signer.mk "AKID" "key" "eu-west-1").sign "GET" respelled.2 respelled.1 ""
            ⟨2024, 1, 2, 3, 4, 5⟩ =
          respelled.1 ++ [("x-amz-date", "20240102T030405Z"), ("authorization", value)] := by
  have hheaders : (normalized spelled.1).Perm (normalized respelled.1) := by
    decide +kernel
  have hquery : spelled.2.queryPairs.Perm respelled.2.queryPairs := by
    decide +kernel
  refine ⟨hheaders, by decide, by decide, hquery, ?_⟩
  exact (canonical_signing ⟨"AKID", "key", "eu-west-1"⟩ "GET" "" ⟨2024, 1, 2, 3, 4, 5⟩).1
    spelled.1 respelled.1 spelled.2 respelled.2 hheaders (by decide) (by decide) hquery

end Signer

end Depot.Bucket
