import Depot.Bucket.Store
import Depot.Proofs.Content.Body
import Depot.Proofs.Text.Decimal
import Depot.Proofs.Url.Parser

/-!
# Requests that can be sent

A request is sent only if its address has a scheme for it and its headers hold no control characters.
What a store puts into the headers are digests, dates and names of its own; only the name of the key
and the region come from elsewhere.

Headlines
* **`canBeSent_request`**: a store's requests can be sent as long as the name of the key and the
  region can stand in a header; **`canBeSent_iff`**: not otherwise.
-/

namespace Depot.Bucket

open Content (isPlain)

/-- A text that can be the value of a header. -/
def Printable (s : String) : Prop := s.toList.all inHeader = true

instance (s : String) : Decidable (Printable s) := inferInstanceAs (Decidable (_ = true))

namespace Printable

variable {s t : String}

theorem iff_forall : Printable s ↔ ∀ c ∈ s.toList, inHeader c = true := List.all_eq_true

theorem append (hs : Printable s) (ht : Printable t) : Printable (s ++ t) := by
  refine iff_forall.mpr fun c hc => ?_
  rw [String.toList_append] at hc
  exact (List.mem_append.mp hc).elim (iff_forall.mp hs c) (iff_forall.mp ht c)

theorem append_iff : Printable (s ++ t) ↔ Printable s ∧ Printable t := by
  refine ⟨fun h => ?_, fun h => h.1.append h.2⟩
  rw [iff_forall, String.toList_append] at h
  exact ⟨iff_forall.mpr fun c hc => h c (List.mem_append_left _ hc),
    iff_forall.mpr fun c hc => h c (List.mem_append_right _ hc)⟩

/-- Letters and digits can stand in a header. -/
theorem of_plain (h : ∀ c ∈ s.toList, isPlain c = true) : Printable s :=
  iff_forall.mpr fun c hc => forall_isPlain (P := fun c => inHeader c = true) (by decide +kernel)
    (h c hc)

theorem intercalate {sep : String} {parts : List String} (hsep : Printable sep)
    (h : ∀ part ∈ parts, Printable part) : Printable (String.intercalate sep parts) := by
  induction parts with
  | nil =>
    rw [String.intercalate_nil]
    decide
  | cons part parts ih =>
    have hpart := h part List.mem_cons_self
    by_cases hlast : parts = []
    · rw [hlast, String.intercalate_singleton]
      exact hpart
    · rw [String.intercalate_cons_of_ne_nil hlast]
      exact (hpart.append hsep).append (ih fun p hp => h p (List.mem_cons_of_mem part hp))

/-! ### Digests, numbers and dates -/

theorem encode (b : Bytes) : Printable (Hex.encode b) := by
  refine of_plain fun c hc => Content.isPlain_iff.mpr ?_
  rcases Content.range_of_mem_encode hc with hdigit | ⟨hlow, hhigh⟩
  · exact Or.inr hdigit
  · exact Or.inl (Or.inr ⟨hlow, Char.le_trans hhigh (by decide)⟩)

theorem nat (n : Nat) : Printable (toString n) :=
  of_plain fun c hc => by
    have hdigit := Text.isDigit_iff.mp (Text.isDigit_of_mem_toString hc)
    exact Content.isPlain_iff.mpr (Or.inr hdigit)

theorem padded (width n : Nat) : Printable (Calendar.padded width n) := by
  unfold Calendar.padded
  refine append (iff_forall.mpr fun c hc => ?_) (nat n)
  rw [String.toList_ofList] at hc
  rw [List.eq_of_mem_replicate hc]
  decide

theorem stampText (now : Calendar) : Printable now.dateText ∧ Printable now.stampText := by
  have hyear : Printable (Calendar.yearText now.year) := by
    unfold Calendar.yearText
    split
    · exact append (by decide) (padded 4 _)
    · split
      · next hlarge =>
        obtain ⟨n, hn⟩ := Int.eq_ofNat_of_zero_le (by omega : (0 : Int) ≤ now.year)
        rw [hn]
        exact (by decide : Printable "+").append (nat n)
      · exact padded 4 _
  have hdate : Printable now.dateText := (hyear.append (padded 2 _)).append (padded 2 _)
  exact ⟨hdate, ((((hdate.append (by decide)).append (padded 2 _)).append (padded 2 _)).append
    (padded 2 _)).append (by decide)⟩

end Printable

/-! ### Headers -/

/-- The names that are signed are those of the headers and that of the host. -/
theorem printable_headerNames {headers : Headers} (host : String)
    (h : ∀ header ∈ headers, Printable (Text.lower header.1)) :
    Printable (headerNames (canonicalHeaders headers host)) := by
  refine Printable.intercalate (by decide) fun name hname => ?_
  obtain ⟨header, hheader, rfl⟩ := List.mem_map.mp hname
  unfold canonicalHeaders Text.sortPairs at hheader
  rcases List.mem_append.mp (List.mem_mergeSort.mp hheader) with hmem | hhost
  · obtain ⟨given, hgiven, rfl⟩ := List.mem_map.mp hmem
    exact h given hgiven
  · rw [List.mem_singleton.mp hhost]
    exact (by decide : Printable "host")

variable {signer : Signer}

theorem printable_authorization (hkey : Printable signer.accessKeyId)
    (hregion : Printable signer.region) (now : Calendar) {signed : Headers}
    (hsigned : Printable (headerNames signed)) (canonical : String) :
    Printable (signer.authorization now signed canonical) := by
  have hscope : Printable (signer.scope now.dateText) := by
    unfold Signer.scope
    exact (((((Printable.stampText now).1.append (by decide)).append hregion).append
      (by decide)).append (by decide)).append (by decide)
  unfold Signer.authorization Signer.signature
  refine Printable.append ?_ ?_
  · exact ((((by decide : Printable "AWS4-HMAC-SHA256 Credential=").append hkey).append
      (by decide)).append hscope).append (by decide)
  · exact (((by decide : Printable "SignedHeaders=").append hsigned).append (by decide)).append
      (Printable.encode _)

/-- The authorization names the key and the region. -/
theorem of_printable_authorization {now : Calendar} {signed : Headers} {canonical : String}
    (h : Printable (signer.authorization now signed canonical)) :
    Printable signer.accessKeyId ∧ Printable signer.region := by
  have hscope : Printable ("AWS4-HMAC-SHA256 Credential=" ++ signer.accessKeyId ++ "/" ++
      (now.dateText ++ "/" ++ signer.region ++ "/" ++ service ++ "/aws4_request") ++ ", ") :=
    (Printable.append_iff.mp h).1
  simp only [Printable.append_iff] at hscope
  exact ⟨hscope.1.1.1.2, hscope.1.2.1.1.1.2⟩

/-- Headers that can be sent can be sent with their signature. -/
theorem printable_sign (hkey : Printable signer.accessKeyId) (hregion : Printable signer.region)
    {headers : Headers}
    (h : ∀ header ∈ headers, Printable (Text.lower header.1) ∧ Printable header.2)
    (method : String) (url : Url) (payloadHash : String) (now : Calendar) :
    ∀ header ∈ signer.sign method url headers payloadHash now, Printable header.2 := by
  have hdated : ∀ header ∈ headers ++ [("x-amz-date", now.stampText)],
      Printable (Text.lower header.1) ∧ Printable header.2 := by
    intro header hheader
    rcases List.mem_append.mp hheader with hmem | hdate
    · exact h header hmem
    · rw [List.mem_singleton.mp hdate]
      exact ⟨(by decide +kernel : Printable (Text.lower "x-amz-date")), (Printable.stampText now).2⟩
  intro header hheader
  rcases List.mem_append.mp hheader with hmem | hauthorization
  · exact (hdated header hmem).2
  · rw [List.mem_singleton.mp hauthorization]
    exact printable_authorization hkey hregion now
      (printable_headerNames _ fun given hgiven => (hdated given hgiven).1) _

/-- **A store's requests can be sent** as long as the name of the key and the region can stand in a
header. -/
theorem Store.canBeSent_request {s : Store} (hkey : Printable s.config.accessKeyId)
    (hregion : Printable s.config.region) (method : Method) {url : Url}
    (hscheme : url.scheme = "http" ∨ url.scheme = "https") (body : Option Bytes) (withAcl : Bool) :
    (s.request method url body withAcl).canBeSent = true := by
  have hacl : Printable s.config.acl.name := by cases s.config.acl <;> decide
  have hgiven : ∀ header ∈ ("x-amz-content-sha256", Sha256.hexDigest (body.getD [])) ::
      (if withAcl then [("x-amz-acl", s.config.acl.name)] else []),
      Printable (Text.lower header.1) ∧ Printable header.2 := by
    intro header hheader
    rcases List.mem_cons.mp hheader with rfl | hheader
    · exact ⟨(by decide +kernel : Printable (Text.lower "x-amz-content-sha256")),
        Printable.encode _⟩
    · obtain ⟨-, hheader⟩ := List.mem_ite_nil_right.mp hheader
      rw [List.mem_singleton.mp hheader]
      exact ⟨(by decide +kernel : Printable (Text.lower "x-amz-acl")), hacl⟩
  have hkey' : Printable s.signer.accessKeyId := hkey
  have hsigned := printable_sign hkey' hregion hgiven method.name url
    (Sha256.hexDigest (body.getD [])) s.now
  have hall : ∀ header ∈ (s.request method url body withAcl).headers, Printable header.2 := by
    unfold Store.request
    intro header hheader
    simp only at hheader
    split at hheader
    · rcases List.mem_append.mp hheader with hmem | htype
      · exact hsigned header hmem
      · rw [List.mem_singleton.mp htype]
        exact (by decide : Printable contentType)
    · exact hsigned header hheader
  refine Bool.and_eq_true_iff.mpr ⟨?_, List.all_eq_true.mpr hall⟩
  show (url.scheme == "http" || url.scheme == "https") = true
  simpa using hscheme

/-- The authorization of a request is one of its headers. -/
theorem Store.mem_headers_request (s : Store) (method : Method) (url : Url) (body : Option Bytes)
    (withAcl : Bool) : ∃ signed canonical,
      ("authorization", s.signer.authorization s.now signed canonical) ∈
        (s.request method url body withAcl).headers := by
  unfold Store.request Signer.sign
  simp only
  split
  · exact ⟨_, _, List.mem_append_left _ (List.mem_append_right _ (List.mem_singleton.mpr rfl))⟩
  · exact ⟨_, _, List.mem_append_right _ (List.mem_singleton.mpr rfl)⟩

/-- **Whether a request of a store can be sent** depends on the scheme of its address, the name of the
key and the region only. -/
theorem Store.canBeSent_iff {s : Store} {method : Method} {url : Url} {body : Option Bytes}
    {withAcl : Bool} :
    (s.request method url body withAcl).canBeSent = true ↔
      (url.scheme = "http" ∨ url.scheme = "https") ∧ Printable s.config.accessKeyId ∧
        Printable s.config.region := by
  refine ⟨fun h => ?_, fun h => canBeSent_request h.2.1 h.2.2 method h.1 body withAcl⟩
  obtain ⟨hscheme, hheaders⟩ := Bool.and_eq_true_iff.mp h
  obtain ⟨signed, canonical, hmem⟩ := s.mem_headers_request method url body withAcl
  have hauthorization : Printable (s.signer.authorization s.now signed canonical) :=
    List.all_eq_true.mp hheaders _ hmem
  refine ⟨?_, of_printable_authorization hauthorization⟩
  have hscheme' : (url.scheme == "http" || url.scheme == "https") = true := hscheme
  simpa using hscheme'

end Depot.Bucket
