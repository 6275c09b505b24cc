import Depot.Bucket.Service
import Depot.Proofs.Bucket.Contract

/-!
# The service in memory is faithful

A service at which nothing goes wrong, with the bucket of a store, does with the store's requests
what they ask for. Its messages announce the length of their bodies in decimal digits, which are read
as that length again, and the path of an object is that of the bucket with the object's key.

Headlines
* **`receive_message`**: a message is received as it is meant.
* **`Service.split_path`**: bucket and key of a path.
* **`Service.faithful`**: the service is faithful to the store.
-/

namespace Depot.Bucket

open Content (isPlain)
open Registry (isDigest)

/-! ### Messages -/

/-- No digit is trimmed off a number. -/
theorem stripWhile_toString (n : Nat) :
    Text.stripWhile Text.isBlank (toString n).toList = (toString n).toList ∧
      Text.stripWhile isPadding (toString n).toList = (toString n).toList := by
  have hkept : ∀ c ∈ (toString n).toList, Text.isBlank c = false ∧ isPadding c = false := by
    intro c hc
    have hplain : isPlain c = true := Content.isPlain_iff.mpr
      (Or.inr (Text.isDigit_iff.mp (Text.isDigit_of_mem_toString hc)))
    exact forall_isPlain (P := fun c => Text.isBlank c = false ∧ isPadding c = false)
      (by decide +kernel) hplain
  exact ⟨Text.stripWhile_eq_self fun c hc => (hkept c hc).1,
    Text.stripWhile_eq_self fun c hc => (hkept c hc).2⟩

/-- A length is read as it is announced. -/
theorem announced?_toString {n : Nat} (h : n ≤ longestBody) :
    announced? (toString n) = some n := by
  have hpieces : Text.pieces ',' (toString n).toList = [(toString n).toList] := by
    refine Text.pieces_of_not_mem fun hcomma => ?_
    exact absurd (Text.isDigit_of_mem_toString hcomma) (by decide)
  have hlengths : [(toString n).toList].mapM Text.digits? = some [n] := by
    rw [List.mapM_cons, Text.digits?_toString]
    rfl
  unfold announced?
  rw [hpieces, List.map_singleton, (stripWhile_toString n).1]
  simp only [hlengths]
  simp [h]

/-- **A message is received as it is meant**: with a body, unless it goes without one. -/
theorem receive_message {method : Method} {status : Nat} {b : Bytes}
    (hfinal : isFinal status = true) (hb : b.length ≤ longestBody) :
    receive method (Service.message method status b) = some ⟨status, some (toString b.length),
      if method = .head ∨ isBodiless status = true then some [] else some b⟩ := by
  unfold receive Service.message
  simp only [hfinal, Bool.not_true, Bool.false_eq_true, if_false, Option.map_some,
    (stripWhile_toString b.length).2, String.ofList_toList]
  by_cases hbodiless : method = .head ∨ isBodiless status = true
  · rw [if_pos hbodiless, if_pos hbodiless]
  · have hmethod : method ≠ .head := fun h => hbodiless (Or.inl h)
    rw [if_neg hbodiless, if_neg hbodiless, if_neg hmethod]
    have hbody : bodyOf? (some (toString b.length)) b = some (some b) := by
      unfold bodyOf?
      simp only [announced?_toString hb, Option.map_some]
      rw [if_pos (Nat.le_refl _), List.take_length]
    rw [hbody]
    rfl

/-- What fits as the size of an object can be announced. -/
theorem le_longestBody {n : Nat} (h : Text.fitsInt64 n = true) : n ≤ longestBody := by
  unfold Text.fitsInt64 at h
  simp only [Bool.and_eq_true, decide_eq_true_eq] at h
  unfold longestBody
  omega

namespace Service

/-! ### Paths -/

/-- **Bucket and key of a path** below the path of the service. -/
theorem split_path (n : Service) {bucket : String} (hbucket : bucket ≠ "")
    (hslash : '/' ∉ bucket.toList) (key : String) :
    n.split (String.ofList (Text.stripEnd (· == '/') n.base.toList) ++ "/" ++ bucket ++ "/" ++ key) =
      (bucket, key) := by
  have hpath : (String.ofList (Text.stripEnd (· == '/') n.base.toList) ++ "/" ++ bucket ++ "/" ++
      key).toList = Text.stripEnd (· == '/') n.base.toList ++
        ('/' :: (bucket.toList ++ '/' :: key.toList)) := by
    simp
  have hdrop : ('/' :: (bucket.toList ++ '/' :: key.toList)).dropWhile (· == '/') =
      bucket.toList ++ '/' :: key.toList := by
    rw [List.dropWhile_cons_of_pos (by rfl)]
    cases hchars : bucket.toList with
    | nil => exact absurd (String.toList_eq_nil_iff.mp hchars) hbucket
    | cons c rest =>
      have hc : c ≠ '/' := by
        rintro rfl
        exact hslash (hchars ▸ List.mem_cons_self)
      exact List.dropWhile_cons_of_neg (by simpa using hc)
  have hcut : Text.cut '/' (bucket.toList ++ '/' :: key.toList) = some (bucket.toList, key.toList) :=
    Text.cut_eq_some_iff.mpr ⟨rfl, hslash⟩
  unfold split
  simp only [hpath]
  rw [if_pos (List.isPrefixOf_iff_prefix.mpr (List.prefix_append _ _)), List.drop_left, hdrop, hcut]
  simp

/-! ### Requests -/

variable {n : Service} {r : Request} {bucket key : String}

/-- Where nothing goes wrong, a request for an object is served. -/
theorem step_of_object (hreached : n.isReachedBy r.url = true) (hfaults : n.faults = [])
    (hsplit : n.split r.url.target = (bucket, key)) (hkey : key ≠ "")
    (hbucket : n.buckets.contains bucket = true) :
    n.step r = (receive r.method ({ n with received := r :: n.received }.serveObject r key).1,
      ({ n with received := r :: n.received }.serveObject r key).2) := by
  have hserved : ({ n with received := r :: n.received } : Service).serve r =
      ({ n with received := r :: n.received } : Service).serveObject r key := by
    have hsplit' : ({ n with received := r :: n.received } : Service).split r.url.target =
        (bucket, key) := hsplit
    unfold serve
    simp only [hsplit']
    rw [if_neg (by simpa using hkey), if_pos hbucket]
  have hplanned : takeFault r.method n.faults = (none, n.faults) := by
    rw [hfaults]
    rfl
  unfold step answer
  rw [if_pos hreached, hplanned]
  simp only [hserved, Option.bind_some]

/-- The service shows what it keeps under the paths of objects, if it has the bucket of a store, can
be reached where the store sends its requests, and nothing is to go wrong. -/
structure Shows (s : Store) (root : Url) (n : Service) (kept : Kept) : Prop where
  reached : n.isReachedBy root = true
  /-- The path of the bucket. -/
  path : root.path =
    String.ofList (Text.stripEnd (· == '/') n.base.toList) ++ "/" ++ s.config.bucket ++ "/"
  bucket : n.buckets.contains s.config.bucket = true
  /-- No answers are planned. -/
  faults : n.faults = []
  /-- No bytes are lost. -/
  truncate : n.truncate = 0
  objects : ∀ oid, isDigest oid = true →
    n.objects.get? (Content.storageKey oid) = kept (Store.place root oid).path
  fits : ∀ oid b, isDigest oid = true → kept (Store.place root oid).path = some b →
    Text.fitsInt64 b.length = true

variable {s : Store} {root : Url}

theorem Shows.receive {kept : Kept} (h : Shows s root n kept) (received : List Request) :
    Shows s root { n with received := received } kept :=
  ⟨h.reached, h.path, h.bucket, h.faults, h.truncate, h.objects, h.fits⟩

/-- What is changed under the key of an object is changed under its path. -/
theorem Shows.change {kept : Kept} (h : Shows s root n kept) {oid : String}
    (hdigest : isDigest oid = true) {objects : Table String Bytes} {value : Option Bytes}
    (hobjects : ∀ key, objects.get? key =
      if key = Content.storageKey oid then value else n.objects.get? key)
    (hvalue : ∀ b, value = some b → Text.fitsInt64 b.length = true) :
    Shows s root { n with objects := objects }
      (Function.update kept (Store.place root oid).path value) := by
  have hpath : ∀ oid', isDigest oid' = true → oid' ≠ oid →
      (Store.place root oid').path ≠ (Store.place root oid).path := fun oid' hdigest' hne heq =>
    hne (Store.path_injective hdigest' hdigest heq)
  refine ⟨h.reached, h.path, h.bucket, h.faults, h.truncate, fun oid' hdigest' => ?_,
    fun oid' b hdigest' hb => ?_⟩
  · show objects.get? (Content.storageKey oid') = _
    rw [hobjects]
    by_cases hoid : oid' = oid
    · rw [hoid, if_pos rfl, Function.update_self]
    · have hkey : Content.storageKey oid' ≠ Content.storageKey oid := fun heq =>
        hoid (Content.storageKey_injective (Content.checkOid_of_isDigest hdigest')
          (Content.checkOid_of_isDigest hdigest) heq)
      rw [if_neg hkey, Function.update_of_ne (hpath oid' hdigest' hoid), h.objects oid' hdigest']
  · by_cases hoid : oid' = oid
    · rw [hoid, Function.update_self] at hb
      exact hvalue b hb
    · rw [Function.update_of_ne (hpath oid' hdigest' hoid)] at hb
      exact h.fits oid' b hdigest' hb

/-- What is asked for an object is answered, and kept. -/
theorem Shows.serveObject {kept : Kept} (h : Shows s root n kept) {oid : String}
    (hdigest : isDigest oid = true) (hurl : r.url = Store.place root oid)
    (hbody : ∀ b, r.body = some b → Text.fitsInt64 b.length = true) :
    ∃ a, Bucket.receive r.method (n.serveObject r (Content.storageKey oid)).1 = some a ∧
      a.Meant r.method (kept r.url.path) ∧
      Shows s root (n.serveObject r (Content.storageKey oid)).2 (r.leaves kept) := by
  have hkept : n.objects.get? (Content.storageKey oid) = kept r.url.path := by
    rw [hurl, h.objects oid hdigest]
  have hfits : ∀ b, n.objects.get? (Content.storageKey oid) = some b → b.length ≤ longestBody := by
    intro b hb
    rw [h.objects oid hdigest] at hb
    exact le_longestBody (h.fits oid b hdigest hb)
  unfold Service.serveObject Request.leaves
  cases r.method with
  | put =>
    have hwhole : (r.body.getD []).take ((r.body.getD []).length - n.truncate) = r.body.getD [] := by
      rw [h.truncate, Nat.sub_zero, List.take_length]
    refine ⟨_, receive_message rfl (by decide), rfl, ?_⟩
    simp only [hwhole, hurl]
    refine h.change hdigest (fun key => Table.get?_insert ..) fun b hb => ?_
    obtain rfl := Option.some.inj hb
    cases hr : r.body with
    | none => decide
    | some b => exact hbody b hr
  | delete =>
    refine ⟨_, receive_message rfl (by decide), rfl, ?_⟩
    simp only [hurl]
    exact h.change hdigest (fun key => Table.get?_erase ..) (by simp)
  | head =>
    cases hb : n.objects.get? (Content.storageKey oid) with
    | none =>
      refine ⟨_, receive_message rfl (by decide), ?_, h⟩
      rw [← hkept, hb]
      rfl
    | some b =>
      refine ⟨_, receive_message rfl (hfits b hb), ?_, h⟩
      rw [← hkept, hb]
      exact ⟨rfl, rfl⟩
  | get =>
    cases hb : n.objects.get? (Content.storageKey oid) with
    | none =>
      refine ⟨_, receive_message rfl (by decide), ?_, h⟩
      rw [← hkept, hb]
      rfl
    | some b =>
      refine ⟨_, receive_message rfl (hfits b hb), ?_, h⟩
      rw [← hkept, hb]
      exact ⟨rfl, rfl⟩

/-- **The service in memory is faithful** to a store whose bucket has a name. -/
theorem faithful (hs : s.Usable root) (hbucket : s.config.bucket ≠ "")
    (hslash : '/' ∉ s.config.bucket.toList) : Faithful step s.Asks (Shows s root) := by
  intro r n kept hr h
  obtain @⟨oid, address, url, hdigest, haddress, hurl, method, body, withAcl, hbody⟩ := hr
  obtain ⟨address', haddress', hparse⟩ := hs.parse_object hdigest
  obtain rfl : address' = address := Except.ok.inj (haddress'.symm.trans haddress)
  obtain rfl : url = Store.place root oid := Except.ok.inj (hurl.symm.trans hparse)
  have hreached : n.isReachedBy (Store.place root oid) = true := h.reached
  have hkey : Content.storageKey oid ≠ "" := by
    intro hempty
    have hpieces := Content.pieces_storageKey (Content.checkOid_of_isDigest hdigest)
    have hlength := congrArg List.length hpieces
    rw [hempty, List.length_map, Content.length_keyParts hdigest] at hlength
    exact absurd hlength (by decide)
  have hsplit : n.split (Store.place root oid).target =
      (s.config.bucket, Content.storageKey oid) := by
    have htarget : (Store.place root oid).target = root.path ++ Content.storageKey oid := by
      show root.path ++ Content.storageKey oid ++ root.query.elim "" _ = _
      rw [hs.query]
      exact String.append_empty
    rw [htarget, h.path]
    exact split_path n hbucket hslash _
  generalize hr : s.request method (Store.place root oid) body withAcl = r
  have hparts : r.url = Store.place root oid ∧ r.body = body := hr ▸ ⟨rfl, rfl⟩
  obtain ⟨hurl', hbody'⟩ := hparts
  rw [← hurl'] at hreached hsplit
  obtain ⟨a, ha, hmeant, hafter⟩ := (h.receive (r :: n.received)).serveObject hdigest hurl'
    (hbody' ▸ hbody)
  refine ⟨a, _, ?_, hmeant, hafter⟩
  rw [step_of_object hreached h.faults hsplit hkey h.bucket, ha]

end Service

end Depot.Bucket
