import Depot.Proofs.Bucket.Request
import Depot.Proofs.Content.Contract

/-!
# A bucket keeps to the contract

Over a service that stores what is uploaded under the path of a request and tells of it by the same
path, the content of an object is what is kept under the path of its key. Paths of different objects
differ, since neither the key of an object nor what reading an address makes of it joins two ids. So
an upload that is stored is found by its size, and whatever is read is what was uploaded.

Headlines
* **`Faithful`** says what a service has to do with the requests of a store.
* **`Store.Usable.parse_object`**, **`path_injective`**: the address of an object, and whose it is.
* **`meets`**: a bucket of a faithful service keeps to the contract.
-/

namespace Depot.Bucket

open Content (Answer Contents Digest Body checkOid)
open Files (Upload)
open Registry (Object isDigest)

/-! ### Services -/

/-- What is kept under each path. -/
abbrev Kept := String → Option Bytes

/-- A response is what a request asks for: success, or that nothing is kept under the path. -/
def Response.Meant (a : Response) : Method → Option Bytes → Prop
  | .put, _ | .delete, _ => isSuccess a.status = true
  | .head, some b => isSuccess a.status = true ∧ a.length = some (toString b.length)
  | .get, some b => isSuccess a.status = true ∧ a.body = some b
  | .head, none | .get, none => a.status = 404

/-- What is kept after a request. -/
def Request.leaves (r : Request) (kept : Kept) : Kept :=
  match r.method with
  | .put => Function.update kept r.url.path (some (r.body.getD []))
  | .delete => Function.update kept r.url.path none
  | .head | .get => kept

/-- A service answers requests of a kind by what it keeps under their paths, and keeps what they
leave. -/
def Faithful {σ : Type} (service : Depot.Service σ Request Reply) (asks : Request → Prop)
    (shows : σ → Kept → Prop) : Prop :=
  ∀ r n kept, asks r → shows n kept → ∃ a n', service n r = (some a, n') ∧
    a.Meant r.method (kept r.url.path) ∧ shows n' (r.leaves kept)

namespace Store

/-- The requests of a store for content of objects. Bytes that are uploaded have been checked, so
their number fits 64 bits as the size of an object does. -/
inductive Asks (s : Store) : Request → Prop
  /-- A request for an object. -/
  | object {oid address : String} {url : Url} (hdigest : isDigest oid = true)
    (haddress : s.objectUrl oid = .ok address) (hurl : Url.parse address = .ok url)
    (method : Method) (body : Option Bytes) (withAcl : Bool)
    (hbody : ∀ b, body = some b → Text.fitsInt64 b.length = true) :
    Asks s (s.request method url body withAcl)

/-- The addresses of a store are those of a web server, and its requests can be sent. -/
structure Usable (s : Store) (root : Url) : Prop where
  /-- Where all paths begin. -/
  address : Url.parse (s.bucketUrl ++ "/") = .ok root
  /-- Requests are sent to web servers. -/
  scheme : root.scheme = "http" ∨ root.scheme = "https"
  /-- What is appended to the address goes to its path. -/
  query : root.query = none
  fragment : root.fragment = none
  /-- The name of the key can stand in a header. -/
  key : Printable s.config.accessKeyId
  region : Printable s.config.region

/-- The URL of an object. -/
def place (root : Url) (oid : String) : Url :=
  { root with path := root.path ++ Content.storageKey oid }

variable {s : Store} {root : Url} {oid : String}

/-- A key goes to the end of the path of the bucket's address, whatever id is accepted. -/
theorem Usable.parse_key (h : s.Usable root) (hoid : checkOid oid = .ok ()) :
    Url.parse (s.bucketUrl ++ "/" ++ Content.storageKey oid) = .ok (place root oid) := by
  have hend : (s.bucketUrl ++ "/").toList.getLast? = some '/' := by
    rw [String.toList_append]
    exact List.getLast?_concat
  have hspecial : Url.isSpecial root.scheme = true ∧ root.scheme ≠ "file" := by
    rcases h.scheme with hscheme | hscheme <;> rw [hscheme] <;> decide
  exact Url.parse_append hend h.address h.query h.fragment hspecial.1 hspecial.2
    (Content.keyParts_ne_nil oid) fun name hname c hc => Content.plain_of_mem_keyParts hoid hname hc

/-- **The address of an object** is read as that of the bucket with the object's key. -/
theorem Usable.parse_object (h : s.Usable root) (hdigest : isDigest oid = true) :
    ∃ address, s.objectUrl oid = .ok address ∧ Url.parse address = .ok (place root oid) := by
  have hoid := Content.checkOid_of_isDigest hdigest
  refine ⟨s.bucketUrl ++ "/" ++ Content.storageKey oid, ?_, h.parse_key hoid⟩
  unfold objectUrl
  rw [hoid]
  rfl

/-- **Objects of different ids have different paths.** -/
theorem path_injective {oid' : String} (h : isDigest oid = true) (h' : isDigest oid' = true)
    (hpath : (place root oid).path = (place root oid').path) : oid = oid' :=
  Content.storageKey_injective (Content.checkOid_of_isDigest h) (Content.checkOid_of_isDigest h')
    ((String.append_right_inj root.path).mp hpath)

end Store

/-! ### Over a faithful service -/

section

variable {σ : Type} {service : Depot.Service σ Request Reply} {shows : σ → Kept → Prop}
  {s : Store} {root : Url} {n n' : σ} {kept : Kept} {m : Contents} {oid : String}

/-- What an action comes to over a service, and its state after it. -/
def eval {α : Type} (service : Depot.Service σ Request Reply) (x : Action α) (n : σ) :
    Except Content.Error α × σ := Program.run service x.run n

section

variable {α β : Type} {x : Action α} {f : α → Action β}

theorem eval_bind_of_ok {a : α} (h : eval service x n = (.ok a, n')) :
    eval service (x >>= f) n = eval service (f a) n' := Program.run_bind_of_ok h

theorem eval_bind_of_error {e : Content.Error} (h : eval service x n = (.error e, n')) :
    eval service (x >>= f) n = (.error e, n') := Program.run_bind_of_error h

@[simp] theorem eval_lift (x : Except Content.Error α) (n : σ) :
    eval service (liftM x : Action α) n = (x, n) := rfl

theorem eval_perform {r : Request} {a : Option Response} (h : service n r = (a, n')) :
    eval service (liftM (Program.perform r : Program Request Reply (Option Response))) n =
      (.ok a, n') :=
  congrArg (fun answer => (Except.ok answer.1, answer.2)) h

end

/-- A service holds contents under the paths of their objects; their sizes fit 64 bits. -/
structure Holding (shows : σ → Kept → Prop) (root : Url) (n : σ) (m : Contents) : Prop where
  shown : ∃ kept, shows n kept ∧
    ∀ oid, isDigest oid = true → kept (Store.place root oid).path = m oid
  fits : ∀ oid b, m oid = some b → Text.fitsInt64 b.length = true

variable (hs : s.Usable root) (hservice : Faithful service s.Asks shows)

include hs hservice

/-- A request for an object is answered. -/
theorem eval_send {address : String} (hdigest : isDigest oid = true)
    (haddress : s.objectUrl oid = .ok address) (hshows : shows n kept) (method : Method)
    (body : Option Bytes) (hbody : ∀ b, body = some b → Text.fitsInt64 b.length = true)
    (withAcl : Bool) :
    ∃ a n', eval service (s.send method address body withAcl) n = (.ok a, n') ∧
      a.Meant method (kept (Store.place root oid).path) ∧
      shows n' ((s.request method (Store.place root oid) body withAcl).leaves kept) := by
  obtain ⟨address', haddress', hparse⟩ := hs.parse_object hdigest
  obtain rfl : address' = address := Except.ok.inj (haddress'.symm.trans haddress)
  have hscheme : (Store.place root oid).scheme = "http" ∨ (Store.place root oid).scheme = "https" :=
    hs.scheme
  have hsent := Store.canBeSent_request hs.key hs.region method hscheme body withAcl
  obtain ⟨a, n', hanswer, hmeant, hafter⟩ := hservice _ n kept
    (.object hdigest haddress hparse method body withAcl hbody) hshows
  refine ⟨a, n', ?_, hmeant, hafter⟩
  unfold Store.send
  rw [hparse, eval_bind_of_ok (a := Store.place root oid) rfl]
  simp only [hsent, Bool.not_true, Bool.false_eq_true, if_false]
  rw [eval_bind_of_ok (eval_perform hanswer)]
  rfl

/-- A request to read an object tells what is kept of it, and leaves that. -/
theorem Holding.read {address : String} (h : Holding shows root n m) (hdigest : isDigest oid = true)
    (haddress : s.objectUrl oid = .ok address) {method : Method}
    (hmethod : method = .head ∨ method = .get) :
    ∃ a n', eval service (s.send method address none false) n = (.ok a, n') ∧
      a.Meant method (m oid) ∧ Holding shows root n' m := by
  obtain ⟨kept, hshows, hkept⟩ := h.shown
  obtain ⟨a, n', hsend, hmeant, hafter⟩ :=
    eval_send hs hservice hdigest haddress hshows method none (by simp) false
  rw [hkept oid hdigest] at hmeant
  refine ⟨a, n', hsend, hmeant, ⟨kept, ?_, hkept⟩, h.fits⟩
  rcases hmethod with rfl | rfl <;> exact hafter

/-- What is uploaded for an object is kept of it, and nothing of another one is changed. -/
theorem Holding.write {address : String} (h : Holding shows root n m) (hdigest : isDigest oid = true)
    (haddress : s.objectUrl oid = .ok address) {b : Bytes} (hb : Text.fitsInt64 b.length = true) :
    ∃ a n', eval service (s.send .put address (some b) true) n = (.ok a, n') ∧
      isSuccess a.status = true ∧ Holding shows root n' (Function.update m oid (some b)) := by
  obtain ⟨kept, hshows, hkept⟩ := h.shown
  obtain ⟨a, n', hsend, hmeant, hafter⟩ := eval_send hs hservice hdigest haddress hshows .put
    (some b) (fun b' hb' => Option.some.inj hb' ▸ hb) true
  refine ⟨a, n', hsend, hmeant, ⟨_, hafter, fun oid' hdigest' => ?_⟩, fun oid' b' hb' => ?_⟩
  · show Function.update kept (Store.place root oid).path (some b) (Store.place root oid').path = _
    by_cases hoid : oid' = oid
    · rw [hoid, Function.update_self, Function.update_self]
    · have hpath : (Store.place root oid').path ≠ (Store.place root oid).path := fun heq =>
        hoid (Store.path_injective hdigest' hdigest heq)
      rw [Function.update_of_ne hpath, Function.update_of_ne hoid, hkept oid' hdigest']
  · by_cases hoid : oid' = oid
    · rw [hoid, Function.update_self] at hb'
      exact Option.some.inj hb' ▸ hb
    · rw [Function.update_of_ne hoid] at hb'
      exact h.fits oid' b' hb'

/-! ### The calls -/

omit hs hservice in
/-- A success is not the status for what is not there. -/
theorem ne_of_isSuccess {status : Nat} (h : isSuccess status = true) : status ≠ 404 := by
  rintro rfl
  exact absurd h (by decide)

theorem Holding.storedSize (h : Holding shows root n m) (hdigest : isDigest oid = true) :
    ∃ n', eval service (s.storedSize oid) n = (.ok ((m oid).map fun b => (b.length : Int)), n') ∧
      Holding shows root n' m := by
  obtain ⟨address, haddress, -⟩ := hs.parse_object hdigest
  obtain ⟨a, n', hsend, hmeant, hafter⟩ := h.read hs hservice hdigest haddress (Or.inl rfl)
  refine ⟨n', ?_, hafter⟩
  unfold Store.storedSize
  rw [haddress, eval_bind_of_ok (eval_lift (.ok address) n), eval_bind_of_ok hsend]
  cases hb : m oid with
  | none =>
    rw [hb] at hmeant
    have hstatus : a.status = 404 := hmeant
    rw [if_pos hstatus]
    rfl
  | some b =>
    rw [hb] at hmeant
    obtain ⟨hsuccess, hlength⟩ := hmeant
    have hsize : a.length.bind Text.int64? = some (b.length : Int) := by
      rw [hlength, Option.bind_some, Text.int64?_toString (h.fits oid b hb)]
    rw [if_neg (ne_of_isSuccess hsuccess)]
    simp only [hsuccess, Bool.not_true, Bool.false_eq_true, if_false, hsize]
    rfl

omit hs hservice in
/-- What is read is what a request for it is answered. -/
theorem eval_get_of_meant {address : String} (haddress : s.objectUrl oid = .ok address)
    {a : Response} (hsend : eval service (s.send .get address none false) n = (.ok a, n'))
    {b? : Option Bytes} (hmeant : a.Meant .get b?) :
    eval service (s.get oid) n = (b?.elim (.error (.notFound oid)) .ok, n') := by
  unfold Store.get
  rw [haddress, eval_bind_of_ok (eval_lift (.ok address) n), eval_bind_of_ok hsend]
  cases b? with
  | none =>
    have hstatus : a.status = 404 := hmeant
    rw [if_pos hstatus]
    rfl
  | some b =>
    obtain ⟨hsuccess, hbody⟩ := hmeant
    rw [if_neg (ne_of_isSuccess hsuccess)]
    simp only [hsuccess, Bool.not_true, Bool.false_eq_true, if_false, hbody]
    rfl

theorem Holding.get (h : Holding shows root n m) (hdigest : isDigest oid = true) :
    ∃ n', eval service (s.get oid) n = (m.fetch oid, n') ∧ Holding shows root n' m := by
  obtain ⟨address, haddress, -⟩ := hs.parse_object hdigest
  obtain ⟨a, n', hsend, hmeant, hafter⟩ := h.read hs hservice hdigest haddress (Or.inr rfl)
  refine ⟨n', ?_, hafter⟩
  rw [eval_get_of_meant haddress hsend hmeant]
  unfold Contents.fetch
  cases m oid <;> rfl

theorem Holding.exists? (h : Holding shows root n m) (hdigest : isDigest oid = true) :
    ∃ n', Program.run service (s.exists? oid) n = ((m oid).isSome, n') ∧
      Holding shows root n' m := by
  obtain ⟨n', hsize, hafter⟩ := h.storedSize hs hservice hdigest
  refine ⟨n', ?_, hafter⟩
  unfold Store.exists?
  unfold eval at hsize
  rw [Content.checkOid_of_isDigest hdigest]
  simp only
  rw [Program.run_bind, hsize]
  simp only [Option.isSome_map]
  rfl

theorem Holding.verify {o : Object} (h : Holding shows root n m) (hdigest : isDigest o.oid = true) :
    ∃ n', eval service (s.verify o) n =
      ((m.fetch o.oid).bind fun b => (Digest.of b).check o, n') ∧ Holding shows root n' m := by
  obtain ⟨n', hget, hafter⟩ := h.get hs hservice hdigest
  refine ⟨n', ?_, hafter⟩
  unfold Store.verify
  cases hfetch : m.fetch o.oid with
  | error e =>
    rw [hfetch] at hget
    rw [eval_bind_of_error hget]
    rfl
  | ok b =>
    rw [hfetch] at hget
    rw [eval_bind_of_ok hget]
    rfl

omit hs hservice in
/-- The bytes of a body come to their digest, which is compared with the object. -/
theorem checkedBytes_eq (o : Object) (body : Body) : Store.checkedBytes o body =
    match body.failure with
    | some text => .error (.io (.broken text))
    | none => ((Digest.of body.pieces.flatten).check o).map fun _ => body.pieces.flatten := by
  have hcopy : body.copy = (body.measure, body.pieces.flatten) := Prod.ext rfl body.flatten_reads
  unfold Store.checkedBytes
  rw [hcopy, body.measure_eq]
  cases body.failure with
  | some text => rfl
  | none => rfl

omit hs hservice in
/-- The bytes of an upload are checked before anything is sent. -/
theorem checkedBytes_of_accepted {u : Upload} (ha : u.Accepted) :
    Store.checkedBytes u.object u.body = u.verdict.map fun _ => u.body.pieces.flatten := by
  rw [checkedBytes_eq, Upload.verdict_of_accepted ha]
  cases u.body.failure with
  | some text => rfl
  | none => rfl

omit hs hservice in
/-- An upload that succeeds has the size of its object. -/
theorem length_of_verdict {u : Upload} (ha : u.Accepted) (h : u.verdict = .ok ()) :
    (u.body.pieces.flatten.length : Int) = u.object.size := by
  rw [Upload.verdict_of_accepted ha] at h
  cases hfailure : u.body.failure with
  | some text =>
    rw [hfailure] at h
    exact absurd h (by simp)
  | none =>
    rw [hfailure] at h
    exact (Content.Digest.check_eq_ok_iff.mp h).1

/-- An upload that is not the object's content is not sent. One that is is kept, and found in its
size. -/
theorem Holding.put {u : Upload} (h : Holding shows root n m)
    (hdigest : isDigest u.object.oid = true) (hsize : Text.fitsInt64 u.object.size = true) :
    ∃ n', eval service (s.put u.object u.body) n = (u.verdict, n') ∧
      Holding shows root n' (m.store u) := by
  obtain ⟨address, haddress, -⟩ := hs.parse_object hdigest
  have ha : u.Accepted := Content.checkOid_of_isDigest hdigest
  have hchecked := checkedBytes_of_accepted ha
  cases hverdict : u.verdict with
  | error e =>
    refine ⟨n, ?_, (Contents.store_of_error hverdict).symm ▸ h⟩
    rw [hverdict] at hchecked
    unfold Store.put
    rw [haddress, eval_bind_of_ok (eval_lift (.ok address) n), hchecked]
    rfl
  | ok _ =>
    have hbytes : Store.checkedBytes u.object u.body = .ok u.body.pieces.flatten := by
      rw [hchecked, hverdict]
      rfl
    have hlength := length_of_verdict ha hverdict
    obtain ⟨a, n₁, hsend, hsuccess, hwritten⟩ :=
      h.write hs hservice hdigest haddress (b := u.body.pieces.flatten) (hlength ▸ hsize)
    obtain ⟨n₂, hstored, hafter⟩ := hwritten.storedSize hs hservice hdigest
    rw [Function.update_self] at hstored
    refine ⟨n₂, ?_, (Contents.store_of_ok hverdict).symm ▸ hafter⟩
    unfold Store.put
    rw [haddress, eval_bind_of_ok (eval_lift (.ok address) n), hbytes,
      eval_bind_of_ok (eval_lift (.ok u.body.pieces.flatten) n), eval_bind_of_ok hsend]
    simp only [hsuccess, Bool.not_true, Bool.false_eq_true, if_false]
    rw [eval_bind_of_ok hstored]
    simp only [Option.map_some, hlength]
    rw [if_neg (fun hne => hne rfl)]
    rfl

end

/-- The answer to a call, and the state of the service after it. -/
def answer {σ : Type} (s : Store) (service : Depot.Service σ Request Reply) (n : σ) :
    Content.Call → Answer × σ
  | .put u =>
    let (r, n) := eval service (s.put u.object u.body) n
    (.stored r, n)
  | .get oid =>
    let (r, n) := eval service (s.get oid) n
    (.content r, n)
  | .exists oid =>
    let (r, n) := (s.exists? oid).run service n
    (.present r, n)
  | .verify o =>
    let (r, n) := eval service (s.verify o) n
    (.verified r, n)

/-- **A bucket of a faithful service keeps to the contract.** -/
theorem meets {σ : Type} {service : Depot.Service σ Request Reply} {shows : σ → Kept → Prop}
    {s : Store} {root : Url} (hs : s.Usable root) (hservice : Faithful service s.Asks shows) :
    Content.Meets (answer s service) (Holding shows root) Content.Call.Proper := by
  intro n m c h hproper
  cases c with
  | put u =>
    obtain ⟨n', hput, hafter⟩ := h.put hs hservice hproper.1 hproper.2
    simp only [answer, hput]
    exact ⟨rfl, hafter⟩
  | get oid =>
    obtain ⟨n', hget, hafter⟩ := h.get hs hservice hproper
    simp only [answer, hget]
    exact ⟨rfl, hafter⟩
  | «exists» oid =>
    obtain ⟨n', hexists, hafter⟩ := h.exists? hs hservice hproper
    simp only [answer, hexists]
    exact ⟨rfl, hafter⟩
  | verify o =>
    obtain ⟨n', hverify, hafter⟩ := h.verify hs hservice hproper
    simp only [answer, hverify]
    exact ⟨rfl, hafter⟩

end Depot.Bucket
