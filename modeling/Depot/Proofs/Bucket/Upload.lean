import Depot.Proofs.Bucket.Contract

/-!
# The requests of an upload

An upload is checked before anything is sent: its id, that it ends, its length and its digest. After
that it is at most three requests to the address of its object: one stores the bytes, one asks how
many there are, and one removes what arrived in another size. Each is sent only if the reply to the
one before calls for it.

Headlines
* **`Store.run_put`**: an upload is a preparation that sends nothing and an exchange of up to three
  requests, whose replies `stored`, `told` and `removed` read.
* **`Store.prepare_eq_ok_iff`**: what is prepared is the content of the object, for its address.
-/

namespace Depot.Bucket

open Content (Body Digest checkOid)
open Registry (Object isDigest)

/-! ### Replies -/

/-- What the reply to storing bytes comes to. -/
def stored : Option Response → Except Content.Error Unit
  | none => .error (broken .unanswered)
  | some a => if isSuccess a.status then .ok () else .error (Store.refusal .upload a)

/-- What the reply to a question for the size of an object comes to, which should be there. -/
def told (oid : String) : Option Response → Except Content.Error Int
  | none => .error (broken .unanswered)
  | some a =>
    if a.status = 404 then .error (broken (.lost oid))
    else if !isSuccess a.status then .error (Store.refusal .head a)
    else match a.length.bind Text.int64? with
      | some size => .ok size
      | none => .error (broken .noLength)

/-- What the reply to removing an object comes to. -/
def removed : Option Response → Except Content.Error Unit
  | none => .error (broken .unanswered)
  | some a =>
    if !isSuccess a.status ∧ a.status ≠ 404 then .error (Store.refusal .delete a) else .ok ()

/-! ### An upload in two parts -/

namespace Store

variable (s : Store) (o : Object) (body : Body)

/-- Where the bytes of an upload are sent and what they are, once they have been checked. -/
def prepare : Except Content.Error (Url × Bytes) := do
  let address ← s.objectUrl o.oid
  let bytes ← checkedBytes o body
  let url ← (Url.parse address).mapError fun e => broken (.badUrl e.message)
  if !(s.request .put url (some bytes) true).canBeSent then throw (broken .unbuildable)
  return (url, bytes)

/-- The requests that follow the storing of bytes: they are counted, and removed if they are another
number than the object has. -/
def judge (url : Url) : Program Request Reply (Except Content.Error Unit) :=
  .call (s.request .head url none false) fun reply =>
    match told o.oid reply with
    | .error e => .done (.error e)
    | .ok size =>
      if size ≠ o.size then
        .call (s.request .delete url none false) fun reply =>
          .done ((removed reply).bind fun _ => .error (.sizeMismatch o.size size))
      else .done (.ok ())

/-- The requests for bytes that have been checked. -/
def exchange (url : Url) (bytes : Bytes) : Program Request Reply (Except Content.Error Unit) :=
  .call (s.request .put url (some bytes) true) fun reply =>
    match stored reply with
    | .error e => .done (.error e)
    | .ok () => s.judge o url

variable {s o body} {address : String} {url : Url}

/-- Sending a request is a call, which has to be answered. -/
theorem run_send (hurl : Url.parse address = .ok url) {method : Method} {payload : Option Bytes}
    {withAcl : Bool} (hsent : (s.request method url payload withAcl).canBeSent = true) :
    (s.send method address payload withAcl).run =
      .call (s.request method url payload withAcl) fun
        | some a => .done (.ok a)
        | none => .done (.error (broken .unanswered)) := by
  unfold send
  rw [hurl]
  show ExceptT.run (if (!(s.request method url payload withAcl).canBeSent) = true then _ else _) = _
  rw [if_neg (by simp [hsent])]
  refine congrArg (Program.call _) (funext fun reply => ?_)
  cases reply with
  | none => rfl
  | some a => rfl

/-- Nothing is sent to an address that cannot be read. -/
theorem run_send_of_error {e : Url.Error} (hurl : Url.parse address = .error e) (method : Method)
    (payload : Option Bytes) (withAcl : Bool) :
    (s.send method address payload withAcl).run = .done (.error (broken (.badUrl e.message))) := by
  unfold send
  rw [hurl]
  rfl

/-- A request that cannot be built is not sent. -/
theorem run_send_of_unbuildable (hurl : Url.parse address = .ok url) {method : Method}
    {payload : Option Bytes} {withAcl : Bool}
    (hsent : (s.request method url payload withAcl).canBeSent = false) :
    (s.send method address payload withAcl).run = .done (.error (broken .unbuildable)) := by
  unfold send
  rw [hurl]
  show ExceptT.run (if (!(s.request method url payload withAcl).canBeSent) = true then _ else _) = _
  rw [if_pos (by simp [hsent])]
  rfl

/-- Asking for the size of an object is a call, whose reply is read. -/
theorem run_storedSize (haddress : s.objectUrl o.oid = .ok address)
    (hurl : Url.parse address = .ok url)
    (hsent : (s.request .head url none false).canBeSent = true) :
    (s.storedSize o.oid).run = .call (s.request .head url none false) fun reply =>
      .done (match reply with
        | some a => if a.status = 404 then .ok none else (told o.oid reply).map some
        | none => .error (broken .unanswered)) := by
  unfold storedSize
  rw [haddress]
  have hsend := run_send hurl hsent
  refine (congrArg (Program.bind · _) hsend).trans ?_
  refine congrArg (Program.call _) (funext fun reply => ?_)
  cases reply with
  | none => rfl
  | some a =>
    show ExceptT.run (if a.status = 404 then _ else _) = _
    by_cases h404 : a.status = 404
    · simp only [if_pos h404]
      rfl
    · unfold told
      simp only [if_neg h404]
      cases isSuccess a.status with
      | false => rfl
      | true =>
        show ExceptT.run (match a.length.bind Text.int64? with
          | some size => _
          | none => _) = _
        cases a.length.bind Text.int64? with
        | none => rfl
        | some size => rfl

/-- Removing an object is a call, whose reply is read. -/
theorem run_delete (haddress : s.objectUrl o.oid = .ok address)
    (hurl : Url.parse address = .ok url)
    (hsent : (s.request .delete url none false).canBeSent = true) :
    (s.delete o.oid).run = .call (s.request .delete url none false) fun reply =>
      .done (removed reply) := by
  unfold delete
  rw [haddress]
  have hsend := run_send hurl hsent
  refine (congrArg (Program.bind · _) hsend).trans ?_
  refine congrArg (Program.call _) (funext fun reply => ?_)
  cases reply with
  | none => rfl
  | some a =>
    show ExceptT.run (if !isSuccess a.status ∧ a.status ≠ 404 then _ else _) = _
    by_cases hrefused : !isSuccess a.status ∧ a.status ≠ 404
    · simp only [removed, if_pos hrefused]
      rfl
    · simp only [removed, if_neg hrefused]
      rfl

/-- What an upload does after its bytes have been stored. -/
theorem run_judge (haddress : s.objectUrl o.oid = .ok address) (hurl : Url.parse address = .ok url)
    (hsent : ∀ method, (s.request method url none false).canBeSent = true) :
    (do
      match ← s.storedSize o.oid with
      | none => throw (broken (.lost o.oid))
      | some size =>
        if size ≠ o.size then
          s.delete o.oid
          throw (.sizeMismatch o.size size) : Action Unit).run = s.judge o url := by
  refine (congrArg (Program.bind · _) (run_storedSize haddress hurl (hsent _))).trans ?_
  refine congrArg (Program.call _) (funext fun reply => ?_)
  cases reply with
  | none => rfl
  | some a =>
    by_cases h404 : a.status = 404
    · simp only [told, if_pos h404]
      rfl
    · simp only [if_neg h404]
      cases told o.oid (some a) with
      | error e => rfl
      | ok size =>
        show ExceptT.run (if size ≠ o.size then _ else _) = _
        by_cases hsize : size ≠ o.size
        · simp only [if_pos hsize]
          refine (congrArg (Program.bind · _) (run_delete haddress hurl (hsent _))).trans ?_
          refine congrArg (Program.call _) (funext fun reply => ?_)
          show (Program.done (removed reply)).bind _ = _
          cases removed reply with
          | error e => rfl
          | ok _ => rfl
        · simp only [if_neg hsize]
          rfl

/-- What is left to prepare when the bytes have been checked. -/
theorem prepare_of_checked {bytes : Bytes} (haddress : s.objectUrl o.oid = .ok address)
    (hbytes : checkedBytes o body = .ok bytes) :
    s.prepare o body =
      match Url.parse address with
      | .error e => .error (broken (.badUrl e.message))
      | .ok url =>
        if (s.request .put url (some bytes) true).canBeSent then .ok (url, bytes)
        else .error (broken .unbuildable) := by
  unfold prepare
  rw [haddress, hbytes]
  cases hurl : Url.parse address with
  | error e =>
    simp only [bind, Except.bind, hurl]
    rfl
  | ok url =>
    simp only [bind, Except.bind, hurl, Except.mapError]
    cases (s.request .put url (some bytes) true).canBeSent with
    | false => rfl
    | true => rfl

/-- **An upload is a preparation and an exchange.** -/
theorem run_put : (s.put o body).run =
    match s.prepare o body with
    | .error e => .done (.error e)
    | .ok (url, bytes) => s.exchange o url bytes := by
  cases haddress : s.objectUrl o.oid with
  | error e =>
    unfold put prepare
    rw [haddress]
    rfl
  | ok address =>
    cases hbytes : checkedBytes o body with
    | error e =>
      unfold put prepare
      rw [haddress, hbytes]
      rfl
    | ok bytes =>
      have hput : (s.put o body).run = (s.send .put address (some bytes) true >>= fun a => do
          if !isSuccess a.status then throw (refusal .upload a)
          match ← s.storedSize o.oid with
          | none => throw (broken (.lost o.oid))
          | some size =>
            if size ≠ o.size then
              s.delete o.oid
              throw (.sizeMismatch o.size size)).run := by
        unfold put
        rw [haddress, hbytes]
        rfl
      rw [hput, prepare_of_checked haddress hbytes]
      cases hurl : Url.parse address with
      | error e => exact congrArg (Program.bind · _) (run_send_of_error hurl _ _ _)
      | ok url =>
        simp only
        cases hsent : (s.request .put url (some bytes) true).canBeSent with
        | false => exact congrArg (Program.bind · _) (run_send_of_unbuildable hurl hsent)
        | true =>
          have hall : ∀ method, (s.request method url none false).canBeSent = true := fun _ =>
            canBeSent_iff.mpr (canBeSent_iff.mp hsent)
          refine (congrArg (Program.bind · _) (run_send hurl hsent)).trans ?_
          refine congrArg (Program.call _) (funext fun reply => ?_)
          cases reply with
          | none => rfl
          | some a =>
            show ExceptT.run (if !isSuccess a.status then _ else _) = _
            cases hsuccess : isSuccess a.status with
            | false =>
              simp only [stored, hsuccess]
              rfl
            | true =>
              simp only [stored, hsuccess]
              exact run_judge haddress hurl hall

/-! ### What is prepared -/

/-- An upload that is the content of its object, by the id, the end, the length and the digest of
its bytes. -/
structure Genuine (o : Object) (body : Body) : Prop where
  key : checkOid o.oid = .ok ()
  ends : body.failure = none
  size : (body.pieces.flatten.length : Int) = o.size
  digest : Sha256.hexDigest body.pieces.flatten = o.oid

theorem checkedBytes_eq_ok_iff {bytes : Bytes} : checkedBytes o body = .ok bytes ↔
    body.failure = none ∧ (body.pieces.flatten.length : Int) = o.size ∧
      Sha256.hexDigest body.pieces.flatten = o.oid ∧ bytes = body.pieces.flatten := by
  rw [checkedBytes_eq]
  cases body.failure with
  | some text => simp
  | none =>
    have hcheck := Digest.check_eq_ok_iff (d := Digest.of body.pieces.flatten) (o := o)
    cases hresult : (Digest.of body.pieces.flatten).check o with
    | error e =>
      have hnot : ¬ ((body.pieces.flatten.length : Int) = o.size ∧
          Sha256.hexDigest body.pieces.flatten = o.oid) := fun h =>
        nomatch hresult.symm.trans (hcheck.mpr h)
      exact ⟨fun h => (nomatch h), fun h => absurd ⟨h.2.1, h.2.2.1⟩ hnot⟩
    | ok _ =>
      obtain ⟨hsize, hdigest⟩ := hcheck.mp hresult
      exact ⟨fun h => ⟨rfl, hsize, hdigest, (Except.ok.inj h).symm⟩,
        fun h => congrArg Except.ok h.2.2.2.symm⟩

theorem check_eq_sizeMismatch_iff {d : Digest} {expected actual : Int} :
    d.check o = .error (.sizeMismatch expected actual) ↔
      expected = o.size ∧ actual = d.size ∧ d.size ≠ o.size := by
  unfold Digest.check
  by_cases hsize : d.size = o.size
  · by_cases hoid : d.oid = o.oid
    · simp [hsize, hoid]
    · simp [hsize, hoid]
  · simp [hsize, eq_comm]

theorem checkedBytes_eq_sizeMismatch_iff {expected actual : Int} :
    checkedBytes o body = .error (.sizeMismatch expected actual) ↔
      body.failure = none ∧ expected = o.size ∧ actual = body.pieces.flatten.length ∧
        (body.pieces.flatten.length : Int) ≠ o.size := by
  rw [checkedBytes_eq]
  cases body.failure with
  | some text => simp
  | none =>
    have hcheck : (Digest.of body.pieces.flatten).check o = .error (.sizeMismatch expected actual) ↔
        _ := check_eq_sizeMismatch_iff
    have hsame : ((Digest.of body.pieces.flatten).check o).map (fun _ => body.pieces.flatten) =
        .error (.sizeMismatch expected actual) ↔
          (Digest.of body.pieces.flatten).check o = .error (.sizeMismatch expected actual) := by
      cases (Digest.of body.pieces.flatten).check o with
      | error e => exact ⟨fun h => congrArg Except.error (Except.error.inj h),
          fun h => congrArg Except.error (Except.error.inj h)⟩
      | ok _ => exact ⟨fun h => (nomatch h), fun h => (nomatch h)⟩
    exact (hsame.trans hcheck).trans ⟨fun h => ⟨rfl, h⟩, fun h => h.2⟩

theorem objectUrl_eq_ok_iff {oid : String} : s.objectUrl oid = .ok address ↔
    checkOid oid = .ok () ∧ address = s.bucketUrl ++ "/" ++ Content.storageKey oid := by
  unfold objectUrl
  cases checkOid oid with
  | error e => exact ⟨fun h => (nomatch h), fun h => (nomatch h.1)⟩
  | ok _ => exact ⟨fun h => ⟨rfl, (Except.ok.inj h).symm⟩, fun h => congrArg Except.ok h.2.symm⟩

theorem prepare_of_error {e : Content.Error} (haddress : s.objectUrl o.oid = .error e) :
    s.prepare o body = .error e := by
  unfold prepare
  rw [haddress]
  rfl

theorem prepare_of_unchecked {e : Content.Error} (haddress : s.objectUrl o.oid = .ok address)
    (hbytes : checkedBytes o body = .error e) : s.prepare o body = .error e := by
  unfold prepare
  rw [haddress, hbytes]
  rfl

/-- The address of the bucket and the key of an object make the address of the object. -/
def Addresses (s : Store) (oid : String) (url : Url) : Prop :=
  Url.parse (s.bucketUrl ++ "/" ++ Content.storageKey oid) = .ok url

/-- **What is prepared is the content of the object, for its address.** -/
theorem prepare_eq_ok_iff {bytes : Bytes} : s.prepare o body = .ok (url, bytes) ↔
    Genuine o body ∧ bytes = body.pieces.flatten ∧ s.Addresses o.oid url ∧
      (s.request .put url (some bytes) true).canBeSent = true := by
  unfold Addresses
  constructor
  · intro h
    cases haddress : s.objectUrl o.oid with
    | error e => exact nomatch (prepare_of_error haddress).symm.trans h
    | ok address =>
      obtain ⟨hkey, rfl⟩ := objectUrl_eq_ok_iff.mp haddress
      cases hbytes : checkedBytes o body with
      | error e => exact nomatch (prepare_of_unchecked haddress hbytes).symm.trans h
      | ok checked =>
        obtain ⟨hends, hsize, hdigest, rfl⟩ := checkedBytes_eq_ok_iff.mp hbytes
        rw [prepare_of_checked haddress hbytes] at h
        cases hurl : Url.parse (s.bucketUrl ++ "/" ++ Content.storageKey o.oid) with
        | error e =>
          rw [hurl] at h
          exact nomatch h
        | ok found =>
          rw [hurl] at h
          simp only at h
          split at h
          · next hsent =>
            obtain ⟨rfl, rfl⟩ := Prod.mk.inj (Except.ok.inj h)
            exact ⟨⟨hkey, hends, hsize, hdigest⟩, rfl, rfl, hsent⟩
          · exact nomatch h
  · rintro ⟨hgenuine, rfl, hurl, hsent⟩
    have haddress := objectUrl_eq_ok_iff (s := s).mpr ⟨hgenuine.key, rfl⟩
    have hbytes := checkedBytes_eq_ok_iff.mpr
      ⟨hgenuine.ends, hgenuine.size, hgenuine.digest, rfl⟩
    rw [prepare_of_checked haddress hbytes, hurl]
    exact if_pos hsent

/-- An upload is refused for its size before anything is sent if its bytes have another one. -/
theorem prepare_eq_sizeMismatch_iff {expected actual : Int} :
    s.prepare o body = .error (.sizeMismatch expected actual) ↔
      checkOid o.oid = .ok () ∧ body.failure = none ∧ expected = o.size ∧
        actual = body.pieces.flatten.length ∧ (body.pieces.flatten.length : Int) ≠ o.size := by
  rw [← checkedBytes_eq_sizeMismatch_iff]
  cases hkey : checkOid o.oid with
  | error e =>
    have haddress : s.objectUrl o.oid = .error e := by
      unfold objectUrl
      rw [hkey]
      rfl
    rw [prepare_of_error haddress]
    obtain rfl := Content.eq_invalidOid hkey
    exact ⟨fun h => (nomatch Except.error.inj h), fun h => (nomatch h.1)⟩
  | ok _ =>
    have haddress := objectUrl_eq_ok_iff (s := s).mpr ⟨hkey, rfl⟩
    cases hbytes : checkedBytes o body with
    | error e =>
      rw [prepare_of_unchecked haddress hbytes]
      exact ⟨fun h => ⟨rfl, congrArg _ (Except.error.inj h)⟩,
        fun h => congrArg _ (Except.error.inj h.2)⟩
    | ok bytes =>
      rw [prepare_of_checked haddress hbytes]
      refine ⟨fun h => ?_, fun h => (nomatch h.2)⟩
      split at h
      · exact nomatch Except.error.inj h
      · split at h
        · exact nomatch h
        · exact nomatch Except.error.inj h

/-- Under an address that can be used the content of an object is sent to its key. -/
theorem Usable.prepare {root : Url} (hs : s.Usable root) (h : Genuine o body) :
    s.prepare o body = .ok (place root o.oid, body.pieces.flatten) := by
  have hdigest : isDigest o.oid = true := h.digest ▸ Content.isDigest_hexDigest _
  obtain ⟨address, haddress, hurl⟩ := hs.parse_object hdigest
  obtain ⟨-, rfl⟩ := objectUrl_eq_ok_iff.mp haddress
  exact prepare_eq_ok_iff.mpr ⟨h, rfl, hurl, canBeSent_iff.mpr ⟨hs.scheme, hs.key, hs.region⟩⟩

end Store

end Depot.Bucket
