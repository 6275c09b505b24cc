import Depot.Proofs.Bucket.Upload

/-!
# The protocol of an upload

What an upload sends depends on the replies it gets, one after another, and on nothing else that a
service does. So a list of replies determines the requests and the outcome: each further request is
the answer to one kind of reply to the last one.

Headlines
* **`Store.put_protocol`**: for every upload and every list of replies, what is sent and when, and
  what the upload comes to.
-/

namespace Depot.Bucket

open Content (Body checkOid)
open Registry (Object)

/-! ### Replies out of a list -/

/-- A service that takes its replies out of a list and keeps an account of the requests. -/
structure Scripted where
  /-- The replies to come; where there are no more, a request is not answered. -/
  replies : List (Option Response)
  /-- The requests so far. -/
  sent : List Request := []

/-- The next reply. -/
def Scripted.step (n : Scripted) (r : Request) : Reply r × Scripted :=
  (n.replies.head?.join, ⟨n.replies.tail, n.sent ++ [r]⟩)

/-- What an upload comes to that gets its replies out of a list, and what it has sent. -/
def Store.converse (s : Store) (o : Object) (body : Body) (replies : List (Option Response)) :
    Except Content.Error Unit × List Request :=
  let (outcome, n) := eval Scripted.step (s.put o body) ⟨replies, []⟩
  (outcome, n.sent)

/-- A request with a method is among those sent. -/
def Sends (sent : List Request) (method : Method) : Prop := ∃ r ∈ sent, r.method = method

/-- A reply is a success. -/
def Succeeds (reply : Option Response) : Prop := ∃ a, reply = some a ∧ isSuccess a.status = true

/-- A reply is a success that tells a length. -/
def Tells (reply : Option Response) (size : Int) : Prop :=
  ∃ a, reply = some a ∧ isSuccess a.status = true ∧ a.length.bind Text.int64? = some size

/-- A reply says that an object is there no longer. -/
def Clears (reply : Option Response) : Prop :=
  ∃ a, reply = some a ∧ (isSuccess a.status = true ∨ a.status = 404)

/-! ### What replies come to -/

section

variable {reply : Option Response}

theorem stored_eq_ok_iff : stored reply = .ok () ↔ Succeeds reply := by
  unfold stored Succeeds
  cases reply with
  | none => simp
  | some a => cases isSuccess a.status <;> simp

theorem told_eq_ok_iff {oid : String} {size : Int} :
    told oid reply = .ok size ↔ Tells reply size := by
  unfold told Tells
  cases reply with
  | none => simp
  | some a =>
    by_cases h404 : a.status = 404
    · simp [h404, isSuccess]
    · cases hsuccess : isSuccess a.status with
      | false => simp [h404, hsuccess]
      | true =>
        have hlength : told oid (some a) = .ok size ↔ a.length.bind Text.int64? = some size := by
          simp only [told, if_neg h404, hsuccess]
          cases a.length.bind Text.int64? with
          | none => simp
          | some n => simp
        unfold told at hlength
        simpa [h404, hsuccess] using hlength

/-- A reply tells one length. -/
theorem Tells.unique {size size' : Int} (h : Tells reply size) (h' : Tells reply size') :
    size = size' := by
  obtain ⟨a, rfl, -, hlength⟩ := h
  obtain ⟨a', hsame, -, hlength'⟩ := h'
  obtain rfl := Option.some.inj hsame
  exact Option.some.inj (hlength.symm.trans hlength')

theorem removed_eq_ok_iff : removed reply = .ok () ↔ Clears reply := by
  unfold removed Clears
  cases reply with
  | none => simp
  | some a =>
    by_cases h404 : a.status = 404
    · simp [h404]
    · cases hsuccess : isSuccess a.status <;> simp [h404, hsuccess]

/-- However a removal turns out, an upload that has come to it fails. -/
theorem fails_after_removal (reply : Option Response) (e : Content.Error) :
    ∃ e', ((removed reply).bind fun _ => (.error e : Except Content.Error Unit)) = .error e' := by
  cases removed reply with
  | error e' => exact ⟨e', rfl⟩
  | ok _ => exact ⟨e, rfl⟩

/-- What goes wrong with a reply went wrong behind the store. -/
theorem backend_of_reply (oid : String) {e : Content.Error}
    (h : stored reply = .error e ∨ told oid reply = .error e ∨ removed reply = .error e) :
    ∃ why, e = .backend why := by
  unfold stored told removed at h
  cases reply with
  | none => simp_all [broken, eq_comm]
  | some a =>
    simp only [Store.refusal, broken] at h
    rcases h with h | h | h
    · split at h
      · exact nomatch h
      · exact ⟨_, (Except.error.inj h).symm⟩
    · split at h
      · exact ⟨_, (Except.error.inj h).symm⟩
      · split at h
        · exact ⟨_, (Except.error.inj h).symm⟩
        · split at h
          · exact nomatch h
          · exact ⟨_, (Except.error.inj h).symm⟩
    · split at h
      · exact ⟨_, (Except.error.inj h).symm⟩
      · exact nomatch h

end

namespace Store

variable {s : Store} {o : Object} {body : Body} {replies : List (Option Response)}

/-! ### Requests and replies in turn -/

/-- An upload that is refused before anything is sent. -/
theorem converse_of_error {e : Content.Error} (h : s.prepare o body = .error e) :
    s.converse o body replies = (.error e, []) := by
  unfold converse eval
  rw [run_put, h]
  rfl

/-- The requests of an upload: one with all the bytes, one for their number, one for the removal. -/
def requests (s : Store) (url : Url) (bytes : Bytes) : List Request :=
  [s.request .put url (some bytes) true, s.request .head url none false,
    s.request .delete url none false]

/-- The exchange of an upload, by the replies one after another. -/
theorem converse_of_ok {url : Url} {bytes : Bytes} (h : s.prepare o body = .ok (url, bytes)) :
    s.converse o body replies =
      match stored replies[0]?.join with
      | .error e => (.error e, (s.requests url bytes).take 1)
      | .ok () =>
        match told o.oid replies[1]?.join with
        | .error e => (.error e, (s.requests url bytes).take 2)
        | .ok size =>
          if size ≠ o.size then
            ((removed replies[2]?.join).bind fun _ => .error (.sizeMismatch o.size size),
              (s.requests url bytes).take 3)
          else (.ok (), (s.requests url bytes).take 2) := by
  have hfirst : replies.head? = replies[0]? := List.head?_eq_getElem?
  have hsecond : replies.tail.head? = replies[1]? := by
    rw [List.head?_eq_getElem?, List.getElem?_tail]
  have hthird : replies.tail.tail.head? = replies[2]? := by
    rw [List.head?_eq_getElem?, List.getElem?_tail, List.getElem?_tail]
  rw [← hfirst, ← hsecond, ← hthird]
  unfold converse eval
  rw [run_put, h]
  simp only [exchange, judge, Program.run, Scripted.step]
  cases stored replies.head?.join with
  | error e => rfl
  | ok _ =>
    simp only [Program.run, Scripted.step]
    cases told o.oid replies.tail.head?.join with
    | error e => rfl
    | ok size =>
      simp only
      by_cases hsize : size ≠ o.size
      · simp only [if_pos hsize]
        rfl
      · simp only [if_neg hsize]
        rfl

/-! ### The protocol -/

/-- What is sent for an upload, and when, and what the upload comes to, by the replies. -/
structure Protocol (s : Store) (o : Object) (body : Body) (reply : Nat → Option Response)
    (outcome : Except Content.Error Unit) (sent : List Request) : Prop where
  /-- The requests go to the address of the object, none before the one that it follows. -/
  requests : sent = [] ∨
    ∃ url, s.Addresses o.oid url ∧ sent <+: s.requests url body.pieces.flatten
  /-- Nothing is sent but the content of the object. -/
  verified : sent ≠ [] → Genuine o body
  /-- The size is asked for once the bytes have been stored. -/
  asks : Sends sent .head ↔ Sends sent .put ∧ Succeeds (reply 0)
  /-- What has arrived in another size is removed. -/
  removes : Sends sent .delete ↔ Sends sent .head ∧ ∃ size, Tells (reply 1) size ∧ size ≠ o.size
  /-- An upload succeeds if it has arrived in the size of the object. -/
  succeeds : outcome = .ok () ↔
    Sends sent .put ∧ Succeeds (reply 0) ∧ Tells (reply 1) o.size
  /-- An upload has another size if it arrived in that and was removed, or if the body has it. -/
  mismatch : ∀ expected actual, outcome = .error (.sizeMismatch expected actual) ↔
    expected = o.size ∧
      ((Sends sent .delete ∧ Tells (reply 1) actual ∧ Clears (reply 2)) ∨
        (checkOid o.oid = .ok () ∧ body.failure = none ∧
          actual = body.pieces.flatten.length ∧ (body.pieces.flatten.length : Int) ≠ o.size))
  /-- Under an address that can be used everything that passes the checks is sent, to the key of the
  object. -/
  keyed : ∀ root, s.Usable root →
    (Sends sent .put ↔ Genuine o body) ∧ ∀ r ∈ sent, r.url = place root o.oid

/-- Nothing is sent for an upload that is refused. -/
theorem protocol_of_error {reply : Nat → Option Response} {e : Content.Error}
    (h : s.prepare o body = .error e) : Protocol s o body reply (.error e) [] := by
  have hsends : ∀ method, ¬ Sends [] method := fun _ ⟨_, hmem, _⟩ => absurd hmem List.not_mem_nil
  refine ⟨.inl rfl, fun hne => absurd rfl hne, ?_, ?_, ?_, fun expected actual => ?_,
    fun root hs => ⟨⟨fun hput => absurd hput (hsends _), fun hgenuine => ?_⟩, ?_⟩⟩
  · exact ⟨fun hhead => absurd hhead (hsends _), fun hput => absurd hput.1 (hsends _)⟩
  · exact ⟨fun hdelete => absurd hdelete (hsends _), fun hhead => absurd hhead.1 (hsends _)⟩
  · exact ⟨fun hok => (nomatch hok), fun hput => absurd hput.1 (hsends _)⟩
  · have hmismatch : s.prepare o body = .error (.sizeMismatch expected actual) ↔ _ :=
      prepare_eq_sizeMismatch_iff
    rw [h, Except.error.injEq] at hmismatch
    rw [Except.error.injEq, hmismatch]
    constructor
    · rintro ⟨hkey, hends, hexpected, hactual, hne⟩
      exact ⟨hexpected, .inr ⟨hkey, hends, hactual, hne⟩⟩
    · rintro ⟨hexpected, hdelete | ⟨hkey, hends, hactual, hne⟩⟩
      · exact absurd hdelete.1 (hsends _)
      · exact ⟨hkey, hends, hexpected, hactual, hne⟩
  · exact nomatch h.symm.trans (hs.prepare hgenuine)
  · exact fun r hr => absurd hr List.not_mem_nil

/-- Which requests are among the first ones. -/
theorem sends_take (s : Store) (url : Url) (bytes : Bytes) (k : Nat) :
    (Sends ((s.requests url bytes).take k) .put ↔ 0 < k) ∧
      (Sends ((s.requests url bytes).take k) .head ↔ 1 < k) ∧
      (Sends ((s.requests url bytes).take k) .delete ↔ 2 < k) := by
  unfold Sends requests
  match k with
  | 0 => simp
  | 1 => simp [request]
  | 2 => simp [request]
  | k + 3 => simp [request]

/-- The protocol of an upload that has been prepared, by how many requests are sent. -/
theorem protocol_of_ok {reply : Nat → Option Response} {url : Url} {bytes : Bytes} {k : Nat}
    {outcome : Except Content.Error Unit} (h : s.prepare o body = .ok (url, bytes)) (hk : 0 < k)
    (hasks : 1 < k ↔ Succeeds (reply 0))
    (hremoves : 2 < k ↔ 1 < k ∧ ∃ size, Tells (reply 1) size ∧ size ≠ o.size)
    (hsucceeds : outcome = .ok () ↔ Succeeds (reply 0) ∧ Tells (reply 1) o.size)
    (hmismatch : ∀ expected actual, outcome = .error (.sizeMismatch expected actual) ↔
      expected = o.size ∧ 2 < k ∧ Tells (reply 1) actual ∧ Clears (reply 2)) :
    Protocol s o body reply outcome ((s.requests url bytes).take k) := by
  obtain ⟨hgenuine, rfl, hurl, -⟩ := prepare_eq_ok_iff.mp h
  obtain ⟨hput, hhead, hdelete⟩ := s.sends_take url body.pieces.flatten k
  refine ⟨.inr ⟨url, hurl, List.take_prefix _ _⟩, fun _ => hgenuine, ?_, ?_, ?_,
    fun expected actual => ?_, fun root hs => ⟨?_, fun r hr => ?_⟩⟩
  · rw [hhead, hput, hasks]
    exact (and_iff_right hk).symm
  · rw [hdelete, hhead]
    exact hremoves
  · rw [hput, hsucceeds]
    exact (and_iff_right hk).symm
  · rw [hmismatch, hdelete]
    refine and_congr_right fun _ => ⟨.inl, fun hcases => hcases.elim id fun hlength => ?_⟩
    exact absurd hgenuine.size hlength.2.2.2
  · rw [hput]
    exact iff_of_true hk hgenuine
  · obtain rfl : url = place root o.oid :=
      (Prod.mk.inj (Except.ok.inj (h.symm.trans (hs.prepare hgenuine)))).1
    have hmem := List.mem_of_mem_take hr
    unfold requests request at hmem
    simp only [List.mem_cons, List.not_mem_nil, or_false] at hmem
    rcases hmem with rfl | rfl | rfl <;> rfl

section

variable {reply : Nat → Option Response} {url : Url} {bytes : Bytes} {e : Content.Error}
  {size : Int} (h : s.prepare o body = .ok (url, bytes))

include h

/-- Bytes that are not stored are not asked for. -/
theorem protocol_of_unstored (hstored : stored (reply 0) = .error e) :
    Protocol s o body reply (.error e) ((s.requests url bytes).take 1) := by
  have hfails : ¬ Succeeds (reply 0) := fun hs =>
    nomatch hstored.symm.trans (stored_eq_ok_iff.mpr hs)
  obtain ⟨why, rfl⟩ := backend_of_reply o.oid (.inl hstored)
  refine protocol_of_ok h (by decide) ?_ ?_ ?_ fun expected actual => ?_
  · exact iff_of_false (by decide) hfails
  · exact iff_of_false (by decide) fun hs => absurd hs.1 (by decide)
  · exact iff_of_false (by simp) fun hs => hfails hs.1
  · exact iff_of_false (by simp) fun hs => absurd hs.2.1 (by decide)

variable (hstored : stored (reply 0) = .ok ())

include hstored

/-- What the size of is not told is not removed. -/
theorem protocol_of_untold (htold : told o.oid (reply 1) = .error e) :
    Protocol s o body reply (.error e) ((s.requests url bytes).take 2) := by
  have hfails : ∀ size, ¬ Tells (reply 1) size := fun size hs =>
    nomatch htold.symm.trans (told_eq_ok_iff.mpr hs)
  obtain ⟨why, rfl⟩ := backend_of_reply o.oid (.inr (.inl htold))
  refine protocol_of_ok h (by decide) ?_ ?_ ?_ fun expected actual => ?_
  · exact iff_of_true (by decide) (stored_eq_ok_iff.mp hstored)
  · exact iff_of_false (by decide) fun ⟨_, size, htells, _⟩ => hfails size htells
  · exact iff_of_false (by simp) fun hs => hfails _ hs.2
  · exact iff_of_false (by simp) fun hs => absurd hs.2.1 (by decide)

/-- What has arrived in the size of the object stays. -/
theorem protocol_of_agreed (htold : told o.oid (reply 1) = .ok o.size) :
    Protocol s o body reply (.ok ()) ((s.requests url bytes).take 2) := by
  have htells : Tells (reply 1) o.size := told_eq_ok_iff.mp htold
  refine protocol_of_ok h (by decide) ?_ ?_ ?_ fun expected actual => ?_
  · exact iff_of_true (by decide) (stored_eq_ok_iff.mp hstored)
  · exact iff_of_false (by decide) fun ⟨_, size, hs, hne⟩ => hne (hs.unique htells)
  · exact iff_of_true rfl ⟨stored_eq_ok_iff.mp hstored, htells⟩
  · exact iff_of_false (by simp) fun hs => absurd hs.2.1 (by decide)

/-- What has arrived in another size is removed, which may fail. -/
theorem protocol_of_differing (htold : told o.oid (reply 1) = .ok size) (hsize : size ≠ o.size) :
    Protocol s o body reply
      ((removed (reply 2)).bind fun _ => .error (.sizeMismatch o.size size))
      ((s.requests url bytes).take 3) := by
  have htells : Tells (reply 1) size := told_eq_ok_iff.mp htold
  refine protocol_of_ok h (by decide) ?_ ?_ ?_ fun expected actual => ?_
  · exact iff_of_true (by decide) (stored_eq_ok_iff.mp hstored)
  · exact iff_of_true (by decide) ⟨by decide, size, htells, hsize⟩
  · obtain ⟨e, he⟩ := fails_after_removal (reply 2) (.sizeMismatch o.size size)
    rw [he]
    exact iff_of_false (by simp) fun hs => hsize (htells.unique hs.2)
  · cases hremoved : removed (reply 2) with
    | error e =>
      have hfails : ¬ Clears (reply 2) := fun hs =>
        nomatch hremoved.symm.trans (removed_eq_ok_iff.mpr hs)
      obtain ⟨why, rfl⟩ := backend_of_reply o.oid (.inr (.inr hremoved))
      exact iff_of_false (by simp [Except.bind]) fun hs => hfails hs.2.2.2
    | ok _ =>
      constructor
      · intro hmismatch
        obtain ⟨rfl, rfl⟩ := Content.Error.sizeMismatch.inj (Except.error.inj hmismatch)
        exact ⟨rfl, by decide, htells, removed_eq_ok_iff.mp hremoved⟩
      · rintro ⟨rfl, -, hactual, -⟩
        rw [hactual.unique htells]
        rfl

end

/-- **The protocol of an upload.** For every upload and whatever replies the service gives, the
requests are the beginning of one with all the bytes, one for their number and one for the removal;
the replies tell how many of them are sent and what the upload comes to. -/
theorem put_protocol (s : Store) (o : Object) (body : Body) (replies : List (Option Response)) :
    Protocol s o body (fun i => replies[i]?.join) (s.converse o body replies).1
      (s.converse o body replies).2 := by
  cases hprepare : s.prepare o body with
  | error e =>
    rw [converse_of_error hprepare]
    exact protocol_of_error hprepare
  | ok prepared =>
    obtain ⟨url, bytes⟩ := prepared
    rw [converse_of_ok hprepare]
    cases hstored : stored replies[0]?.join with
    | error e => exact protocol_of_unstored hprepare hstored
    | ok _ =>
      cases htold : told o.oid replies[1]?.join with
      | error e => exact protocol_of_untold hprepare hstored htold
      | ok size =>
        by_cases hsize : size = o.size
        · subst hsize
          simp only [ne_eq, not_true_eq_false, if_false]
          exact protocol_of_agreed hprepare hstored htold
        · simp only [ne_eq, hsize, not_false_eq_true, if_true]
          exact protocol_of_differing hprepare hstored htold hsize

end Store

end Depot.Bucket
