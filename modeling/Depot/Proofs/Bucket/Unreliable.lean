import Depot.Proofs.Bucket.Protocol
import Depot.Proofs.Contents

/-!
# Uploads to an unreliable service

A service may refuse any request, and may keep fewer bytes than an upload sent. An upload makes up
for the second with a removal, which the service may refuse too, and it has nothing to make up for
the first with. So an upload that fails leaves its key as it was or empty, but for two cases: the
bytes were stored and the question for their number was refused, or they were cut short and their
removal was refused. Then the bytes stay under the key.

Headlines
* **`Unreliable.ends_exchange`**: how an upload can end, by what becomes of its requests.
* **`Store.failed_put_leaves`**: what a failed upload leaves under its key, and when that is what
  was there or nothing.
* `Store.failed_put_stays`: an upload that fails and leaves its bytes.
-/

namespace Depot.Bucket

open Content (Body)
open Registry (Object)

/-! ### The service -/

/-- What becomes of a request. -/
inductive Fate where
  /-- It is served, but the last of the bytes that it sends are lost. -/
  | served (lost : Nat)
  /-- It is answered with an error, and nothing is done. -/
  | refused (status : Nat) (h : 400 ≤ status ∧ status < 600)

/-- A service that keeps bytes under paths, and what becomes of the requests to come. -/
structure Unreliable where
  /-- The bytes. -/
  kept : Kept
  /-- The fates of the requests, one after another. -/
  fates : Nat → Fate

/-- What is left of bytes when the last of them are lost. -/
def cutShort (lost : Nat) (bytes : Bytes) : Bytes := bytes.take (bytes.length - lost)

namespace Unreliable

/-- The reply to a request that is served. -/
def serve (kept : Kept) (r : Request) : Response :=
  match r.method, kept r.url.path with
  | .put, _ => ⟨200, some "0", some []⟩
  | .delete, _ => ⟨204, none, some []⟩
  | .head, some bytes => ⟨200, some (toString bytes.length), some []⟩
  | .get, some bytes => ⟨200, some (toString bytes.length), some bytes⟩
  | .head, none | .get, none => ⟨404, some "0", some []⟩

/-- The service after a request, if it keeps something else then. -/
def after (n : Unreliable) (kept : Kept) : Unreliable := ⟨kept, fun i => n.fates (i + 1)⟩

/-- The reply to a request, and the service after it. -/
def step (n : Unreliable) (r : Request) : Reply r × Unreliable :=
  match n.fates 0 with
  | .served lost =>
    (some (serve n.kept r), n.after ({ r with body := r.body.map (cutShort lost) }.leaves n.kept))
  | .refused status _ => (some ⟨status, some "0", some []⟩, n.after n.kept)

/-- How the judgment on stored bytes can end, which are kept under a path and agree with their
object or do not: the outcome, and what is kept then. -/
inductive Judged (n : Unreliable) (path : String) (agrees : Prop) :
    Except Content.Error Unit → Kept → Prop
  /-- The question for their number was refused. -/
  | unasked {status : Nat} {h : 400 ≤ status ∧ status < 600} (hhead : n.fates 0 = .refused status h)
      (e : Content.Error) : Judged n path agrees (.error e) n.kept
  /-- They agree. -/
  | right {lost : Nat} (hhead : n.fates 0 = .served lost) (hagrees : agrees) :
      Judged n path agrees (.ok ()) n.kept
  /-- They do not, and were removed. -/
  | undone {lost lost' : Nat} (hhead : n.fates 0 = .served lost) (hagrees : ¬ agrees)
      (hdelete : n.fates 1 = .served lost') (e : Content.Error) :
      Judged n path agrees (.error e) (Function.update n.kept path none)
  /-- They do not, and their removal was refused. -/
  | left {lost status : Nat} {h : 400 ≤ status ∧ status < 600} (hhead : n.fates 0 = .served lost)
      (hagrees : ¬ agrees) (hdelete : n.fates 1 = .refused status h) (e : Content.Error) :
      Judged n path agrees (.error e) n.kept

/-- How an upload of bytes to a path can end. -/
inductive Ends (n : Unreliable) (path : String) (bytes : Bytes) :
    Except Content.Error Unit → Kept → Prop
  /-- The bytes were refused. -/
  | rejected {status : Nat} {h : 400 ≤ status ∧ status < 600} (hput : n.fates 0 = .refused status h)
      (e : Content.Error) : Ends n path bytes (.error e) n.kept
  /-- They were stored, if not all of them, and judged. -/
  | judged {lost : Nat} {outcome : Except Content.Error Unit} {kept : Kept}
      (hput : n.fates 0 = .served lost)
      (h : (n.after (Function.update n.kept path (some (cutShort lost bytes)))).Judged path
        ((cutShort lost bytes).length = bytes.length) outcome kept) : Ends n path bytes outcome kept

variable {n : Unreliable} {s : Store} {o : Object}

theorem step_of_served {lost : Nat} (h : n.fates 0 = .served lost) (r : Request) :
    n.step r = (some (serve n.kept r),
      n.after ({ r with body := r.body.map (cutShort lost) }.leaves n.kept)) := by
  unfold step
  rw [h]

theorem step_of_refused {status : Nat} {hstatus : 400 ≤ status ∧ status < 600}
    (h : n.fates 0 = .refused status hstatus) (r : Request) :
    n.step r = (some ⟨status, some "0", some []⟩, n.after n.kept) := by
  unfold step
  rw [h]

/-- An error is no success. -/
theorem isSuccess_of_error {status : Nat} (h : 400 ≤ status ∧ status < 600) :
    isSuccess status = false := by
  unfold isSuccess
  simp
  omega

/-- A refused question tells no size. -/
theorem told_of_refused {status : Nat} (h : 400 ≤ status ∧ status < 600) (oid : String) :
    ∃ e, told oid (some ⟨status, some "0", some []⟩) = .error e := by
  unfold told
  by_cases h404 : status = 404
  · exact ⟨_, if_pos h404⟩
  · simp [h404, isSuccess_of_error h]

/-- A question that is served tells how many bytes there are. -/
theorem told_of_served {r : Request} {kept : Kept} {bytes : Bytes} (hmethod : r.method = .head)
    (hkept : kept r.url.path = some bytes) (hfits : Text.fitsInt64 bytes.length = true)
    (oid : String) : told oid (some (serve kept r)) = .ok (bytes.length : Int) := by
  unfold serve
  rw [hmethod, hkept]
  exact told_eq_ok_iff.mpr ⟨_, rfl, rfl, Text.int64?_toString hfits⟩

theorem fitsInt64_cutShort {lost : Nat} {bytes : Bytes} (h : Text.fitsInt64 bytes.length = true) :
    Text.fitsInt64 (cutShort lost bytes).length = true := by
  unfold Text.fitsInt64 cutShort at *
  rw [List.length_take]
  simp at h ⊢
  omega

/-- **Stored bytes are judged** by their number. -/
theorem judged_judge {url : Url} {bytes : Bytes} {agrees : Prop}
    (hkept : n.kept url.path = some bytes) (hfits : Text.fitsInt64 bytes.length = true)
    (hagrees : agrees ↔ (bytes.length : Int) = o.size) :
    n.Judged url.path agrees (Program.run step (s.judge o url) n).1
      (Program.run step (s.judge o url) n).2.kept := by
  unfold Store.judge
  cases hhead : n.fates 0 with
  | refused status hstatus =>
    obtain ⟨e, he⟩ := told_of_refused hstatus o.oid
    simp only [Program.run, step_of_refused hhead, he]
    exact .unasked hhead e
  | served lost =>
    have htold := told_of_served (r := s.request .head url none false) rfl hkept hfits o.oid
    simp only [Program.run, step_of_served hhead, htold]
    by_cases hsize : (bytes.length : Int) = o.size
    · simp only [if_neg (not_not.mpr hsize)]
      exact .right hhead (hagrees.mpr hsize)
    · simp only [if_pos hsize]
      have hne : ¬ agrees := fun h => hsize (hagrees.mp h)
      cases hdelete : n.fates 1 with
      | served lost' =>
        have hnext : ∀ kept, (n.after kept).fates 0 = .served lost' := fun _ => hdelete
        simp only [Program.run, step_of_served (hnext _)]
        exact .undone hhead hne hdelete _
      | refused status hstatus =>
        have hnext : ∀ kept, (n.after kept).fates 0 = .refused status hstatus := fun _ => hdelete
        obtain ⟨e, he⟩ := fails_after_removal (some ⟨status, some "0", some []⟩)
          (.sizeMismatch o.size bytes.length)
        simp only [Program.run, step_of_refused (hnext _), he]
        exact .left hhead hne hdelete e

/-- **An exchange is rejected, or its bytes are judged.** -/
theorem ends_exchange (url : Url) {bytes : Bytes} (hlength : (bytes.length : Int) = o.size)
    (hfits : Text.fitsInt64 o.size = true) :
    n.Ends url.path bytes (Program.run step (s.exchange o url bytes) n).1
      (Program.run step (s.exchange o url bytes) n).2.kept := by
  unfold Store.exchange
  cases hput : n.fates 0 with
  | refused status hstatus =>
    simp only [Program.run, step_of_refused hput, stored, isSuccess_of_error hstatus]
    exact .rejected hput _
  | served lost =>
    simp only [Program.run, step_of_served hput]
    refine .judged hput (judged_judge (Function.update_self ..) ?_ ?_)
    · exact fitsInt64_cutShort (hlength ▸ hfits)
    · rw [← hlength]
      exact Int.natCast_inj.symm

end Unreliable

namespace Store

variable {s : Store} {o : Object} {body : Body} {n : Unreliable}

/-- What of an upload stays where it is though the upload has failed: what was stored of it, if the
question for its size was refused, or the removal of what was cut short. -/
def stranded (s : Store) (o : Object) (body : Body) (n : Unreliable) : Option Bytes :=
  match s.prepare o body, n.fates 0, n.fates 1, n.fates 2 with
  | .ok (_, bytes), .served lost, .refused _ _, _ => some (cutShort lost bytes)
  | .ok (_, bytes), .served lost, .served _, .refused _ _ =>
    if (cutShort lost bytes).length = bytes.length then none else some (cutShort lost bytes)
  | _, _, _, _ => none

/-- What a failed upload leaves: everything as it was, its key empty, or what is stranded there. -/
theorem failed_put_cases (hfits : Text.fitsInt64 o.size = true) {e : Content.Error}
    (h : (eval Unreliable.step (s.put o body) n).1 = .error e) :
    (s.stranded o body n = none ∧ (eval Unreliable.step (s.put o body) n).2.kept = n.kept) ∨
      ∃ url, s.Addresses o.oid url ∧
        (eval Unreliable.step (s.put o body) n).2.kept =
          Function.update n.kept url.path (s.stranded o body n) := by
  unfold eval at h ⊢
  rw [run_put] at h ⊢
  unfold stranded
  cases hprepare : s.prepare o body with
  | error e => exact .inl ⟨rfl, rfl⟩
  | ok prepared =>
    obtain ⟨url, bytes⟩ := prepared
    obtain ⟨hgenuine, rfl, haddress, -⟩ := prepare_eq_ok_iff.mp hprepare
    have hends := Unreliable.ends_exchange (n := n) (s := s) url hgenuine.size hfits
    rw [hprepare] at h
    simp only at h ⊢
    rw [h] at hends
    generalize (Program.run Unreliable.step
      (s.exchange o url body.pieces.flatten) n).2.kept = kept at hends
    cases hends with
    | rejected hput =>
      rw [hput]
      exact .inl ⟨rfl, rfl⟩
    | judged hput hjudged =>
      rw [hput]
      refine .inr ⟨url, haddress, ?_⟩
      cases hjudged with
      | unasked hhead =>
        have hasked : n.fates 1 = .refused _ _ := hhead
        rw [hasked]
        rfl
      | undone hhead hagrees hdelete =>
        have hasked : n.fates 1 = .served _ := hhead
        have hremoved : n.fates 2 = .served _ := hdelete
        rw [hasked, hremoved]
        exact Function.update_idem ..
      | left hhead hagrees hdelete =>
        have hasked : n.fates 1 = .served _ := hhead
        have hremoved : n.fates 2 = .refused _ _ := hdelete
        rw [hasked, hremoved]
        exact congrArg (Function.update n.kept url.path) (if_neg hagrees).symm

/-- **What a failed upload leaves.** It changes nothing but the key of its object. What is there
then is what was there before or nothing, unless bytes were stored that the service did not let the
upload count or remove; those stay. -/
theorem failed_put_leaves (hfits : Text.fitsInt64 o.size = true) {e : Content.Error}
    (h : (eval Unreliable.step (s.put o body) n).1 = .error e) :
    let kept := (eval Unreliable.step (s.put o body) n).2.kept
    (∀ path, (∀ url, s.Addresses o.oid url → path ≠ url.path) → kept path = n.kept path) ∧
      ∀ url, s.Addresses o.oid url →
        (∀ bytes, s.stranded o body n = some bytes → kept url.path = some bytes) ∧
        ((kept url.path = n.kept url.path ∨ kept url.path = none) ↔
          ∀ bytes, s.stranded o body n = some bytes → n.kept url.path = some bytes) := by
  intro kept
  obtain ⟨hnone, hkept⟩ | ⟨url, haddress, hkept⟩ := failed_put_cases hfits h
  · rw [hnone]
    refine ⟨fun path _ => congrFun hkept path, fun url _ => ⟨fun _ h => (nomatch h), ?_⟩⟩
    exact iff_of_true (.inl (congrFun hkept url.path)) fun _ h => (nomatch h)
  · refine ⟨fun path hpath => ?_, fun url' haddress' => ?_⟩
    · exact (congrFun hkept path).trans (Function.update_of_ne (hpath url haddress) _ _)
    · obtain rfl : url' = url := Except.ok.inj (haddress'.symm.trans haddress)
      have hthere : kept url'.path = s.stranded o body n :=
        (congrFun hkept _).trans (Function.update_self ..)
      rw [hthere]
      refine ⟨fun _ => id, ?_⟩
      cases s.stranded o body n with
      | none => exact iff_of_true (.inr rfl) fun _ h => (nomatch h)
      | some bytes =>
        constructor
        · rintro (hsame | hempty) bytes' h'
          · exact hsame.symm.trans h'
          · exact nomatch hempty
        · exact fun hsame => .inl (hsame bytes rfl).symm

/-! ### An upload that stays -/

/-- A service that keeps nothing, and refuses to say how much it has stored. -/
def secretive : Unreliable where
  kept _ := none
  fates i := if i = 1 then .refused 500 (by decide) else .served 0

/-- The content of an object. -/
def wholeBody : Body := ⟨[[97, 98, 99]], none⟩

theorem wholeBody_genuine : Genuine Files.abc wholeBody where
  key := Content.checkOid_of_isDigest (by decide +kernel)
  ends := rfl
  size := rfl
  digest := by decide +kernel

/-- The upload fails, since it cannot find out the size of what it has stored. -/
theorem eval_put_secretive :
    (∃ e, (eval Unreliable.step (Content.nearby.put Files.abc wholeBody) secretive).1 = .error e) ∧
      (eval Unreliable.step (Content.nearby.put Files.abc wholeBody) secretive).2.kept =
        Function.update secretive.kept (place Content.nearbyRoot Files.abc.oid).path
          (some [97, 98, 99]) := by
  unfold eval
  rw [run_put, Content.nearby_usable.prepare wholeBody_genuine]
  exact ⟨⟨_, rfl⟩, rfl⟩

/-- An upload that fails may leave its content under the key of its object, where nothing was
before. -/
theorem failed_put_stays :
    (∃ e, (eval Unreliable.step (Content.nearby.put Files.abc wholeBody) secretive).1 = .error e) ∧
      secretive.kept (place Content.nearbyRoot Files.abc.oid).path = none ∧
      (eval Unreliable.step (Content.nearby.put Files.abc wholeBody) secretive).2.kept
        (place Content.nearbyRoot Files.abc.oid).path = some [97, 98, 99] := by
  obtain ⟨hfails, hkept⟩ := eval_put_secretive
  exact ⟨hfails, rfl, (congrFun hkept _).trans (Function.update_self ..)⟩

/-- What stays is what is stranded, and neither what was there before nor nothing. -/
theorem secretive_strands :
    ∃ e, (eval Unreliable.step (Content.nearby.put Files.abc wholeBody) secretive).1 = .error e ∧
      Text.fitsInt64 Files.abc.size = true ∧
      Content.nearby.Addresses Files.abc.oid (place Content.nearbyRoot Files.abc.oid) ∧
      Content.nearby.stranded Files.abc wholeBody secretive = some [97, 98, 99] ∧
      ¬ ((eval Unreliable.step (Content.nearby.put Files.abc wholeBody) secretive).2.kept
            (place Content.nearbyRoot Files.abc.oid).path = none) := by
  obtain ⟨⟨e, he⟩, -⟩ := eval_put_secretive
  have hfits : Text.fitsInt64 Files.abc.size = true := by decide
  have hprepare := Content.nearby_usable.prepare wholeBody_genuine
  obtain ⟨-, -, haddress, -⟩ := prepare_eq_ok_iff.mp hprepare
  have hstranded : Content.nearby.stranded Files.abc wholeBody secretive = some [97, 98, 99] := by
    unfold stranded
    rw [hprepare]
    rfl
  obtain ⟨-, hleaves⟩ := failed_put_leaves hfits he
  have hstays := (hleaves _ haddress).1 _ hstranded
  exact ⟨e, he, hfits, haddress, hstranded, fun hnone => nomatch hstays.symm.trans hnone⟩

end Store

end Depot.Bucket
