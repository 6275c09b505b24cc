import Depot.Proofs.Audit
import Depot.Proofs.Concordance
import Depot.Proofs.Registry.Lifecycle

/-!
# Records and content in step

A registry of any kind and files that hold the content of its objects are used side by side: objects
are registered, their content is uploaded, right or wrong or broken off, and they are committed once
an upload has succeeded. Whatever comes of the single calls, the content of every committed object is
there and is the object's.

Headlines
* `Accounted` is what such calls keep; **`Reached.accounted`** that they do.
* **`audit_finds_nothing_wrong`**: an audit at any time checks every committed object and finds
  nothing missing or corrupt.
-/

namespace Depot

open Content (Body)
open Credential (Gate)
open Registry (Ledger Object Operation Outcome)

/-- A registry and the files beside it. -/
structure Site where
  /-- The registry. -/
  records : Backend
  /-- The files. -/
  files : Files.Tree

namespace Site

/-- A call at a site. -/
inductive Call where
  /-- An operation of the registry. -/
  | ask (op : Operation)
  /-- An upload of the content of an object under a name of its own. -/
  | upload (o : Object) (body : Body) (token : String)

/-- A call that has been made, and what came of it. -/
inductive Event where
  /-- An operation of the registry. -/
  | asked (op : Operation) (outcome : Outcome)
  /-- An upload of the content of an object. -/
  | uploaded (o : Object) (outcome : Except Content.Error Unit)

variable (gate : Gate) (base : Files.Path)

/-- What comes of a call, and the site after it. The content is kept below `base`. -/
def perform (s : Site) : Call → Event × Site
  | .ask op =>
    let (outcome, records) := s.records.perform gate op
    (.asked op outcome, { s with records := records })
  | .upload o body token =>
    let (outcome, files) := Files.eval (Files.put base token o body) s.files
    (.uploaded o outcome, { s with files := files })

theorem perform_ask (s : Site) (op : Operation) :
    s.perform gate base (.ask op) =
      (.asked op (s.records.perform gate op).1, ⟨(s.records.perform gate op).2, s.files⟩) := rfl

theorem perform_upload (s : Site) (o : Object) (body : Body) (token : String) :
    s.perform gate base (.upload o body token) =
      (.uploaded o (Files.eval (Files.put base token o body) s.files).1,
        ⟨s.records, (Files.eval (Files.put base token o body) s.files).2⟩) := rfl

/-- Whether a call may be made after what has happened: an upload gives the object as the registry
has told it, an object is committed once an upload of it has succeeded, and the registry stays open.
The sizes of requests have 64 bits. -/
def Orderly (past : List Event) : Call → Prop
  | .ask op => op ≠ .close ∧ (∀ r, op = .put r → Text.fitsInt64 r.size = true) ∧
    ∀ r, op = .commit r → ∃ o, .uploaded o (.ok ()) ∈ past ∧ o.oid = r.oid
  | .upload o _ _ => ∃ op, .asked op (.ok (.object o)) ∈ past

/-- What has happened and the site after it, from a start on and by calls that may be made. The
records of an embedded database take less than four gibibytes each. -/
inductive Reached (start : Site) : List Event → Site → Prop
  /-- Nothing has happened. -/
  | start : Reached start [] start
  /-- One more call is made. -/
  | call {past : List Event} {s : Site} (h : Reached start past s) (c : Call)
    (hc : Orderly past c) (hroom : (s.perform gate base c).2.records.HasRoom) :
    Reached start (past ++ [(s.perform gate base c).1]) (s.perform gate base c).2

/-! ### What is kept -/

variable {gate base} {past : List Event} {l : Ledger} {files : Files.Tree}

/-- What has happened is accounted for by the ledger and the files. -/
structure Accounted (base : Files.Path) (past : List Event) (l : Ledger) (files : Files.Tree) :
    Prop where
  /-- An object that the registry has told is recorded with that size. -/
  told : ∀ {op o}, .asked op (.ok (.object o)) ∈ past →
    ∃ st, l.standing o.oid = some st ∧ st.size = o.size
  /-- An object of which an upload has succeeded is recorded, and content of that size is stored. -/
  stored : ∀ {o}, .uploaded o (.ok ()) ∈ past →
    ∃ st, l.standing o.oid = some st ∧ Files.Holds base o.oid st.size files
  /-- Of an object that is committed an upload has succeeded. -/
  committed : ∀ {oid st}, l.standing oid = some st → st.existing = true →
    ∃ o, .uploaded o (.ok ()) ∈ past ∧ o.oid = oid

theorem accounted_empty (base : Files.Path) (files : Files.Tree) :
    Accounted base [] Ledger.empty files where
  told h := absurd h List.not_mem_nil
  stored h := absurd h List.not_mem_nil
  committed h := absurd h (by simp [Ledger.standing, Ledger.empty, EmptyCollection.emptyCollection])

/-- An operation of the registry is accounted for. -/
theorem Accounted.ask (h : Accounted base past l files) (gate : Gate) {op : Operation}
    (hop : Orderly past (.ask op)) :
    Accounted base (past ++ [.asked op (l.perform gate op).1]) (l.perform gate op).2 files := by
  obtain ⟨-, -, hcommit⟩ := hop
  have hpass := l.perform_passes gate op
  refine ⟨fun {op' o} htold => ?_, fun {o} hstored => ?_, fun {oid st} hst hex => ?_⟩
  · rcases List.mem_append.mp htold with hbefore | hnow
    · obtain ⟨st, hst, hsize⟩ := h.told hbefore
      obtain ⟨st', hst', hsize', -⟩ := (hpass o.oid).stays st hst
      exact ⟨st', hst', hsize'.trans hsize⟩
    · obtain ⟨-, hanswer⟩ := Event.asked.inj (List.mem_singleton.mp hnow)
      exact ⟨_, Ledger.standing_of_find (l.perform_answers gate op o hanswer.symm), rfl⟩
  · rcases List.mem_append.mp hstored with hbefore | hnow
    · obtain ⟨st, hst, hholds⟩ := h.stored hbefore
      obtain ⟨st', hst', hsize, -⟩ := (hpass o.oid).stays st hst
      exact ⟨st', hst', hsize ▸ hholds⟩
    · exact absurd (List.mem_singleton.mp hnow) (by simp)
  · have hpast : ∃ o, .uploaded o (.ok ()) ∈ past ∧ o.oid = oid := by
      have hpass := hpass oid
      rw [hst] at hpass
      generalize hbefore : l.standing oid = before at hpass
      cases hpass with
      | stay => exact h.committed hbefore hex
      | record r hop hoid => exact absurd hex (by simp)
      | mark r st hop hoid =>
        obtain ⟨o, ho, hoid'⟩ := hcommit r hop
        exact ⟨o, ho, hoid'.trans hoid⟩
    obtain ⟨o, ho, hoid⟩ := hpast
    exact ⟨o, List.mem_append_left _ ho, hoid⟩

/-- An upload is accounted for, whatever comes of it. -/
theorem Accounted.upload (h : Accounted base past l files) {o : Object} (body : Body)
    (token : String) (ho : Orderly past (.upload o body token)) :
    Accounted base (past ++ [.uploaded o (Files.eval (Files.put base token o body) files).1]) l
      (Files.eval (Files.put base token o body) files).2 := by
  obtain ⟨op, htold⟩ := ho
  obtain ⟨st, hst, hsize⟩ := h.told htold
  refine ⟨fun {op' o'} htold' => ?_, fun {o'} hstored => ?_, fun {oid st'} hst' hex => ?_⟩
  · rcases List.mem_append.mp htold' with hbefore | hnow
    · exact h.told hbefore
    · exact absurd (List.mem_singleton.mp hnow) (by simp)
  · rcases List.mem_append.mp hstored with hbefore | hnow
    · obtain ⟨st', hst', hholds⟩ := h.stored hbefore
      refine ⟨st', hst', hholds.put fun hoid => ?_⟩
      rw [← hoid, hst] at hst'
      cases hst'
      exact hsize.symm
    · obtain ⟨rfl, hok⟩ := Event.uploaded.inj (List.mem_singleton.mp hnow)
      refine ⟨st, hst, ?_⟩
      rw [hsize]
      exact Files.holds_of_put_ok (Prod.ext hok.symm rfl)
  · obtain ⟨o', ho', hoid⟩ := h.committed hst' hex
    exact ⟨o', List.mem_append_left _ ho', hoid⟩

/-- **Whatever has happened is accounted for** by a ledger that the registry holds. -/
theorem Reached.accounted {start s : Site} (h : Reached gate base start past s)
    (hholds : start.records.Holds Ledger.empty) (hroom : start.records.HasRoom) :
    s.records.HasRoom ∧ ∃ l, s.records.Holds l ∧ Accounted base past l s.files := by
  induction h with
  | start => exact ⟨hroom, Ledger.empty, hholds, accounted_empty base start.files⟩
  | @call past s _ c hc hroom' ih =>
    refine ⟨hroom', ?_⟩
    obtain ⟨hs, l, hl, haccounted⟩ := ih
    cases c with
    | upload o body token => exact ⟨l, hl, haccounted.upload body token hc⟩
    | ask op =>
      obtain ⟨hopen, hsize, -⟩ := id hc
      obtain ⟨houtcome, hl'⟩ := Backend.perform_holds gate hl hs hopen hsize
      refine ⟨(l.perform gate op).2, hl', ?_⟩
      rw [perform_ask, houtcome]
      exact haccounted.ask gate hc

/-! ### The audit -/

/-- **An audit at any time finds nothing wrong**: from new storage of any kind on, and whatever files
there are at first, it checks every committed object. -/
theorem audit_finds_nothing_wrong {b : Backend} (hb : b.New) {start : Files.Tree}
     {s : Site} (h : Reached gate base ⟨b, start⟩ past s) :
    ∃ objects, (s.records.perform gate .objects).1 = .ok (.objects objects) ∧
      ∀ state : Command.State, state.world.disk.files = s.files →
        ((Command.auditAll s.records gate (.files base)).run state).1 =
          .ok { checked := objects.length, missing := [], corrupt := [], errors := 0,
                unsupported := 0 } := by
  obtain ⟨hroom, l, hl, haccounted⟩ := h.accounted hb.holds hb.hasRoom
  have hlisted : (s.records.perform gate .objects).1 = .ok (.objects l.objectList) :=
    (Backend.perform_holds gate hl hroom (by simp) (by simp)).1
  refine ⟨l.objectList, hlisted, fun state hstate => ?_⟩
  have hholds : ∀ o ∈ l.objectList, Files.Holds base o.oid o.size state.world.disk.files := by
    intro o ho
    obtain ⟨hfind, hex⟩ := Ledger.find_of_mem_objectList ho
    have hst := Ledger.standing_of_find hfind
    obtain ⟨o', ho', hoid⟩ := haccounted.committed hst hex
    obtain ⟨st, hst', hfile⟩ := haccounted.stored ho'
    rw [hoid, hst] at hst'
    cases hst'
    rw [hstate, ← hoid]
    exact hfile
  obtain ⟨events, haudit⟩ := Command.auditAll_of_holds hlisted hholds
  exact congrArg Prod.fst haudit

/-! ### Orderly calls -/

/-- What a registry tells of an object may be uploaded, rightly or not, and once that has succeeded
the object may be committed. -/
theorem reached_commitment {b : Backend} {r : Registry.Request} {o : Object} (attempt body : Body)
    {token token' : String} (hsize : Text.fitsInt64 r.size = true)
    (hput : (b.perform gate (.put r)).1 = .ok (.object o)) (hoid : o.oid = r.oid)
    (hupload : (Files.eval (Files.put base token' o body)
      (Files.eval (Files.put base token o attempt) files).2).1 = .ok ())
    (hroom : (b.perform gate (.put r)).2.HasRoom)
    (hroom' : ((b.perform gate (.put r)).2.perform gate (.commit r)).2.HasRoom) :
    ∃ past files', Reached gate base ⟨b, files⟩ past
      ⟨((b.perform gate (.put r)).2.perform gate (.commit r)).2, files'⟩ := by
  have hstart : Reached gate base ⟨b, files⟩ [] ⟨b, files⟩ := .start
  have hregister := hstart.call (.ask (.put r))
    ⟨by simp, fun q hq => by cases hq; exact hsize, by simp⟩ hroom
  rw [perform_ask, hput] at hregister
  have hattempt := hregister.call (.upload o attempt token) ⟨.put r, by simp⟩ hroom
  rw [perform_upload] at hattempt
  have hstore := hattempt.call (.upload o body token') ⟨.put r, by simp⟩ hroom
  rw [perform_upload, hupload] at hstore
  have hcommit := hstore.call (.ask (.commit r))
    ⟨by simp, by simp, fun q hq => by cases hq; exact ⟨o, by simp, hoid⟩⟩ hroom'
  rw [perform_ask] at hcommit
  exact ⟨_, _, hcommit⟩

/-- An object of three letters. -/
def letters : Registry.Request where
  oid := "ba7816bf8f01cfea414140de5dae2223b00361a396177a9cb410ff61f20015ad"
  size := 3
  repo := "books"

set_option maxRecDepth 100000 in
theorem letters_registered : ((Backend.embedded {}).perform .everyone (.put letters)).1 =
    .ok (.object letters.pendingObject) := by
  rfl

set_option maxRecDepth 100000 in
theorem letters_listed : ((((Backend.embedded {}).perform .everyone (.put letters)).2.perform
    .everyone (.commit letters)).2.perform .everyone .objects).1 =
      .ok (.objects [{ letters.pendingObject with existing := true }]) := by
  rfl

/-- Other letters are not the object's content, but the right ones are, in whatever pieces. -/
theorem letters_uploaded :
    (Files.eval (Files.put ["content"] "2" letters.pendingObject ⟨[[97], [98, 99]], none⟩)
      (Files.eval (Files.put ["content"] "1" letters.pendingObject ⟨[[99, 98, 97]], none⟩)
        {}).2).1 = .ok () := by
  have hok : (Files.eval (Files.put ["content"] "2" letters.pendingObject ⟨[[97], [98, 99]], none⟩)
      (Files.eval (Files.put ["content"] "1" letters.pendingObject ⟨[[99, 98, 97]], none⟩)
        {}).2).1.isOk = true := by decide +kernel
  generalize (Files.eval (Files.put ["content"] "2" letters.pendingObject ⟨[[97], [98, 99]], none⟩)
    (Files.eval (Files.put ["content"] "1" letters.pendingObject ⟨[[99, 98, 97]], none⟩)
      {}).2).1 = r at hok
  cases r with
  | ok _ => rfl
  | error e => exact absurd hok (by simp [Except.isOk, Except.toBool])

theorem letters_room : ((Backend.embedded {}).perform .everyone (.put letters)).2.HasRoom ∧
    (((Backend.embedded {}).perform .everyone (.put letters)).2.perform .everyone
      (.commit letters)).2.HasRoom := by
  decide +kernel

theorem letters_audited : ∃ past s, (.embedded {} : Backend).New ∧
      Reached .everyone ["content"] ⟨.embedded {}, {}⟩ past s ∧
      (s.records.perform .everyone .objects).1 =
        .ok (.objects [{ letters.pendingObject with existing := true }]) ∧
      ∀ state : Command.State, state.world.disk.files = s.files →
        ((Command.auditAll s.records .everyone (.files ["content"])).run state).1 =
          .ok { checked := 1, missing := [], corrupt := [], errors := 0, unsupported := 0 } := by
  have hput := letters_registered
  have hobjects := letters_listed
  have hroom := letters_room
  have hnew : (.embedded {} : Backend).New := rfl
  -- Nothing has to be computed from here on.
  generalize Backend.embedded {} = b at hput hobjects hroom hnew ⊢
  obtain ⟨past, files, hreached⟩ := reached_commitment ⟨[[99, 98, 97]], none⟩
    ⟨[[97], [98, 99]], none⟩ rfl hput rfl letters_uploaded hroom.1 hroom.2
  obtain ⟨objects, hlisted, haudit⟩ := audit_finds_nothing_wrong hnew hreached
  obtain rfl := Registry.Answer.objects.inj (Except.ok.inj (hobjects.symm.trans hlisted))
  exact ⟨past, _, hnew, hreached, hobjects, haudit⟩

end Site

end Depot
