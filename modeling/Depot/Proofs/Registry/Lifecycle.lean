import Depot.Proofs.Registry.Ledger
import Depot.Proofs.Registry.Operations

/-!
# The life of a record

The record of an object is made once, by a registration, and keeps the size it was made with; a
commitment marks it as committed, and nothing takes that back. Over storage whose calls pass an
object on like that, all runs do, whatever operations go on side by side and whichever of their
calls fail.

Headlines
* `Passes` is what one call may do to the standing of an object, `Lifecycle` what a run keeps of it.
* **`lifecycle`**: if each call passes every object on, and a registration answers with the size
  that is recorded, then every run keeps the life of each record.
* **`reached_within`**: storage that refuses what it has no room for behaves like storage that does
  not, as long as there is room.
-/

namespace Depot.Registry

open Credential (Gate)

/-- How far the record of an object has come. -/
structure Standing where
  /-- The size. -/
  size : Int
  /-- Whether the object is committed. -/
  existing : Bool
deriving DecidableEq, Repr

/-- What a call that belongs to an operation may make of the standing of an object. -/
inductive Passes (op : Operation) (oid : String) : Option Standing → Option Standing → Prop
  /-- Nothing. -/
  | stay (st : Option Standing) : Passes op oid st st
  /-- A registration of the object records it as pending. -/
  | record (r : Request) (hop : op = .put r) (hoid : r.oid = oid) :
    Passes op oid none (some ⟨r.size, false⟩)
  /-- A commitment of the object marks it as committed. -/
  | mark (r : Request) (st : Standing) (hop : op = .commit r) (hoid : r.oid = oid) :
    Passes op oid (some st) (some { st with existing := true })

/-- A record stays, keeps its size, and stays committed. -/
def Stays (before after : Option Standing) : Prop :=
  ∀ st, before = some st →
    ∃ st', after = some st' ∧ st'.size = st.size ∧ (st.existing = true → st'.existing = true)

theorem Stays.refl (a : Option Standing) : Stays a a := fun st hst => ⟨st, hst, rfl, id⟩

theorem Stays.trans {a b c : Option Standing} (hab : Stays a b) (hbc : Stays b c) : Stays a c := by
  intro st hst
  obtain ⟨st', hst', hsize, hex⟩ := hab st hst
  obtain ⟨st'', hst'', hsize', hex'⟩ := hbc st' hst'
  exact ⟨st'', hst'', hsize'.trans hsize, fun h => hex' (hex h)⟩

theorem Passes.stays {op : Operation} {oid : String} {a b : Option Standing}
    (h : Passes op oid a b) : Stays a b := by
  cases h with
  | stay => exact Stays.refl a
  | record r hop hoid => exact fun st hst => absurd hst (by simp)
  | mark r st hop hoid =>
    rintro st' hst'
    cases hst'
    exact ⟨_, rfl, rfl, fun _ => rfl⟩

/-! ### The ledger -/

namespace Ledger

/-- The standing of an object by its record. -/
def standing (l : Ledger) (oid : String) : Option Standing :=
  (l.records.get? oid).map fun e => ⟨e.size, e.existing⟩

/-- What a look-up finds is as recorded. -/
theorem standing_eq_find (l : Ledger) (oid : String) :
    l.standing oid = (l.find oid).map fun o => ⟨o.size, o.existing⟩ := by
  unfold standing find
  rw [Option.map_map]
  rfl

theorem standing_of_find {l : Ledger} {oid : String} {o : Object} (h : l.find oid = some o) :
    l.standing oid = some ⟨o.size, o.existing⟩ := by
  rw [standing_eq_find, h]
  rfl

theorem register_passes (l : Ledger) (r : Request) (oid : String) :
    Passes (.put r) oid (l.standing oid) ((l.register r).standing oid) := by
  cases hrow : l.records.get? r.oid with
  | some e =>
    rw [register_of_some hrow]
    exact Passes.stay _
  | none =>
    unfold standing
    rw [records_register hrow, Table.get?_insert]
    by_cases hoid : oid = r.oid
    · rw [if_pos hoid, hoid, hrow]
      exact Passes.record r rfl rfl
    · rw [if_neg hoid]
      exact Passes.stay _

theorem commit_passes (l : Ledger) (r : Request) (oid : String) :
    Passes (.commit r) oid (l.standing oid) ((l.commit r.oid).standing oid) := by
  cases hrow : l.records.get? r.oid with
  | none =>
    rw [commit_of_none hrow]
    exact Passes.stay _
  | some e =>
    unfold standing
    rw [get?_commit hrow]
    by_cases hoid : oid = r.oid
    · rw [if_pos hoid, hoid, hrow]
      exact Passes.mark r _ rfl rfl
    · rw [if_neg hoid]
      exact Passes.stay _

/-- An operation that may not be made passes every object on. -/
theorem allowed_passes {l : Ledger} {may : Except Error Unit} {after : Outcome × Ledger}
    {op : Operation} {oid : String} (h : Passes op oid (l.standing oid) (after.2.standing oid)) :
    Passes op oid (l.standing oid) ((l.allowed may after).2.standing oid) := by
  cases may with
  | ok u => exact h
  | error e => exact Passes.stay _

/-- **An operation on the ledger passes every object on.** -/
theorem perform_passes (gate : Credential.Gate) (l : Ledger) (op : Operation) (oid : String) :
    Passes op oid (l.standing oid) ((l.perform gate op).2.standing oid) := by
  cases op with
  | put r => exact allowed_passes (allowed_passes (l.register_passes r oid))
  | commit r => exact allowed_passes (l.commit_passes r oid)
  | get r => exact allowed_passes (Passes.stay _)
  | getPending r => exact allowed_passes (Passes.stay _)
  | addUser name password salt => exact allowed_passes (allowed_passes (Passes.stay _))
  | deleteUser name => exact allowed_passes (Passes.stay _)
  | users => exact allowed_passes (Passes.stay _)
  | addProject name => exact allowed_passes (Passes.stay _)
  | projects => exact Passes.stay _
  | objects => exact Passes.stay _
  | close => exact Passes.stay _

theorem oid_of_find {l : Ledger} {oid : String} {o : Object} (h : l.find oid = some o) :
    o.oid = oid := by
  obtain ⟨e, -, rfl⟩ := Option.map_eq_some_iff.mp h
  rfl

theorem find_of_demand {l : Ledger} {oid : String} {o : Object} (h : l.demand oid = .ok o) :
    l.find oid = some o := by
  unfold demand at h
  cases hfind : l.find oid with
  | none =>
    rw [hfind] at h
    exact absurd h (by simp)
  | some o' =>
    rw [hfind] at h
    exact congrArg some (Except.ok.inj h)

/-- An object that is answered is recorded so. -/
def Answers (after : Outcome × Ledger) : Prop :=
  ∀ o, after.1 = .ok (.object o) → after.2.find o.oid = some o

theorem allowed_answers {l : Ledger} {may : Except Error Unit} {after : Outcome × Ledger}
    (h : Answers after) : Answers (l.allowed may after) := by
  cases may with
  | ok u => exact h
  | error e => exact fun o ho => absurd ho (by simp [allowed])

theorem demand_answers (l : Ledger) (oid : String) :
    Answers ((l.demand oid).map .object, l) := by
  intro o ho
  cases hdemand : l.demand oid with
  | error e =>
    rw [hdemand] at ho
    exact absurd ho (by simp [Except.map])
  | ok o' =>
    rw [hdemand] at ho
    cases ho
    have hfind := find_of_demand hdemand
    rwa [oid_of_find hfind]

theorem committed_answers (l : Ledger) (oid : String) :
    Answers ((do
      let o ← l.demand oid
      if o.existing then .ok (.object o) else .error (.notFound (.pending oid))), l) := by
  intro o ho
  refine demand_answers l oid o ?_
  cases hdemand : l.demand oid with
  | error e =>
    simp only [hdemand, bind, Except.bind] at ho
    exact absurd ho (by simp)
  | ok o' =>
    simp only [hdemand, bind, Except.bind] at ho
    by_cases hex : o'.existing = true
    · rw [if_pos hex] at ho
      exact ho
    · rw [if_neg hex] at ho
      exact absurd ho (by simp)

theorem answers_of_silent {l : Ledger} {a : Answer} (h : ∀ o, a ≠ .object o) :
    Answers (.ok a, l) := fun o ho => absurd (Except.ok.inj ho) (h o)

/-- **An object that an operation answers with is recorded so** after the operation. -/
theorem perform_answers (gate : Credential.Gate) (l : Ledger) (op : Operation) :
    Answers (l.perform gate op) := by
  cases op with
  | get r => exact allowed_answers (l.committed_answers r.oid)
  | getPending r => exact allowed_answers (l.demand_answers r.oid)
  | put r => exact allowed_answers (allowed_answers (demand_answers _ r.oid))
  | commit r => exact allowed_answers (demand_answers _ r.oid)
  | addUser name password salt =>
    exact allowed_answers (allowed_answers (answers_of_silent (by simp)))
  | deleteUser name => exact allowed_answers (answers_of_silent (by simp))
  | users => exact allowed_answers (answers_of_silent (by simp))
  | addProject name => exact allowed_answers (answers_of_silent (by simp))
  | projects => exact answers_of_silent (by simp)
  | objects => exact answers_of_silent (by simp)
  | close => exact answers_of_silent (by simp)

/-- The objects that are listed are recorded so, and committed. -/
theorem find_of_mem_objectList {l : Ledger} {o : Object} (h : o ∈ l.objectList) :
    l.find o.oid = some o ∧ o.existing = true := by
  obtain ⟨⟨oid, e⟩, hmem, rfl⟩ := List.mem_map.mp h
  obtain ⟨hentry, hex⟩ := List.mem_filter.mp hmem
  exact ⟨find_of_some (Table.get?_eq_some_iff.mpr hentry), hex⟩

end Ledger

/-! ### Operations side by side -/

variable {σ Call : Type} {Answer : Call → Type}

/-- What a call of storage replies: an answer, or why it failed. -/
@[reducible] def Replies (Answer : Call → Type) (c : Call) : Type := Except Error (Answer c)

/-- The operations of a registry over storage. Any of their calls may break down. -/
def operations (storage : Storage Call (Replies Answer)) (gate : Gate)
    (service : Service σ Call (Replies Answer)) :
    Protocol Operation σ Breakdown Call (Replies Answer) Outcome where
  program op := (storage.run gate op).run
  serve _ := service
  fail b _ := .error (.backend b)

variable {storage : Storage Call (Replies Answer)} {gate : Gate}
  {service : Service σ Call (Replies Answer)}

/-- Turn `k` of a run is a call of an operation that has been started. -/
def ActsAt (turns : List (Turn Operation Breakdown))
    (after : Nat → System Operation σ Call (Replies Answer) Outcome) (k : Nat)
    (op : Operation) : Prop :=
  ∃ n fate c next, turns[k]? = some (.call n fate) ∧ (after k).tasks[n]? = some ⟨op, .call c next⟩

/-- What the run of some turns keeps of the standing of every object. The system after the first `k`
turns is `after k`. -/
structure Lifecycle (look : σ → String → Option Standing) (turns : List (Turn Operation Breakdown))
    (after : Nat → System Operation σ Call (Replies Answer) Outcome) : Prop where
  /-- A record is made by a registration of the object, pending and with its size. -/
  recorded : ∀ {k oid st}, look (after k).state oid = none →
    look (after (k + 1)).state oid = some st →
      ∃ r : Request, ActsAt turns after k (.put r) ∧ r.oid = oid ∧ st = ⟨r.size, false⟩
  /-- It is made once. -/
  once : ∀ {j k oid}, look (after j).state oid = none → look (after (j + 1)).state oid ≠ none →
    look (after k).state oid = none → look (after (k + 1)).state oid ≠ none → j = k
  /-- From then on it is there, with that size, and stays committed once it is. -/
  kept : ∀ {j k} oid, j ≤ k → Stays (look (after j).state oid) (look (after k).state oid)
  /-- It becomes committed by a commitment of the object. -/
  marked : ∀ {k oid st st'}, look (after k).state oid = some st → st.existing = false →
    look (after (k + 1)).state oid = some st' → st'.existing = true →
      ∃ r : Request, ActsAt turns after k (.commit r) ∧ r.oid = oid
  /-- A registration that has succeeded has answered with the object and the recorded size. -/
  answered : ∀ {k t r a}, t ∈ (after k).tasks → t.origin = .put r → t.rest = .done (.ok a) →
    ∃ o st, a = .object o ∧ o.oid = r.oid ∧ look (after k).state r.oid = some st ∧
      st.size = o.size

/-! ### Turns that pass every object on -/

/-- Each turn leaves the state as it is, or is a call that passes every object on. -/
def Handed (look : σ → String → Option Standing) (turns : List (Turn Operation Breakdown))
    (after : Nat → System Operation σ Call (Replies Answer) Outcome) : Prop :=
  ∀ k, (after (k + 1)).state = (after k).state ∨
    ∃ op, ActsAt turns after k op ∧
      ∀ oid, Passes op oid (look (after k).state oid) (look (after (k + 1)).state oid)

namespace Handed

variable {look : σ → String → Option Standing} {turns : List (Turn Operation Breakdown)}
  {after : Nat → System Operation σ Call (Replies Answer) Outcome}

theorem kept (h : Handed look turns after) {j k : Nat} (oid : String) (hjk : j ≤ k) :
    Stays (look (after j).state oid) (look (after k).state oid) := by
  induction hjk with
  | refl => exact Stays.refl _
  | step _ ih =>
    rename_i k _
    refine ih.trans ?_
    rcases h k with hsame | ⟨op, -, hpass⟩
    · rw [hsame]
      exact Stays.refl _
    · exact (hpass oid).stays

theorem recorded (h : Handed look turns after) {k : Nat} {oid : String} {st : Standing}
    (hnone : look (after k).state oid = none) (hsome : look (after (k + 1)).state oid = some st) :
    ∃ r : Request, ActsAt turns after k (.put r) ∧ r.oid = oid ∧ st = ⟨r.size, false⟩ := by
  rcases h k with hsame | ⟨op, hacts, hpass⟩
  · rw [hsame, hnone] at hsome
    exact absurd hsome (by simp)
  · have hpass := hpass oid
    rw [hnone, hsome] at hpass
    cases hpass with
    | record r hop hoid => exact ⟨r, hop ▸ hacts, hoid, rfl⟩

theorem marked (h : Handed look turns after) {k : Nat} {oid : String} {st st' : Standing}
    (hst : look (after k).state oid = some st) (hpending : st.existing = false)
    (hst' : look (after (k + 1)).state oid = some st') (hex : st'.existing = true) :
    ∃ r : Request, ActsAt turns after k (.commit r) ∧ r.oid = oid := by
  rcases h k with hsame | ⟨op, hacts, hpass⟩
  · rw [hsame, hst] at hst'
    cases hst'
    exact absurd (hpending.symm.trans hex) (by simp)
  · have hpass := hpass oid
    rw [hst, hst'] at hpass
    cases hpass with
    | stay => exact absurd (hpending.symm.trans hex) (by simp)
    | mark r _ hop hoid => exact ⟨r, hop ▸ hacts, hoid⟩

/-- Before a record is made there has been none. -/
theorem le_of_recorded (h : Handed look turns after) {j k : Nat} {oid : String}
    (hj : look (after (j + 1)).state oid ≠ none) (hk : look (after k).state oid = none) :
    k ≤ j := by
  refine Nat.le_of_not_lt fun hlt => ?_
  obtain ⟨st, hst⟩ := Option.ne_none_iff_exists'.mp hj
  obtain ⟨st', hst', -⟩ := h.kept oid hlt st hst
  exact absurd (hk.symm.trans hst') (by simp)

end Handed

/-! ### Storage that passes every object on -/

/-- Storage keeps its records. -/
def records (look : σ → String → Option Standing) (valid : σ → Prop) : Regime σ where
  valid := valid
  grows s t := ∀ oid, Stays (look s oid) (look t oid)
  refl s oid := Stays.refl (look s oid)
  trans hst htu oid := (hst oid).trans (htu oid)

/-- A size is recorded under the id of an object. -/
def Recorded (look : σ → String → Option Standing) (oid : String) (size : Int) (s : σ) : Prop :=
  ∃ st, look s oid = some st ∧ st.size = size

/-- What is recorded stays so. -/
theorem Recorded.later {look : σ → String → Option Standing} {valid : σ → Prop} {oid : String}
    {size : Int} {s t : σ} (h : Recorded look oid size s) (hg : (records look valid).grows s t) :
    Recorded look oid size t := by
  obtain ⟨st, hst, hsize⟩ := h
  obtain ⟨st', hst', hsize', -⟩ := hg oid st hst
  exact ⟨st', hst', hsize'.trans hsize⟩

/-- A call by itself is safe if the service keeps the state valid and lets it grow, and its answer
is as promised from then on. -/
theorem sure_perform {g : Regime σ} {op : Operation} {c : Call} {post : Answer c → σ → Prop} {s : σ}
    (h : ∀ t, g.valid t → g.valid (service t c).2 ∧ g.grows t (service t c).2 ∧
      ∀ a, (service t c).1 = .ok a → ∀ u, g.valid u → g.grows (service t c).2 u → post a u) :
    Sure (operations storage gate service) g op post (ExceptT.mk (Program.perform c)) s := by
  refine ⟨fun t fate hv _ => ?_⟩
  obtain ⟨h1, h2, h3⟩ := h t hv
  cases fate with
  | answered => exact ⟨h1, h2, fun u hu hg a ha => h3 a ha u hu hg⟩
  | refused e => exact ⟨hv, g.refl t, Sure.safe_error _⟩
  | unconfirmed e => exact ⟨h1, h2, Sure.safe_error _⟩

section

variable {look : σ → String → Option Standing} {valid : σ → Prop} {P : Operation → Call → Prop}
  {turns : List (Turn Operation Breakdown)} {s : σ}

/-- The steps of the operations that are started make calls of some kind, and calls of that kind
keep the state valid and pass every object on. -/
structure PassesOn (storage : Storage Call (Replies Answer))
    (service : Service σ Call (Replies Answer)) (look : σ → String → Option Standing)
    (valid : σ → Prop) (turns : List (Turn Operation Breakdown))
    (P : Operation → Call → Prop) : Prop where
  make : ∀ op, .start op ∈ turns → storage.StepsMake op (P op)
  step : ∀ {op c t}, P op c → valid t →
    valid (service t c).2 ∧ ∀ oid, Passes op oid (look t oid) (look (service t c).2 oid)

/-- Each turn of a run that keeps the state valid passes every object on. -/
theorem PassesOn.handed (h : PassesOn storage service look valid turns P)
    (hvalid : ∀ k, valid ((operations storage gate service).reached s turns k).state) :
    Handed look turns ((operations storage gate service).reached s turns) := by
  intro k
  cases he : turns[k]? with
  | none => exact Or.inl (by rw [Protocol.reached_succ_of_none _ he])
  | some e =>
    rw [Protocol.reached_succ _ he]
    obtain ⟨i, -, hadv⟩ | ⟨n, op, c, next, fate, rfl, hn, hadv⟩ | hadv :=
      Protocol.advance_cases _ ((operations storage gate service).reached s turns k) e
    · exact Or.inl (by rw [hadv])
    · have hmakes := Protocol.run_makes
        (fun op hop => Storage.run_makes (h.make op (List.mem_of_mem_take hop)))
        (fun _ ht => absurd ht List.not_mem_nil) _ (List.mem_of_getElem? hn)
      obtain ⟨-, hpass⟩ := h.step hmakes.1 (hvalid k)
      rw [hadv]
      rcases Protocol.settle_cases op _ c fate with hs | hs
      · exact Or.inl hs
      · refine Or.inr ⟨op, ⟨n, fate, c, next, he, hn⟩, fun oid => ?_⟩
        rw [hs]
        exact hpass oid
    · exact Or.inl (by rw [hadv])

/-- **Every run keeps the life of each record** if each call that operations make passes every
object on, and registrations answer with what is recorded. -/
theorem lifecycle (h : PassesOn storage service look valid turns P) (hs : valid s)
    (hregister : ∀ r t, .start (.put r) ∈ turns →
      Sure (operations storage gate service) (records look valid) (.put r)
        (fun found u => ∀ o, found = some o → o.oid = r.oid ∧ Recorded look r.oid o.size u)
        (storage.register r) t) :
    Lifecycle look turns ((operations storage gate service).reached s turns) := by
  let promise : Promise σ :=
    { registered := fun r o u => o.oid = r.oid ∧ Recorded look r.oid o.size u }
  have hkeep : ∀ op, .start op ∈ turns →
      storage.StepsKeep (operations storage gate service) (records look valid) op promise := by
    intro op hop
    have hsafe : storage.StepsKeep (operations storage gate service) (records look valid) op {} :=
      (h.make op hop).keep fun c t hc hv =>
        ⟨(h.step hc hv).1, fun oid => ((h.step hc hv).2 oid).stays⟩
    refine { hsafe with register := fun r t hr => ?_ }
    subst hr
    exact hregister r t hop
  have hsound : ∀ k, Protocol.Sound (operations storage gate service) (records look valid)
      (fun op r t => ∀ a, r = .ok a → promise.Kept op a t)
      ((operations storage gate service).reached s turns k) := fun k =>
    (Protocol.run_sound_of_started (fun op hop t _ =>
      (Storage.run_keeps (hkeep op (List.mem_of_mem_take hop)) t).safe)
      (Protocol.sound_idle hs)).1
  have hturns : Handed look turns ((operations storage gate service).reached s turns) :=
    h.handed fun k => (hsound k).valid
  refine ⟨hturns.recorded, fun hj hj' hk hk' => ?_, hturns.kept, hturns.marked, ?_⟩
  · exact Nat.le_antisymm (hturns.le_of_recorded hk' hj) (hturns.le_of_recorded hj' hk)
  · intro k t r a ht horigin ha
    have hkept := (hsound k).result ht ha a rfl
    rw [horigin] at hkept
    obtain ⟨o, rfl, hoid, st, hst, hsize⟩ := hkept
    exact ⟨o, st, rfl, hoid, hst, hsize⟩

end

/-! ### Storage that may be full -/

section

variable {room : σ → Prop} [DecidablePred room]

/-- The service refuses a call after which there would not be room. -/
def within (room : σ → Prop) [DecidablePred room] (service : Service σ Call (Replies Answer)) :
    Service σ Call (Replies Answer) := fun s c =>
  if room (service s c).2 then service s c else (.error (.backend .refused), s)

theorem within_of_room {s : σ} {c : Call} (h : room (service s c).2) :
    within room service s c = service s c := if_pos h

theorem advance_within {s : System Operation σ Call (Replies Answer) Outcome}
    {e : Turn Operation Breakdown}
    (h : room ((operations storage gate service).advance s e).state) :
    (operations storage gate (within room service)).advance s e =
      (operations storage gate service).advance s e := by
  cases e with
  | start i => rfl
  | call n fate =>
    unfold Protocol.advance at h ⊢
    simp only at h ⊢
    cases hn : s.tasks[n]? with
    | none => rfl
    | some t =>
      obtain ⟨i, rest⟩ := t
      rw [hn] at h
      cases rest with
      | done a => rfl
      | call c next =>
        cases fate with
        | refused b => rfl
        | answered =>
          have hserve : within room service s.state c = service s.state c := within_of_room h
          simp only [Protocol.settle, operations, hserve]
        | unconfirmed b =>
          have hserve : within room service s.state c = service s.state c := within_of_room h
          simp only [Protocol.settle, operations, hserve]

/-- As long as there is room nothing is refused. -/
theorem reached_within {s : σ} {turns : List (Turn Operation Breakdown)}
    (h : ∀ k ≤ turns.length, room ((operations storage gate service).reached s turns k).state) :
    (operations storage gate (within room service)).reached s turns =
      (operations storage gate service).reached s turns := by
  funext k
  induction k with
  | zero => rfl
  | succ k ih =>
    cases he : turns[k]? with
    | none => rw [Protocol.reached_succ_of_none _ he, Protocol.reached_succ_of_none _ he, ih]
    | some e =>
      have hroom := h (k + 1) (List.getElem?_eq_some_iff.mp he).1
      rw [Protocol.reached_succ _ he] at hroom
      rw [Protocol.reached_succ _ he, Protocol.reached_succ _ he, ih, advance_within hroom]

end

end Depot.Registry
