import Depot.Proofs.Registry.Gate
import Depot.Proofs.Registry.Lifecycle

/-!
# Accounts

Adding an account looks for one of that name, hashes the password and then inserts the hash unless
there is an entry by now; others may add or delete an account of the same name in the meantime. An
insertion that finds an entry changes nothing and a deletion leaves none, so the entry of a user is
the hash of the first insertion after the last deletion, in whatever order they come.

Headlines
* `Edit` is what a call does to the accounts, `Edit.onTable` to a table of them; `FirstSince` is the
  entry that edits leave.
* **`Chronicle.entry_iff`**: the entry at any time is that of the first insertion since the last
  deletion.
* **`AccountTable.Keeps.accounting`**: so it is in every run over storage that edits its accounts call by
  call, and such an entry is what lets a caller through and what is listed.
-/

namespace Depot.Registry

open Credential (Gate Login)

/-! ### Edits -/

/-- What a call does to the accounts. -/
inductive Edit where
  /-- Insert a password hash for a user unless there is an entry. -/
  | add (user hash : String)
  /-- Delete the entry of a user. -/
  | remove (user : String)
deriving DecidableEq, Repr

namespace Edit

/-- The operation that an edit belongs to: an account is added with a hash of the given password. -/
def By (op : Operation) : Edit → Prop
  | .add user hash => ∃ password salt,
      op = .addUser user password salt ∧ hash = Credential.Password.hash salt password
  | .remove user => op = .deleteUser user

/-- The entry of a user after an edit. -/
def apply (user : String) (entry : Option String) : Edit → Option String
  | .add name hash => if user = name then some (entry.getD hash) else entry
  | .remove name => if user = name then none else entry

/-- A table of password hashes after an edit. -/
def onTable (users : Table String String) : Edit → Table String String
  | .add name hash => if users.contains name then users else users.insert name hash
  | .remove name => users.erase name

/-- The entry of a user in a table changes by an edit as an entry does. -/
theorem get?_onTable (users : Table String String) (e : Edit) (user : String) :
    (e.onTable users).get? user = e.apply user (users.get? user) := by
  cases e with
  | remove name => exact Table.get?_erase users name user
  | add name hash =>
    simp only [onTable, apply]
    by_cases hname : user = name
    · subst hname
      cases hentry : users.get? user with
      | some held => simp [Table.contains, hentry]
      | none => simp [Table.contains, hentry]
    · rw [if_neg hname]
      split
      · rfl
      · rw [Table.get?_insert, if_neg hname]

/-- So does a call that makes an edit or none. -/
theorem get?_elim_onTable (users : Table String String) (e : Option Edit) (user : String) :
    (e.elim users (onTable users)).get? user =
      e.elim (users.get? user) (apply user (users.get? user)) := by
  cases e with
  | none => rfl
  | some e => exact get?_onTable users e user

end Edit

/-! ### Entries over time -/

section

variable {adds : Nat → String → Prop} {removes : Nat → Prop} {entry : Nat → Option String}
  {k : Nat} {hash hash' : String}

/-- Before turn `k` a hash has been added, no removal has come after that, and before that there has
been a removal since each earlier addition. -/
def FirstSince (adds : Nat → String → Prop) (removes : Nat → Prop) (k : Nat) (hash : String) :
    Prop :=
  ∃ j < k, adds j hash ∧ (∀ i, j < i → i < k → ¬ removes i) ∧
    ∀ i < j, ∀ earlier, adds i earlier → ∃ d, i < d ∧ d < j ∧ removes d

/-- An entry over time: none at first, and at each turn one thing happens to it at most. -/
structure Chronicle (adds : Nat → String → Prop) (removes : Nat → Prop)
    (entry : Nat → Option String) : Prop where
  blank : entry 0 = none
  added : ∀ {k hash}, adds k hash → entry (k + 1) = some ((entry k).getD hash)
  removed : ∀ {k}, removes k → entry (k + 1) = none
  idle : ∀ {k}, (∀ hash, ¬ adds k hash) → ¬ removes k → entry (k + 1) = entry k
  apart : ∀ {k hash}, adds k hash → ¬ removes k
  unique : ∀ k hash hash', adds k hash → adds k hash' → hash = hash'

/-- There is one first addition since the last removal at most: of two different ones the later had
a removal before it that was after the earlier. -/
theorem FirstSince.unique (hunique : ∀ k hash hash', adds k hash → adds k hash' → hash = hash')
    (h : FirstSince adds removes k hash) (h' : FirstSince adds removes k hash') : hash = hash' := by
  obtain ⟨j, hj, hadd, hkept, hfirst⟩ := h
  obtain ⟨j', hj', hadd', hkept', hfirst'⟩ := h'
  rcases Nat.lt_trichotomy j j' with hlt | rfl | hgt
  · obtain ⟨d, hjd, hdj, hremove⟩ := hfirst' j hlt hash hadd
    exact absurd hremove (hkept d hjd (Nat.lt_trans hdj hj'))
  · exact hunique j hash hash' hadd hadd'
  · obtain ⟨d, hjd, hdj, hremove⟩ := hfirst j' hgt hash' hadd'
    exact absurd hremove (hkept' d hjd (Nat.lt_trans hdj hj))

/-- What was first since the last removal still is after a turn that removes nothing. -/
theorem FirstSince.succ (h : FirstSince adds removes k hash) (hk : ¬ removes k) :
    FirstSince adds removes (k + 1) hash := by
  obtain ⟨j, hj, hadd, hkept, hfirst⟩ := h
  refine ⟨j, Nat.lt_succ_of_lt hj, hadd, fun i hji hik => ?_, hfirst⟩
  rcases Nat.lt_succ_iff_lt_or_eq.mp hik with hlt | rfl
  · exact hkept i hji hlt
  · exact hk

namespace Chronicle

variable (h : Chronicle adds removes entry)

include h

/-- While there is an entry it is that of a first addition; while there is none each addition has
been followed by a removal. -/
theorem entry_spec (k : Nat) :
    (∀ hash, entry k = some hash → FirstSince adds removes k hash) ∧
      (entry k = none → ∀ i < k, ∀ hash, adds i hash → ∃ d, i < d ∧ d < k ∧ removes d) := by
  induction k with
  | zero =>
    refine ⟨fun hash hentry => ?_, fun _ i hi => absurd hi (Nat.not_lt_zero i)⟩
    exact nomatch h.blank.symm.trans hentry
  | succ k ih =>
    obtain ⟨ihsome, ihnone⟩ := ih
    by_cases hremove : removes k
    · have hgone := h.removed hremove
      refine ⟨fun hash hentry => (nomatch hgone.symm.trans hentry), fun _ i hi hash hadd => ?_⟩
      have hne : i ≠ k := by
        rintro rfl
        exact h.apart hadd hremove
      exact ⟨k, by omega, Nat.lt_succ_self k, hremove⟩
    · by_cases hadds : ∃ hash, adds k hash
      · obtain ⟨added, hadd⟩ := hadds
        have hafter := h.added hadd
        refine ⟨fun hash hentry => ?_, fun hnone => (nomatch hafter.symm.trans hnone)⟩
        obtain rfl := Option.some.inj (hafter.symm.trans hentry)
        cases hbefore : entry k with
        | some held => exact (ihsome held hbefore).succ hremove
        | none =>
          exact ⟨k, Nat.lt_succ_self k, hadd, fun i hki hik => by omega, ihnone hbefore⟩
      · have hsame := h.idle (fun hash hadd => hadds ⟨hash, hadd⟩) hremove
        rw [hsame]
        refine ⟨fun hash hentry => (ihsome hash hentry).succ hremove, fun hnone i hi hash hadd => ?_⟩
        have hne : i ≠ k := by
          rintro rfl
          exact hadds ⟨hash, hadd⟩
        obtain ⟨d, hid, hdk, hd⟩ := ihnone hnone i (by omega) hash hadd
        exact ⟨d, hid, Nat.lt_succ_of_lt hdk, hd⟩

/-- **The entry at any time is that of the first addition since the last removal.** -/
theorem entry_iff {k : Nat} {hash : String} :
    entry k = some hash ↔ FirstSince adds removes k hash := by
  obtain ⟨hsome, hnone⟩ := h.entry_spec k
  refine ⟨hsome hash, fun hfirst => ?_⟩
  cases hentry : entry k with
  | some held => exact congrArg some ((hsome held hentry).unique h.unique hfirst)
  | none =>
    obtain ⟨j, hj, hadd, hkept, -⟩ := hfirst
    obtain ⟨d, hjd, hdk, hremove⟩ := hnone hentry j hj hash hadd
    exact absurd hremove (hkept d hjd hdk)

end Chronicle

end

/-! ### Storage that keeps accounts -/

variable {σ Call : Type} {Answer : Call → Type}

/-- How accounts are kept in states `σ` by calls `Call`. -/
structure AccountTable (σ Call : Type) where
  /-- The states over which calls can be made. -/
  valid : σ → Prop
  /-- The entry of a user. -/
  entry : σ → String → Option String
  /-- What a call does to the accounts. -/
  edit? : Call → Option Edit
  /-- The call after which no other can be made. -/
  close : Call

/-- A call of an operation closes nothing, and the edit that it makes belongs to the operation. -/
def AccountTable.Owns (a : AccountTable σ Call) (op : Operation) (c : Call) : Prop :=
  c ≠ a.close ∧ ∀ e ∈ a.edit? c, e.By op

theorem AccountTable.owns_of_none {a : AccountTable σ Call} {op : Operation} {c : Call}
    (hc : c ≠ a.close) (he : a.edit? c = none) : a.Owns op c :=
  ⟨hc, fun _ hmem => (nomatch he.symm.trans hmem)⟩

theorem AccountTable.owns_of_edit {a : AccountTable σ Call} {op : Operation} {c : Call} {e : Edit}
    (hc : c ≠ a.close) (he : a.edit? c = some e) (hby : e.By op) : a.Owns op c :=
  ⟨hc, fun _ hmem => Option.some.inj (he.symm.trans hmem) ▸ hby⟩

/-- Over some storage the entries change by the edits of the calls, each of which belongs to its
operation, and a look-up and a listing tell the entries. -/
structure AccountTable.Keeps (a : AccountTable σ Call) (storage : Storage Call (Replies Answer))
    (service : Service σ Call (Replies Answer)) : Prop where
  own : ∀ {op}, op ≠ .close → storage.StepsOwn op (a.Owns op)
  valid : ∀ {s c}, a.valid s → c ≠ a.close → a.valid (service s c).2
  entry : ∀ {s c}, a.valid s → c ≠ a.close → ∀ user, a.entry (service s c).2 user =
    (a.edit? c).elim (a.entry s user) (Edit.apply user (a.entry s user))
  lookup : ∀ {s}, a.valid s → ∀ user, storage.lookup service s user = .ok (a.entry s user)
  listed : ∀ {s}, a.valid s → ∃ names, (eval service storage.userNames s).1 = .ok names ∧
    Ascending names ∧ ∀ user, user ∈ names ↔ (a.entry s user).isSome

/-! ### Runs -/

section

variable (a : AccountTable σ Call) (turns : List (Turn Operation Breakdown))
  (after : Nat → System Operation σ Call (Replies Answer) Outcome) (k : Nat)

/-- At turn `k` an operation makes a call that edits the accounts, answered or not. -/
def EditsAt (op : Operation) (e : Edit) : Prop :=
  ∃ c, Protocol.MakesAt turns after k op c ∧ a.edit? c = some e

/-- At turn `k` the addition of an account inserts its hash unless there is an entry. -/
def AddsAt (user hash : String) : Prop :=
  ∃ password salt, hash = Credential.Password.hash salt password ∧
    EditsAt a turns after k (.addUser user password salt) (.add user hash)

/-- At turn `k` the deletion of an account deletes the entry, if there is one. -/
def RemovesAt (user : String) : Prop :=
  EditsAt a turns after k (.deleteUser user) (.remove user)

/-- The hash that the first addition of an account has inserted since the last deletion before turn
`k`. -/
def HashAt (user hash : String) : Prop :=
  FirstSince (fun j => AddsAt a turns after j user) (fun j => RemovesAt a turns after j user) k hash

/-- What the run of some turns makes of the accounts. The system after the first `k` turns is
`after k`. -/
structure Accounting (storage : Storage Call (Replies Answer))
    (service : Service σ Call (Replies Answer)) : Prop where
  /-- The entry of a user is what the first addition has inserted since the last deletion. -/
  entry : ∀ k user hash,
    a.entry (after k).state user = some hash ↔ HashAt a turns after k user hash
  /-- It is never overwritten, only deleted. -/
  kept : ∀ k user hash, a.entry (after k).state user = some hash →
    a.entry (after (k + 1)).state user = some hash ∨
      (RemovesAt a turns after k user ∧ a.entry (after (k + 1)).state user = none)
  /-- A caller passes who has the password of such an entry. -/
  authorized : ∀ k (r : Request) login, Credential.parseBasic r.authorization = .ok login →
    ((eval service (storage.authorize .internal r) (after k).state).1 = .ok () ↔
      ∃ hash, HashAt a turns after k login.user hash ∧
        Credential.Password.verify hash login.password = true)
  /-- The users with such an entry are listed, ascending. -/
  listed : ∀ k, ∃ us, (storage.perform .internal service (after k).state .users).1 =
      .ok (.users us) ∧ Ascending (us.map User.name) ∧
    ∀ user, ⟨user⟩ ∈ us ↔ ∃ hash, HashAt a turns after k user hash

end

section

variable {a : AccountTable σ Call} {turns : List (Turn Operation Breakdown)}
  {after : Nat → System Operation σ Call (Replies Answer) Outcome} {k : Nat}

/-- One call is made at a turn, by one operation. -/
theorem EditsAt.unique {op op' : Operation} {e e' : Edit} (h : EditsAt a turns after k op e)
    (h' : EditsAt a turns after k op' e') : op = op' ∧ e = e' := by
  obtain ⟨c, hmakes, hedit⟩ := h
  obtain ⟨c', hmakes', hedit'⟩ := h'
  obtain ⟨rfl, rfl⟩ := hmakes.unique hmakes'
  exact ⟨rfl, Option.some.inj (hedit.symm.trans hedit')⟩

/-- An edit leaves an entry as it is, or is the deletion of it. -/
theorem EditsAt.keeps_or_removes {op : Operation} {e : Edit} (h : EditsAt a turns after k op e)
    (hby : e.By op) (user hash : String) :
    e.apply user (some hash) = some hash ∨
      (RemovesAt a turns after k user ∧ e.apply user (some hash) = none) := by
  cases e with
  | add name added => exact .inl (ite_self _)
  | remove name =>
    obtain rfl := hby
    by_cases hname : user = name
    · subst hname
      exact .inr ⟨h, if_pos rfl⟩
    · exact .inl (if_neg hname)

/-- At each turn one edit is made at most, by the operation that it belongs to, and the entries
change by that only. -/
def Edited (a : AccountTable σ Call) (turns : List (Turn Operation Breakdown))
    (after : Nat → System Operation σ Call (Replies Answer) Outcome) : Prop :=
  ∀ k, (∃ op e, EditsAt a turns after k op e ∧ e.By op ∧
      ∀ user, a.entry (after (k + 1)).state user = e.apply user (a.entry (after k).state user)) ∨
    ((∀ op e, ¬ EditsAt a turns after k op e) ∧
      ∀ user, a.entry (after (k + 1)).state user = a.entry (after k).state user)

namespace Edited

variable (h : Edited a turns after)

include h

theorem entry_of_edit {op : Operation} {e : Edit} (he : EditsAt a turns after k op e)
    (user : String) :
    a.entry (after (k + 1)).state user = e.apply user (a.entry (after k).state user) := by
  rcases h k with ⟨op', e', he', -, hentry⟩ | ⟨hnone, -⟩
  · obtain ⟨-, rfl⟩ := he.unique he'
    exact hentry user
  · exact absurd he (hnone op e)

/-- A turn leaves an entry as it is, or is the deletion of it. -/
theorem entry_succ {user hash : String} (hentry : a.entry (after k).state user = some hash) :
    a.entry (after (k + 1)).state user = some hash ∨
      (RemovesAt a turns after k user ∧ a.entry (after (k + 1)).state user = none) := by
  rcases h k with ⟨op, e, hedit, hby, hafter⟩ | ⟨-, hafter⟩
  · rw [hafter user, hentry]
    exact hedit.keeps_or_removes hby user hash
  · exact .inl ((hafter user).trans hentry)

/-- The entry of a user over a run is the chronicle of its additions and deletions. -/
theorem chronicle {user : String} (hblank : a.entry (after 0).state user = none) :
    Chronicle (fun j => AddsAt a turns after j user) (fun j => RemovesAt a turns after j user)
      (fun j => a.entry (after j).state user) where
  blank := hblank
  added := by
    rintro k hash ⟨password, salt, -, hedit⟩
    exact (h.entry_of_edit hedit user).trans (if_pos rfl)
  removed := by
    intro k hedit
    exact (h.entry_of_edit hedit user).trans (if_pos rfl)
  idle := by
    intro k hadds hremoves
    rcases h k with ⟨op, e, hedit, hby, hentry⟩ | ⟨-, hentry⟩
    · refine (hentry user).trans ?_
      cases e with
      | add name hash =>
        obtain ⟨password, salt, rfl, rfl⟩ := hby
        refine if_neg ?_
        rintro rfl
        exact hadds _ ⟨password, salt, rfl, hedit⟩
      | remove name =>
        obtain rfl := hby
        refine if_neg ?_
        rintro rfl
        exact hremoves hedit
    · exact hentry user
  apart := by
    rintro k hash ⟨password, salt, -, hadd⟩ hremove
    exact nomatch (hadd.unique hremove).1
  unique := by
    rintro k hash hash' ⟨_, _, -, hadd⟩ ⟨_, _, -, hadd'⟩
    exact (Edit.add.inj (hadd.unique hadd').2).2

end Edited

end

/-! ### Accounts of storage -/

namespace AccountTable.Keeps

variable {a : AccountTable σ Call} {storage : Storage Call (Replies Answer)}
  {service : Service σ Call (Replies Answer)} {s : σ} {turns : List (Turn Operation Breakdown)}
  (h : a.Keeps storage service)

include h

/-- What is left of the operations of a run makes edits that belong to them, and closes nothing. -/
theorem own_calls (hopen : .start .close ∉ turns) (k : Nat) :
    ∀ t ∈ ((operations storage .internal service).reached s turns k).tasks,
      t.rest.Makes (a.Owns t.origin) := by
  refine Protocol.run_makes (fun op hop => (h.own ?_).run_makes) fun _ ht =>
    absurd ht List.not_mem_nil
  rintro rfl
  exact hopen (List.mem_of_mem_take hop)

/-- A call that a turn makes belongs to its operation, and closes nothing. -/
theorem own_call (hopen : .start .close ∉ turns) {k : Nat} {op : Operation} {c : Call}
    (hc : Protocol.MakesAt turns ((operations storage .internal service).reached s turns) k op c) :
    a.Owns op c := by
  obtain ⟨n, fate, next, -, -, htask⟩ := hc
  exact (h.own_calls hopen k _ (List.mem_of_getElem? htask)).1

theorem valid_reached (hopen : .start .close ∉ turns) (hs : a.valid s) (k : Nat) :
    a.valid ((operations storage .internal service).reached s turns k).state := by
  induction k with
  | zero => exact hs
  | succ k ih =>
    rcases (operations storage .internal service).reached_state_cases s turns k with
      ⟨op, c, hc, hstate⟩ | ⟨-, hstate⟩
    · rw [hstate]
      exact h.valid ih (h.own_call hopen hc).1
    · rw [hstate]
      exact ih

/-- Each turn of a run edits the accounts by the edit of its call. -/
theorem edited (hopen : .start .close ∉ turns) (hs : a.valid s) :
    Edited a turns ((operations storage .internal service).reached s turns) := by
  intro k
  have hvalid := h.valid_reached hopen hs k
  rcases (operations storage .internal service).reached_state_cases s turns k with
    ⟨op, c, hc, hstate⟩ | ⟨hnone, hstate⟩
  · obtain ⟨hclose, hby⟩ := h.own_call hopen hc
    have hentry := h.entry hvalid hclose
    rw [hstate]
    cases he : a.edit? c with
    | none =>
      rw [he] at hentry
      refine .inr ⟨fun op' e hedit => ?_, hentry⟩
      obtain ⟨c', hc', hedit⟩ := hedit
      obtain ⟨-, rfl⟩ := hc.unique hc'
      exact nomatch he.symm.trans hedit
    | some e =>
      rw [he] at hentry
      exact .inl ⟨op, e, ⟨c, hc, he⟩, hby e he, hentry⟩
  · refine .inr ⟨fun op e hedit => ?_, fun user => by rw [hstate]⟩
    obtain ⟨c, hc, -⟩ := hedit
    exact hnone op c hc

/-- A caller passes the gate who has the password of the entry under the name in the header. -/
theorem authorize_eq_ok_iff (hs : a.valid s) (r : Request) {login : Credential.Login}
    (hlogin : Credential.parseBasic r.authorization = .ok login) :
    (eval service (storage.authorize .internal r) s).1 = .ok () ↔
      ∃ hash, a.entry s login.user = some hash ∧
        Credential.Password.verify hash login.password = true := by
  have hok : ∀ x : Except Refusal Unit, x.mapError Error.auth = .ok () ↔ x = .ok () := by
    intro x
    cases x with
    | ok u => exact iff_of_true rfl rfl
    | error why => exact iff_of_false (fun h => nomatch h) (fun h => nomatch h)
  rw [Storage.eval_gate, hok, Gate.ruling_eq_ok_iff]
  constructor
  · rintro ⟨login', hash, hlogin', hfound, hverify⟩
    obtain rfl := Except.ok.inj (hlogin.symm.trans hlogin')
    rw [h.lookup hs] at hfound
    exact ⟨hash, Except.ok.inj hfound, hverify⟩
  · rintro ⟨hash, hentry, hverify⟩
    refine ⟨login, hash, hlogin, ?_, hverify⟩
    rw [h.lookup hs, hentry]

/-- The users who have an entry are listed. -/
theorem users_listed (hs : a.valid s) :
    ∃ us, (storage.perform .internal service s .users).1 = .ok (.users us) ∧
      Ascending (us.map User.name) ∧ ∀ user, ⟨user⟩ ∈ us ↔ (a.entry s user).isSome := by
  obtain ⟨names, hnames, hascending, hmem⟩ := h.listed hs
  have husers : eval service (storage.users .internal) s =
      (.ok (names.map User.mk), (eval service storage.userNames s).2) := by
    refine (eval_bind_of_ok (eval_lift _ s)).trans ?_
    exact eval_bind_of_ok (Prod.ext hnames rfl)
  refine ⟨names.map User.mk, congrArg Prod.fst (eval_bind_of_ok husers), ?_, fun user => ?_⟩
  · rw [List.map_map]
    exact (List.map_id names).symm ▸ hascending
  · rw [← hmem]
    simp

/-- **The entry of a user is the hash that the first addition has inserted since the last
deletion**, in every run of operations that begins without accounts and closes nothing, whatever
calls of others come between their own; such an entry lets its user through and is listed. -/
theorem accounting (hopen : .start .close ∉ turns) (hs : a.valid s)
    (hblank : ∀ user, a.entry s user = none) :
    Accounting a turns ((operations storage .internal service).reached s turns) storage service := by
  have hedited := h.edited hopen hs
  have hentry : ∀ k user hash,
      a.entry ((operations storage .internal service).reached s turns k).state user = some hash ↔
        HashAt a turns ((operations storage .internal service).reached s turns) k user hash :=
    fun k user hash => (hedited.chronicle (hblank user)).entry_iff
  refine ⟨hentry, fun k user hash => hedited.entry_succ, fun k r login hlogin => ?_, fun k => ?_⟩
  · rw [h.authorize_eq_ok_iff (h.valid_reached hopen hs k) r hlogin]
    simp only [hentry]
  · obtain ⟨us, hus, hascending, hmem⟩ := h.users_listed (h.valid_reached hopen hs k)
    refine ⟨us, hus, hascending, fun user => ?_⟩
    rw [hmem, Option.isSome_iff_exists]
    simp only [hentry]

end AccountTable.Keeps

end Depot.Registry
