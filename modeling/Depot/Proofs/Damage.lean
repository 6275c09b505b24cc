import Depot.Proofs.Concordance
import Depot.Proofs.Files.Standing
import Depot.Proofs.Traceless
import Depot.Proofs.Uploads

/-!
# What an audit makes of damage

Files below a base directory can be lost, shortened or written over by anyone. An audit of a registry
against such files gives every committed object the verdict that it deserves by what is kept for it,
in the order in which the objects are listed, and changes nothing but what it has to tell.

Headlines
* **`Audit.Deserves`**: the verdict on an object by what is kept for it; **`Audit.Deserves.unique`**:
  there is one at most.
* **`Command.auditAll_gives`**: an audit reports the verdicts that the objects deserve.
* **`Command.status_run_iff`**: the command fails after an audit just if something is missing or
  corrupt.
* **`Backend.audit_classifies`**: what an audit reports of a registry that was put to any use.
* **`Backend.lost_behind_a_file`**: lost content that is not reported as missing.
-/

namespace Depot

open Credential (Gate)
open Files (Obstructed Offers Path Tree locate)
open Registry (Ledger Object Operation isDigest)

/-! ### Verdicts -/

namespace Audit

variable {base : Files.Path} {t : Tree} {o : Object} {v v' : Verdict}

/-- The verdict that an object deserves by what is kept for it below a base directory. -/
inductive Deserves (base : Files.Path) (t : Tree) (o : Object) : Verdict → Prop
  /-- The bytes that are kept have the length and the digest of the object. -/
  | sound (b : Bytes) (fits : Path.Fits (locate base o.oid)) (kept : Offers base t o.oid (some b))
    (size : (b.length : Int) = o.size) (digest : Sha256.hexDigest b = o.oid) :
    Deserves base t o .sound
  /-- They have another length or another digest. -/
  | corrupt (b : Bytes) (fits : Path.Fits (locate base o.oid)) (kept : Offers base t o.oid (some b))
    (wrong : (b.length : Int) ≠ o.size ∨ Sha256.hexDigest b ≠ o.oid) : Deserves base t o .corrupt
  /-- Nothing is kept. -/
  | missing (fits : Path.Fits (locate base o.oid)) (kept : Offers base t o.oid none) :
    Deserves base t o .missing
  /-- Nothing can be kept, for a file is in the way or the path is too long. -/
  | failed (way : Obstructed base o.oid t ∨ ¬ Path.Fits (locate base o.oid)) :
    Deserves base t o .failed

/-- Where it can be told what is kept, no verification fails. -/
theorem not_failed {kept : Option Bytes} (fits : Path.Fits (locate base o.oid))
    (h : Offers base t o.oid kept) :
    ¬ (Obstructed base o.oid t ∨ ¬ Path.Fits (locate base o.oid)) :=
  not_or.mpr ⟨h.not_obstructed, not_not.mpr fits⟩

/-- An object deserves one verdict at most. -/
theorem Deserves.unique (h : Deserves base t o v) (h' : Deserves base t o v') : v = v' := by
  cases h with
  | sound b fits kept size digest =>
    cases h' with
    | sound => rfl
    | corrupt b' fits' kept' wrong =>
      obtain rfl := Option.some.inj (kept.unique kept')
      exact (wrong.elim (fun h => h size) fun h => h digest).elim
    | missing fits' kept' => exact nomatch kept.unique kept'
    | failed way => exact absurd way (not_failed fits kept)
  | corrupt b fits kept wrong =>
    cases h' with
    | sound b' fits' kept' size digest =>
      obtain rfl := Option.some.inj (kept.unique kept')
      exact (wrong.elim (fun h => h size) fun h => h digest).elim
    | corrupt => rfl
    | missing fits' kept' => exact nomatch kept.unique kept'
    | failed way => exact absurd way (not_failed fits kept)
  | missing fits kept =>
    cases h' with
    | sound b fits' kept' => exact nomatch kept.unique kept'
    | corrupt b fits' kept' => exact nomatch kept.unique kept'
    | missing => rfl
    | failed way => exact absurd way (not_failed fits kept)
  | failed way =>
    cases h' with
    | sound b fits' kept' => exact absurd way (not_failed fits' kept')
    | corrupt b fits' kept' => exact absurd way (not_failed fits' kept')
    | missing fits' kept' => exact absurd way (not_failed fits' kept')
    | failed => rfl

/-- Every store can tell what it keeps of an object. -/
theorem Deserves.ne_unsupported (h : Deserves base t o v) : v ≠ .unsupported := by
  cases h <;> exact nofun

/-- A verification fails for a file in the way or a path that is too long alone. -/
theorem Deserves.unreached (h : Deserves base t o v) (hv : v = .failed) :
    Obstructed base o.oid t ∨ ¬ Path.Fits (locate base o.oid) := by
  cases h with
  | failed way => exact way
  | _ => exact nomatch hv

/-- The judgement on what is kept is the verdict that it deserves. -/
theorem deserves_judge {kept : Option Bytes} (fits : Path.Fits (locate base o.oid))
    (h : Offers base t o.oid kept) : Deserves base t o (verdict (Content.judge kept o)) := by
  cases kept with
  | none => exact .missing fits h
  | some b =>
    show Deserves base t o (verdict ((Content.Digest.of b).check o))
    unfold Content.Digest.check Content.Digest.of
    by_cases hsize : (b.length : Int) = o.size
    · rw [if_neg (not_not.mpr hsize)]
      by_cases hdigest : Sha256.hexDigest b = o.oid
      · rw [if_neg (not_not.mpr hdigest)]
        exact .sound b fits h hsize hdigest
      · rw [if_pos hdigest]
        exact .corrupt b fits h (.inr hdigest)
    · rw [if_pos hsize]
      exact .corrupt b fits h (.inl hsize)

/-- **An object gets the verdict that it deserves**, and what is kept for it stays. -/
theorem eval_verify_deserves (hbase : t.look base = .ok .directory)
    (hdigest : isDigest o.oid = true) (hplain : t.look (locate base o.oid) ≠ .ok .directory) :
    ∃ r, Files.eval (Files.verify base o) t = (r, t) ∧ Deserves base t o (verdict r) := by
  by_cases hfits : Path.Fits (locate base o.oid)
  · cases Files.standing hbase hdigest with
    | file b stands =>
      have hsome : Offers base t o.oid (some b) := stands
      exact ⟨_, Files.eval_verify_of_offers hbase hdigest hfits hsome, deserves_judge hfits hsome⟩
    | absent absent =>
      have hnone := (Files.offers_none_iff hbase hdigest).mpr absent
      exact ⟨_, Files.eval_verify_of_offers hbase hdigest hfits hnone, deserves_judge hfits hnone⟩
    | directory stands => exact absurd stands hplain
    | obstructed way =>
      exact ⟨_, Files.eval_verify_of_obstructed hdigest hfits way, .failed (.inl way)⟩
  · exact ⟨_, Files.eval_verify_of_not_fits hdigest hfits t, .failed (.inr hfits)⟩

end Audit

/-! ### The command -/

namespace Command

open Audit (Deserves Report Verdict)

variable {base : Files.Path} {r : Report} {w : World}

/-- **An audit reports the verdicts that the objects deserve**, and leaves nothing but events. -/
theorem auditAll_gives {records : Backend} {gate : Gate} {os : List Object}
    (hlisted : (records.perform gate .objects).1 = .ok (.objects os))
    (hdigests : ∀ o ∈ os, isDigest o.oid = true) {s : State}
    (hbase : s.world.disk.files.look base = .ok .directory)
    (hplain : ∀ o ∈ os, s.world.disk.files.look (locate base o.oid) ≠ .ok .directory) :
    ∃ v events, (auditAll records gate (.files base)).run s =
        (.ok (Report.on v os), { s with events := events }) ∧
      ∀ o ∈ os, Deserves base s.world.disk.files o (v o) := by
  have hverify : ∀ o ∈ os, ∃ r, Files.eval (Files.verify base o) s.world.disk.files =
      (r, s.world.disk.files) ∧ Deserves base s.world.disk.files o (Audit.verdict r) := fun o ho =>
    Audit.eval_verify_deserves hbase (hdigests o ho) (hplain o ho)
  have hfound : surveyFiles base os s.world.disk.files =
      (os.map fun o => ⟨o, (Files.eval (Files.verify base o) s.world.disk.files).1⟩,
        s.world.disk.files) := by
    refine Audit.survey_of_still fun o ho => ?_
    obtain ⟨r, hr, -⟩ := hverify o ho
    rw [hr]
    exact hr
  obtain ⟨events, haudit⟩ := run_auditAll_files hlisted base s
  rw [hfound, Audit.report_of_map] at haudit
  refine ⟨_, events, haudit, fun o ho => ?_⟩
  obtain ⟨r, hr, hdeserves⟩ := hverify o ho
  rw [hr]
  exact hdeserves

/-- The steps of the command up to the report of the audit. -/
def audited (lookup : Settings.Lookup) (now : Calendar) : Step Report := do
  report .info "" "lfs-store audit starting" [("version", .text version)]
  let s ← loadSettings lookup
  if s.directory then throw directoryRefusal
  let gate : Gate := if s.isPublic then .everyone else .internal
  let records ← openRecords s
  let contents ← openContents s now
  auditAll records gate contents

/-- The command draws its conclusion from the report. -/
theorem steps_eq (lookup : Settings.Lookup) (now : Calendar) :
    steps lookup now = audited lookup now >>= conclude := by
  unfold steps audited
  simp only [bind_assoc]
  refine congrArg _ (funext fun _ => congrArg _ (funext fun s => ?_))
  split
  · simp only [bind_assoc]
  · simp only [bind_assoc]

theorem isHealthy_iff : r.isHealthy = true ↔ r.missing = [] ∧ r.corrupt = [] := by
  unfold Report.isHealthy
  rw [Bool.and_eq_true, List.isEmpty_iff, List.isEmpty_iff]

/-- A report that is not healthy is a failure. -/
theorem run_conclude (r : Report) (s : State) :
    ∃ result s', (conclude r).run s = (result, s') ∧
      (result = .ok () ↔ r.missing = [] ∧ r.corrupt = []) := by
  unfold conclude
  by_cases hhealthy : r.isHealthy = true
  · rw [if_pos hhealthy]
    exact ⟨.ok (), _, rfl, iff_of_true rfl (isHealthy_iff.mp hhealthy)⟩
  · rw [if_neg hhealthy]
    obtain ⟨events, hmissing⟩ := run_forM
      (fun oid s => run_report .error "" "Missing content" [("oid", .text oid)] s) r.missing s
    obtain ⟨events', hcorrupt⟩ := run_forM
      (fun oid s => run_report .error "" "Corrupt content" [("oid", .text oid)] s) r.corrupt
      { s with events := events }
    rw [run_bind_of_ok hmissing, run_bind_of_ok hcorrupt]
    exact ⟨.error _, _, rfl, iff_of_false nofun (mt isHealthy_iff.mpr hhealthy)⟩

/-- **The command fails after an audit just if something is missing or corrupt.** -/
theorem status_run_iff {lookup : Settings.Lookup} {now : Calendar} {s : State}
    (h : (audited lookup now).run { world := w } = (.ok r, s)) :
    (run lookup now w).1.status ≠ 0 ↔ r.missing ≠ [] ∨ r.corrupt ≠ [] := by
  obtain ⟨result, s', hconclude, hresult⟩ := run_conclude r s
  have hsteps : (steps lookup now).run { world := w } = (result, s') := by
    rw [steps_eq, run_bind_of_ok h, hconclude]
  have hstatus : (run lookup now w).1.status = 0 ↔ result = .ok () := by
    unfold run
    rw [hsteps]
    cases result with
    | ok _ => exact iff_of_true rfl rfl
    | error text => exact iff_of_false (by simp [Outcome.status]) nofun
  rw [ne_eq, hstatus, hresult, not_and_or]

end Command

/-! ### Registries -/

namespace Backend

open Audit (Deserves Report)

variable {b : Backend} {l : Ledger}

/-- A backend that holds a ledger is left alone. -/
theorem undisturbed_of_holds (h : b.Holds l) : b.Undisturbed := by
  cases b with
  | embedded d => trivial
  | relational d => trivial
  | column s =>
    show s.script.races = []
    rw [h.1]
  | cluster n =>
    obtain ⟨t, ⟨-, k, ⟨hplans, -⟩, -⟩, -⟩ := h
    intro m hm
    rw [show n.cluster.misanswers = [] from hplans] at hm
    exact absurd hm List.not_mem_nil

/-- A pending object is not listed. -/
theorem ne_of_pending (h : b.Holds l) (hroom : b.HasRoom) {oid : String} {o o' : Object}
    (ho : b.Records oid o) (hpending : o.existing = false) (hlisted : o' ∈ l.objectList) :
    o'.oid ≠ oid := by
  rintro rfl
  obtain ⟨hfind, hexisting⟩ := Ledger.find_of_mem_objectList hlisted
  obtain rfl := Option.some.inj (hfind.symm.trans ((records_iff h hroom).mp ho))
  exact nomatch hpending.symm.trans hexisting

/-- **What an audit reports.** A new registry of any kind is put to any use and not closed, and
anybody writes and removes files below the base directory. Then

* listing the objects succeeds, lists just the committed records and changes no table;
* if no directory has the place of a listed object, the audit reports the verdict that each of them
  deserves, in the order of the listing, and leaves nothing but events; no pending object is
  reported, and no verification fails unless a file is in the way of an object or its path is too
  long;
* whatever the objects are verified with, the numbers of a report add up to theirs;
* the command fails after an audit just if something is missing or corrupt. -/
theorem audit_classifies (hnew : b.New) (gate : Gate) {ops : List Operation}
    (hopen : .close ∉ ops) (hsizes : ∀ r, .put r ∈ ops → Text.fitsInt64 r.size = true)
    (hroom : ∀ k ≤ ops.length, (performAll gate (ops.take k) b).2.HasRoom) :
    let records := (performAll gate ops b).2
    ∃ os, (records.perform gate .objects).1 = .ok (.objects os) ∧
      records.SameTables (records.perform gate .objects).2 ∧
      (∀ o, o ∈ os ↔ records.Records o.oid o ∧ o.existing = true) ∧
      (∀ (base : Files.Path) (s : Command.State),
        s.world.disk.files.look base = .ok .directory →
        (∀ o ∈ os, s.world.disk.files.look (locate base o.oid) ≠ .ok .directory) →
        ∃ r v events, (Command.auditAll records gate (.files base)).run s =
            (.ok r, { s with events := events }) ∧
          r = Report.on v os ∧ (∀ o ∈ os, Deserves base s.world.disk.files o (v o)) ∧
          (∀ oid o, records.Records oid o → o.existing = false →
            oid ∉ r.missing ∧ oid ∉ r.corrupt) ∧
          r.unsupported = 0 ∧
          ((∀ o ∈ os, ¬ Obstructed base o.oid s.world.disk.files ∧
            Path.Fits (locate base o.oid)) → r.errors = 0)) ∧
      (∀ {σ Call : Type} {Reply : Call → Type} (service : Service σ Call Reply)
        (verify : Object → Program Call Reply (Except Content.Error Unit)) (n : σ),
        (Report.of ((Audit.survey verify os).run service n).1).total = os.length) ∧
      ∀ lookup now w r s, (Command.audited lookup now).run { world := w } = (.ok r, s) →
        ((Command.run lookup now w).1.status ≠ 0 ↔ r.missing ≠ [] ∨ r.corrupt ≠ []) := by
  have hlast : (performAll gate ops b).2.HasRoom := by
    have hroom := hroom ops.length (Nat.le_refl _)
    rwa [List.take_length] at hroom
  obtain ⟨hclose, -⟩ | ⟨-, l, hholds, hsound⟩ :=
    (performAll_holds gate hnew.holds Ledger.sound_empty (fun k hk => hroom k hk.le) hsizes).symm
  · exact absurd hclose hopen
  intro records
  have hlisted : (records.perform gate .objects).1 = .ok (.objects l.objectList) :=
    (perform_holds gate hholds hlast (by simp) (by simp)).1
  refine ⟨l.objectList, hlisted, sameTables_objects (undisturbed_of_holds hholds) gate,
    fun o => ?_, fun base s hbase hplain => ?_, fun service verify n => ?_,
    fun lookup now w r s h => Command.status_run_iff h⟩
  · rw [records_iff hholds hlast]
    exact ⟨Ledger.find_of_mem_objectList, fun h => Ledger.mem_objectList_of_find h.1 h.2⟩
  · obtain ⟨v, events, haudit, hdeserves⟩ :=
      Command.auditAll_gives hlisted (fun o => hsound.isDigest_of_mem) hbase hplain
    refine ⟨_, v, events, haudit, rfl, hdeserves, fun oid o ho hpending => not_or.mp fun hnamed => ?_,
      Audit.countP_eq_zero_of_ne fun o ho => (hdeserves o ho).ne_unsupported,
      fun hfree => Audit.countP_eq_zero_of_ne fun o ho hfailed =>
        ((hdeserves o ho).unreached hfailed).elim (hfree o ho).1 fun hlong =>
          hlong (hfree o ho).2⟩
    obtain ⟨o', ho', hoid⟩ := Audit.mem_of_named hnamed
    exact ne_of_pending hholds hlast ho hpending ho' hoid
  · rw [Audit.total_of, Audit.length_survey]

/-! ### One object -/

/-- What a visit leaves. -/
def visited : Backend := (performAll .everyone visit (.embedded {})).2

/-- The object that is listed then. -/
def visitedObject : Object := ⟨visit.digest, 12, ["books"], true⟩

theorem visited_listed : (visited.perform .everyone .objects).1 = .ok (.objects [visitedObject]) :=
  visit_listed.1

/-- A base directory in which one byte is left of the object. -/
def damaged : Tree := (Files.vacant.write (locate ["store"] visit.digest) [97]).2

/-- The byte is reported as corrupt content. -/
theorem damage_reported :
    New (.embedded {}) ∧ .close ∉ visit ∧
      (∀ r, .put r ∈ visit → Text.fitsInt64 r.size = true) ∧
      (∀ k ≤ visit.length, (performAll .everyone (visit.take k) (.embedded {})).2.HasRoom) ∧
      damaged.look ["store"] = .ok .directory ∧
      ∀ s : Command.State, s.world.disk.files = damaged →
        ∃ events, (Command.auditAll visited .everyone (.files ["store"])).run s =
          (.ok { corrupt := [visit.digest] }, { s with events := events }) := by
  have hnew : New (.embedded {}) := rfl
  have hopen : .close ∉ visit := by decide
  have hbase : damaged.look ["store"] = .ok .directory := by decide +kernel
  have hlook : damaged.look (locate ["store"] visitedObject.oid) = .ok (.file [97]) := by
    decide +kernel
  have hcorrupt : Deserves ["store"] damaged visitedObject .corrupt :=
    .corrupt [97] (by decide +kernel) hlook (.inl (by decide))
  refine ⟨hnew, hopen, visit_sizes, visit_room, hbase, fun s hs => ?_⟩
  obtain ⟨os, hobjects, -, -, haudit, -, -⟩ :=
    audit_classifies hnew .everyone hopen visit_sizes visit_room
  obtain rfl : os = [visitedObject] :=
    Registry.Answer.objects.inj (Except.ok.inj (hobjects.symm.trans visited_listed))
  have hplain : ∀ o ∈ [visitedObject],
      s.world.disk.files.look (locate ["store"] o.oid) ≠ .ok .directory := by
    intro o ho hdirectory
    obtain rfl := List.mem_singleton.mp ho
    rw [hs, hlook] at hdirectory
    exact nomatch hdirectory
  obtain ⟨r, v, events, hrun, rfl, hdeserves, -⟩ := haudit ["store"] s (hs ▸ hbase) hplain
  have hv : v visitedObject = .corrupt :=
    (hs ▸ hdeserves visitedObject List.mem_cons_self).unique hcorrupt
  have hreport : Report.on v [visitedObject] = { corrupt := [visitedObject.oid] } := by
    simp [Report.on, hv]
  rw [hreport] at hrun
  exact ⟨events, hrun⟩

/-- A base directory with a file in the place of the directory of the object. -/
def occupied : Tree := (Files.vacant.write ["store", "6a"] [97]).2

/-- **Lost content that is not reported as missing.** There is no file of a committed object, and no
directory, since a file has the name of the directory that the object's would be in. The audit counts
that as a failed verification. -/
theorem lost_behind_a_file :
    (visited.perform .everyone .objects).1 = .ok (.objects [visitedObject]) ∧
      occupied.look ["store"] = .ok .directory ∧
      (∀ e, occupied.look (locate ["store"] visitedObject.oid) ≠ .ok e) ∧
      ∀ s : Command.State, s.world.disk.files = occupied →
        ((Command.auditAll visited .everyone (.files ["store"])).run s).1 = .ok { errors := 1 } := by
  have hbase : occupied.look ["store"] = .ok .directory := by decide +kernel
  have hway : Obstructed ["store"] visitedObject.oid occupied :=
    ⟨["6a"], [97], by decide +kernel, by decide +kernel⟩
  have hnothing : ∀ e, occupied.look (locate ["store"] visitedObject.oid) ≠ .ok e := fun e he => by
    exact nomatch hway.look.symm.trans he
  refine ⟨visited_listed, hbase, hnothing, fun s hs => ?_⟩
  have hdigests : ∀ o ∈ [visitedObject], isDigest o.oid = true := by decide +kernel
  have hplain : ∀ o ∈ [visitedObject],
      s.world.disk.files.look (locate ["store"] o.oid) ≠ .ok .directory := by
    intro o ho
    obtain rfl := List.mem_singleton.mp ho
    exact hs ▸ hnothing _
  obtain ⟨v, events, hrun, hdeserves⟩ :=
    Command.auditAll_gives visited_listed hdigests (hs ▸ hbase) hplain
  have hv : v visitedObject = .failed :=
    (hs ▸ hdeserves visitedObject List.mem_cons_self).unique (.failed (.inl hway))
  have hreport : Report.on v [visitedObject] = { errors := 1 } := by
    simp [Report.on, hv]
  rw [hrun, hreport]

end Backend

end Depot
