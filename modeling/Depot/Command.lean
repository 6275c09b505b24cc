import Depot.Audit
import Depot.Backend
import Depot.Bucket.Service
import Depot.Disk
import Depot.Files.Store
import Depot.Log
import Depot.Settings

/-!
# The audit command

The command reads its settings from variables, opens the storage of records and that of content,
audits the one against the other, and fails if anything is missing or corrupt. What it does on the
way it reports as events.

Headlines
* `run` gives the events, why the command fails if it does, and what it leaves.
-/

namespace Depot.Command

open Audit (Finding Report)
open Credential (Gate)
open Log (Event Level)
open Registry (Object)

/-- What the command works on. -/
structure World where
  /-- The files and the databases in them. -/
  disk : Disk := {}
  /-- The bucket service. -/
  service : Bucket.Service := {}
  /-- The cluster of column stores. -/
  cluster : Column.Cluster := {}

/-- What the command has done so far. -/
structure State where
  /-- What it works on. -/
  world : World
  /-- The events, the latest first. -/
  events : List Event := []

/-- A step of the command; one that fails says why. -/
abbrev Step (α : Type) := ExceptT String (StateM State) α

/-- Why the command does not manage accounts elsewhere. -/
def directoryRefusal : String :=
  "LDAP_ENABLED is set but this binary has no directory client; " ++
    "embed the library with a CredentialStore instead"

/-- The command's version. -/
def version : String := "0.1.0"

/-- The name of the command among the parts that report events. -/
def commandTarget : String := "lfs_store"

/-- Reports an event. -/
def report (level : Level) (part message : String) (fields : List (String × Log.Value) := []) :
    Step Unit :=
  modify fun s =>
    { s with events := ⟨level, commandTarget ++ part, message, fields⟩ :: s.events }

/-- Goes on with a result or fails with its error. -/
def check {ε α : Type} (text : ε → String) : Except ε α → Step α
  | .ok a => return a
  | .error e => throw (text e)

/-- Changes the world. -/
def onWorld {α : Type} (f : World → α × World) : Step α := do
  let s ← get
  let (a, world) := f s.world
  set { s with world := world }
  return a

/-- Reads the settings and reports what is odd about them. -/
def loadSettings (lookup : Settings.Lookup) : Step Settings := do
  let s ← check Settings.Error.message (Settings.read lookup)
  match (lookup "S3_ACL").bind Bucket.Acl.unrecognized? with
  | some acl =>
    report .warn "::content::s3" "Unrecognized bucket ACL, using private" [("acl", .text acl)]
  | none => pure ()
  check Settings.Error.message s.validate
  if s.hasIdleDirectory then
    report .warn "::config" "LFS_PUBLIC is set; LDAP_ENABLED has no effect on object access"
  return s

/-- Opens the storage of records. -/
def openRecords (s : Settings) : Step Backend :=
  match s.records with
  | .embedded => do
    let opened ← onWorld fun w =>
      let (opened, disk) := w.disk.openEmbedded (Files.Path.ofString s.dataDir)
      (opened, { w with disk := disk })
    let database ← check Registry.Error.message opened
    report .info "" "Opened meta store" [("backend", .text "redb"), ("path", .text s.dataDir)]
    return .embedded database
  | .column => do
    let name ← check Registry.Error.message s.column.keyspaceName
    let hosts := Text.quotedList s.column.hosts
    report .info "::meta::column::cql" "Connecting to column store"
      [("hosts", .text hosts), ("keyspace", .text name)]
    let (outcome, connection) := Column.Connection.connect s.column (← get).world.cluster
    check Registry.Error.message outcome
    report .info "" "Opened meta store" [("backend", .text "cassandra"), ("hosts", .text hosts)]
    return .cluster connection
  | .relational => do
    let opened ← onWorld fun w =>
      let (opened, disk) := w.disk.connectRelational s.databaseUrl
      (opened, { w with disk := disk })
    let (dialect, database) ← check Registry.Error.message opened
    report .info "::meta::sql" "Opened sql meta store"
      [("dialect", .text dialect.name), ("url", .text (Relational.redact s.databaseUrl))]
    report .info "" "Opened meta store" [("backend", .text "sql")]
    return .relational database

/-- The part that reports the closing of a storage of records, and what it reports. -/
def closing : Backend → String × String
  | .embedded _ => ("::meta::embedded", "Closed embedded meta store")
  | .relational _ => ("::meta::sql", "Closed sql meta store")
  | .column _ | .cluster _ => ("::meta::column::cql", "Closed column store session")

/-- Where content is kept. -/
inductive Contents where
  /-- In files below a directory. -/
  | files (base : Files.Path)
  /-- In a bucket. -/
  | bucket (s : Bucket.Store)

/-- Opens the storage of content. -/
def openContents (s : Settings) (now : Calendar) : Step Contents :=
  match s.content with
  | .filesystem => do
    let base := Files.Path.ofString s.contentPath
    let opened ← onWorld fun w =>
      let (opened, files) := Program.run Files.Tree.step (Files.openBase base).run w.disk.files
      (opened, { w with disk := { w.disk with files := files } })
    check Content.Error.message opened
    report .info "" "Opened content store"
      [("backend", .text "filesystem"), ("path", .text s.contentPath)]
    return .files base
  | .bucket => do
    let config ← check Settings.Error.message s.bucket.toConfig
    let store : Bucket.Store := ⟨config, now⟩
    let opened ← onWorld fun w =>
      let (opened, service) := Program.run Bucket.Service.step store.openBucket.run w.service
      (opened, { w with service := service })
    if ← check Content.Error.message opened then
      report .info "::content::s3" "Created S3 bucket"
        [("bucket", .text config.bucket), ("acl", .text config.acl.name)]
    report .info "" "Opened content store"
      [("backend", .text "s3"), ("bucket", .text config.bucket)]
    return .bucket store

/-- Verifies objects in order. -/
def survey (contents : Contents) (objects : List Object) : Step (List Finding) :=
  onWorld fun w =>
    match contents with
    | .files base =>
      let verify (o : Object) := (Files.verify base o).run
      let (findings, files) := Program.run Files.Tree.step (Audit.survey verify objects) w.disk.files
      (findings, { w with disk := { w.disk with files := files } })
    | .bucket store =>
      let verify (o : Object) := (store.verify o).run
      let (findings, service) :=
        Program.run Bucket.Service.step (Audit.survey verify objects) w.service
      (findings, { w with service := service })

/-- Reports a finding, unless there is nothing to say. -/
def reportFinding (f : Finding) : Step Unit :=
  let oid := ("oid", Log.Value.text f.object.oid)
  let cause := match f.outcome with
    | .ok () => []
    | .error e => [("error", Log.Value.text e.message)]
  match f.verdict with
  | .missing => report .warn "::audit" "Content missing" [oid]
  | .corrupt => report .error "::audit" "Content corrupt" (oid :: cause)
  | .failed => report .warn "::audit" "Verification failed" (oid :: cause)
  | .sound | .unsupported => pure ()

/-- Audits the objects. -/
def audit (contents : Contents) (objects : List Object) : Step Report := do
  report .info "::audit" "Starting audit" [("objects", .number objects.length)]
  let findings ← survey contents objects
  findings.forM reportFinding
  let r := Report.of findings
  report .info "::audit" "Audit complete"
    [("checked", .number r.checked), ("missing", .number r.missing.length),
      ("corrupt", .number r.corrupt.length), ("errors", .number r.errors),
      ("unsupported", .number r.unsupported)]
  return r

/-- Lists the committed objects, audits them, and gives up the storage of records. -/
def auditAll (records : Backend) (gate : Gate) (contents : Contents) : Step Report := do
  let (part, closed) := closing records
  match (records.perform gate .objects).1 with
  | .ok (.objects objects) =>
    let r ← audit contents objects
    report .debug part closed
    return r
  | .ok _ => return {}
  | .error e =>
    report .debug part closed
    throw e.message

/-- Reports what is missing or corrupt and fails, or reports that all is well. -/
def conclude (r : Report) : Step Unit := do
  if r.isHealthy then
    report .info "" "Shutdown complete" [("checked", .number r.checked)]
  else
    r.missing.forM fun oid => report .error "" "Missing content" [("oid", .text oid)]
    r.corrupt.forM fun oid => report .error "" "Corrupt content" [("oid", .text oid)]
    throw s!"{r.missing.length} missing and {r.corrupt.length} corrupt objects"

/-- The command. -/
def steps (lookup : Settings.Lookup) (now : Calendar) : Step Unit := do
  report .info "" "lfs-store audit starting" [("version", .text version)]
  let s ← loadSettings lookup
  if s.directory then throw directoryRefusal
  let gate : Gate := if s.isPublic then .everyone else .internal
  let records ← openRecords s
  let contents ← openContents s now
  conclude (← auditAll records gate contents)

/-- What a run of the command shows. -/
structure Outcome where
  /-- The events in order. -/
  events : List Event
  /-- Why it failed, if it did. -/
  failure : Option String

/-- Runs the command. -/
def run (lookup : Settings.Lookup) (now : Calendar) (w : World) : Outcome × World :=
  let (result, s) := (steps lookup now).run { world := w }
  let failure := match result with
    | .ok () => none
    | .error text => some text
  (⟨s.events.reverse, failure⟩, s.world)

/-- The exit status of a run. -/
def Outcome.status (o : Outcome) : Nat := if o.failure.isSome then 1 else 0

end Depot.Command
