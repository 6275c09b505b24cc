import Depot.Command
import Depot.Embedded.Snapshot
import Depot.Log.Line

/-!
# The program

Reads the variables and the files that the audit command needs, runs it, and writes what it leaves.
The program reaches no network: neither a bucket service nor a cluster answers it.
-/

namespace Depot.Main

open Command (World)

/-- The variables that are settings. -/
def settingNames : List String :=
  ["LFS_PUBLIC", "LDAP_ENABLED", "LFS_META_BACKEND", "LFS_DATA_DIR", "CASSANDRA_HOSTS",
    "CASSANDRA_KEYSPACE", "LFS_ENV", "CASSANDRA_USERNAME", "CASSANDRA_PASSWORD", "SQL_URL",
    "SQL_MAX_CONNECTIONS", "LFS_CONTENT_BACKEND", "LFS_CONTENT_PATH", "S3_ENDPOINT", "S3_REGION",
    "S3_BUCKET", "S3_ACCESS_KEY_ID", "S3_SECRET_ACCESS_KEY", "S3_ACL", "LOG_FORMAT", "RUST_LOG"]

/-- The values of the variables. -/
def readVariables : IO (List (String × String)) :=
  settingNames.filterMapM fun name => do return (← IO.getEnv name).map fun value => (name, value)

/-- The bytes of a file, if it can be read. -/
def readFile? (name : String) : IO (Option Bytes) := do
  match ← (IO.FS.readBinFile name).toBaseIO with
  | .ok bytes => return some bytes.toList
  | .error _ => return none

/-- The embedded database in a directory: none in the world if there is no file, and a file that
holds something else if it cannot be read as one. -/
def loadRecords (dir : String) (d : Disk) : IO Disk := do
  let path := Disk.embeddedPath (Files.Path.ofString dir)
  match ← readFile? (dir ++ "/" ++ Disk.embeddedName) with
  | none => return d
  | some bytes =>
    match Embedded.Tables.decode? bytes with
    | some t => return d.putEmbedded path (.tables t)
    | none => return { d with files := d.files.put path (.file bytes) }

/-- The content of the recorded objects, as far as it can be read. -/
def loadContents (dir : String) (oids : List String) (d : Disk) : IO Disk :=
  oids.foldlM (fun d oid => do
    match ← readFile? (dir ++ "/" ++ Content.storageKey oid) with
    | some bytes =>
      let path := Files.locate (Files.Path.ofString dir) oid
      return { d with files := (d.files.write path bytes).2 }
    | none => return d) d

/-- The ids of the objects in the embedded databases of a disk. -/
def recordedOids (d : Disk) : List String :=
  d.embedded.values.flatMap fun
    | .tables t => t.objects.keys
    | .mistyped => []

/-- Loads what the command works on. -/
def loadWorld (s : Settings) : IO World := do
  let d ← loadRecords s.dataDir {}
  return { disk := ← loadContents s.contentPath (recordedOids d) d }

/-- Writes the embedded database that the command leaves. -/
def saveRecords (dir : String) (d : Disk) : IO Unit := do
  match d.embedded.get? (Disk.embeddedPath (Files.Path.ofString dir)) with
  | some (.tables t) =>
    IO.FS.createDirAll dir
    IO.FS.writeBinFile (dir ++ "/" ++ Disk.embeddedName) ⟨t.encode.toArray⟩
  | _ => return ()

/-- Writes a text to a stream. -/
def put (stream : IO.FS.Stream) (text : String) : IO Unit := do
  stream.putStr text
  stream.flush

/-- The time at which requests are signed, which nobody receives. -/
def start : Calendar := ⟨1970, 1, 1, 0, 0, 0⟩

end Depot.Main

/-- Runs the audit command. -/
def main : IO UInt32 := do
  let values ← Depot.Main.readVariables
  let lookup name := values.lookup name
  let settings := (Depot.Settings.read lookup).toOption.getD {}
  let (outcome, world) := Depot.Command.run lookup Depot.Main.start (← Depot.Main.loadWorld settings)
  let shown := outcome.events.filter (Depot.Log.Filter.parse (lookup "RUST_LOG")).shows
  let format := Depot.Log.Format.parse (lookup "LOG_FORMAT")
  let lines := shown.map fun e => e.line format ++ "\n"
  Depot.Main.put (← IO.getStdout) (String.join lines)
  Depot.Main.saveRecords settings.dataDir world.disk
  match outcome.failure with
  | some text => Depot.Main.put (← IO.getStderr) s!"Error: {text}\n"
  | none => pure ()
  return outcome.status.toUInt32
