import Depot.Bucket.Store
import Depot.Column.Query
import Depot.Relational.Location

/-!
# Settings

What an installation is told through its variables: where records and content are kept, and who may
ask. A setting that the chosen kinds of storage do not use is not looked at closely.

Headlines
* `Settings.read` takes the settings from variables, `Settings.validate` refuses those that cannot
  work, and `Settings.ofLookup` does both.
-/

namespace Depot

namespace Settings

/-- What a setting cannot be. -/
inductive Error where
  /-- A kind of storage that does not exist. -/
  | unknownBackend (setting value : String)
  /-- No contact point. -/
  | noHosts
  /-- A name or an address that its storage refuses. -/
  | refused (e : Registry.Error)
  /-- No database URL. -/
  | noUrl
  /-- A setting that the bucket needs. -/
  | required (setting : String)
deriving DecidableEq, Repr

/-- Wording of an error. -/
def Error.message (e : Error) : String :=
  "Invalid configuration: " ++
    match e with
    | .unknownBackend setting value => s!"unknown {setting} " ++ Text.quoted value
    | .noHosts => "CASSANDRA_HOSTS must name at least one host"
    | .refused e => e.message
    | .noUrl => "SQL_URL is required when LFS_META_BACKEND=sql"
    | .required setting => s!"{setting} is required when LFS_CONTENT_BACKEND=s3"

/-- Where records are kept. -/
inductive RecordBackend where
  /-- In a key-value database in a file. -/
  | embedded
  /-- In a cluster of column stores. -/
  | column
  /-- In a relational database. -/
  | relational
deriving DecidableEq, Repr

/-- Where content is kept. -/
inductive ContentBackend where
  /-- In files. -/
  | filesystem
  /-- In a bucket. -/
  | bucket
deriving DecidableEq, Repr

/-- The settings of a bucket, of which some may be missing. -/
structure BucketSettings where
  /-- The address of the service. -/
  endpoint : Option String := none
  /-- The region. -/
  region : String := "us-east-1"
  /-- The bucket. -/
  bucket : Option String := none
  /-- The public name of the key. -/
  accessKeyId : Option String := none
  /-- The secret of the key. -/
  secretAccessKey : Option String := none
  /-- The access level. -/
  acl : Bucket.Acl := .private_
deriving DecidableEq, Repr

/-- A setting that may not be missing or empty. -/
def required (setting : String) (value : Option String) : Except Error String :=
  match value.filter fun v => !v.isEmpty with
  | some v => .ok v
  | none => .error (.required setting)

/-- The configuration of a bucket. -/
def BucketSettings.toConfig (s : BucketSettings) : Except Error Bucket.Config := do
  return {
    endpoint := s.endpoint
    region := s.region
    bucket := ← required "S3_BUCKET" s.bucket
    accessKeyId := ← required "S3_ACCESS_KEY_ID" s.accessKeyId
    secretAccessKey := ← required "S3_SECRET_ACCESS_KEY" s.secretAccessKey
    acl := s.acl }

end Settings

open Settings

/-- The settings of an installation. -/
structure Settings where
  /-- Whether everyone may ask for objects. -/
  isPublic : Bool := false
  /-- Whether accounts are kept in a directory elsewhere. -/
  directory : Bool := false
  /-- Where records are kept. -/
  records : RecordBackend := .embedded
  /-- The directory of the key-value database. -/
  dataDir : String := "./data"
  /-- The cluster. -/
  column : Column.Config := {}
  /-- The URL of the relational database. -/
  databaseUrl : String := "sqlite://lfs.db"
  /-- The most connections to the relational database. -/
  maxConnections : Nat := 5
  /-- Where content is kept. -/
  content : ContentBackend := .filesystem
  /-- The base directory of content in files. -/
  contentPath : String := "./lfs-content"
  /-- The bucket. -/
  bucket : BucketSettings := {}
deriving DecidableEq, Repr

namespace Settings

/-- Variables with their values. -/
abbrev Lookup := String → Option String

/-- Whether a switch is on. -/
def isOn (value : Option String) : Bool :=
  value.any fun v => ["true", "1", "yes"].contains (Text.lower v)

/-- The kind of storage of records with a name. -/
def recordBackend? : String → Option RecordBackend
  | "redb" => some .embedded
  | "cassandra" | "scylla" => some .column
  | "sql" | "sqlite" | "mysql" => some .relational
  | _ => none

/-- The kind of storage of content with a name. -/
def contentBackend? : String → Option ContentBackend
  | "filesystem" | "local" => some .filesystem
  | "s3" => some .bucket
  | _ => none

/-- Reads a kind of storage. Its name may be in upper case. -/
def readBackend {α : Type} (ofName? : String → Option α) (lookup : Lookup)
    (setting default : String) : Except Error α :=
  let name := Text.lower ((lookup setting).getD default)
  match ofName? name with
  | some kind => .ok kind
  | none => .error (.unknownBackend setting name)

/-- The names between commas, trimmed, without empty ones. -/
def splitHosts (text : String) : List String :=
  ((Text.pieces ',' text.toList).map fun part => Text.trim (String.ofList part)).filter
    fun host => !host.isEmpty

/-- Takes the settings from variables. -/
def read (lookup : Lookup) : Except Error Settings := do
  let defaults : Settings := {}
  let records ← readBackend recordBackend? lookup "LFS_META_BACKEND" "redb"
  let content ← readBackend contentBackend? lookup "LFS_CONTENT_BACKEND" "filesystem"
  return {
    isPublic := isOn (lookup "LFS_PUBLIC")
    directory := isOn (lookup "LDAP_ENABLED")
    records := records
    dataDir := (lookup "LFS_DATA_DIR").getD defaults.dataDir
    column := {
      hosts := ((lookup "CASSANDRA_HOSTS").map splitHosts).getD defaults.column.hosts
      keyspace := (lookup "CASSANDRA_KEYSPACE").getD defaults.column.keyspace
      environment := (lookup "LFS_ENV").getD defaults.column.environment
      username := lookup "CASSANDRA_USERNAME"
      password := lookup "CASSANDRA_PASSWORD" }
    databaseUrl := (lookup "SQL_URL").getD defaults.databaseUrl
    maxConnections :=
      ((lookup "SQL_MAX_CONNECTIONS").bind Text.word32?).getD defaults.maxConnections
    content := content
    contentPath := (lookup "LFS_CONTENT_PATH").getD defaults.contentPath
    bucket := {
      endpoint := (lookup "S3_ENDPOINT").filter fun v => !v.isEmpty
      region := (lookup "S3_REGION").getD defaults.bucket.region
      bucket := lookup "S3_BUCKET"
      accessKeyId := lookup "S3_ACCESS_KEY_ID"
      secretAccessKey := lookup "S3_SECRET_ACCESS_KEY"
      acl := ((lookup "S3_ACL").map Bucket.Acl.parse).getD defaults.bucket.acl } }

/-- Refuses settings that the storage of records cannot work with. -/
def validateRecords (s : Settings) : Except Error Unit :=
  match s.records with
  | .embedded => .ok ()
  | .column => do
    if s.column.hosts.isEmpty then throw .noHosts
    discard <| s.column.keyspaceName.mapError .refused
  | .relational => do
    if s.databaseUrl.isEmpty then throw .noUrl
    discard <| (Relational.Dialect.ofUrl s.databaseUrl).mapError .refused

/-- Refuses settings that the chosen storage cannot work with. -/
def validate (s : Settings) : Except Error Unit := do
  s.validateRecords
  if s.content = .bucket then discard s.bucket.toConfig

/-- The settings in variables, if they can work. -/
def ofLookup (lookup : Lookup) : Except Error Settings := do
  let s ← read lookup
  s.validate
  return s

/-- Whether a switch is on that has no effect. -/
def hasIdleDirectory (s : Settings) : Bool := s.isPublic && s.directory

end Settings

end Depot
