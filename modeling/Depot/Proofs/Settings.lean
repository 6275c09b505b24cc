import Depot.Proofs.Content.Key
import Depot.Settings

/-!
# Settings that are accepted work

Settings are looked at once, when they are taken from variables. What was accepted then is what the
kinds of storage that were chosen ask for when they are opened. The variables of the other kinds are
read too, but neither what they say nor whether they are there makes a difference.

Headlines
* `Workable` says what the chosen kinds of storage ask of settings, **`ofLookup_eq_ok_iff`** that
  just the settings of which it holds are accepted.
* `chosenVariables` are the variables of the chosen kinds of storage, **`ofLookup_alike`**: what is
  made of variables depends on no others.
* **`accepted_settings`**: both together.
-/

namespace Depot

open Relational (Dialect)

/-! ### Names of keyspaces -/

namespace Column.Config

theorem keyspaceName_eq_ok_iff {c : Config} {name : String} : c.keyspaceName = .ok name ↔
    name = c.keyspace ++ "_" ++ c.environment ∧ name.utf8ByteSize ≤ longestName ∧
      ∀ ch ∈ name.toList, ch.isAlphanum = true ∨ ch = '_' := by
  have hall : ∀ text : String, (text.toList.all fun ch => ch.isAlphanum || ch == '_') = true ↔
      ∀ ch ∈ text.toList, ch.isAlphanum = true ∨ ch = '_' := by
    simp
  unfold keyspaceName
  simp only [hall]
  split
  · next h =>
    rw [Except.ok.injEq]
    exact ⟨fun heq => ⟨heq.symm, heq ▸ h.1, heq ▸ h.2⟩, fun heq => heq.1.symm⟩
  · next h =>
    refine ⟨fun heq => (nomatch heq), ?_⟩
    rintro ⟨rfl, hsize, hplain⟩
    exact absurd ⟨hsize, hplain⟩ h

end Column.Config

namespace Settings

variable {s t : Settings} {lookup l m : Lookup}

/-! ### What the chosen kinds of storage ask for -/

/-- A contact point that can be written between commas and is found again: it is something, has no
white space at its ends and no comma. -/
structure ContactPoint (host : String) : Prop where
  nonempty : host ≠ ""
  trimmed : Text.trim host = host
  whole : ',' ∉ host.toList

/-- What the kinds of storage that settings choose ask of them when they are opened. -/
structure Workable (s : Settings) : Prop where
  /-- A cluster has contact points and a keyspace of a short plain name. -/
  column : s.records = .column →
    s.column.hosts ≠ [] ∧ (∀ host ∈ s.column.hosts, ContactPoint host) ∧
    ∃ name, s.column.keyspaceName = .ok name ∧ name.toList.length ≤ 48 ∧
      ∀ ch ∈ name.toList, ch.isAlphanum = true ∨ ch = '_'
  /-- The address of a relational database names its engine. -/
  relational : s.records = .relational → ∃ d, Dialect.ofUrl s.databaseUrl = .ok d
  /-- A bucket has a name and a key. -/
  bucket : s.content = .bucket → ∃ c, s.bucket.toConfig = .ok c ∧
    c.bucket ≠ "" ∧ c.accessKeyId ≠ "" ∧ c.secretAccessKey ≠ ""

theorem required_eq_ok_iff {setting v : String} {value : Option String} :
    required setting value = .ok v ↔ value = some v ∧ v ≠ "" := by
  have hfilter : value.filter (fun v => !v.isEmpty) = some v ↔ value = some v ∧ v ≠ "" := by
    simp [Option.filter_eq_some_iff]
  rw [← hfilter]
  unfold required
  cases value.filter fun v => !v.isEmpty <;> simp

/-- What follows a step is done just if the step is. -/
theorem bind_eq_ok_iff {ε α β : Type} {x : Except ε α} {f : α → Except ε β} {b : β} :
    x >>= f = .ok b ↔ ∃ a, x = .ok a ∧ f a = .ok b := by
  cases x with
  | error e => simp [bind, Except.bind]
  | ok a => simp [bind, Except.bind]

/-- The configuration of a bucket has a name and a key. -/
theorem nonempty_of_toConfig {b : BucketSettings} {c : Bucket.Config} (h : b.toConfig = .ok c) :
    c.bucket ≠ "" ∧ c.accessKeyId ≠ "" ∧ c.secretAccessKey ≠ "" := by
  obtain ⟨bucket, hbucket, h⟩ := bind_eq_ok_iff.mp h
  obtain ⟨id, hid, h⟩ := bind_eq_ok_iff.mp h
  obtain ⟨secret, hsecret, h⟩ := bind_eq_ok_iff.mp h
  cases h
  exact ⟨(required_eq_ok_iff.mp hbucket).2, (required_eq_ok_iff.mp hid).2,
    (required_eq_ok_iff.mp hsecret).2⟩

/-- Contact points are read from a text between commas. -/
theorem contactPoint_of_mem_splitHosts {text host : String} (h : host ∈ splitHosts text) :
    ContactPoint host := by
  unfold splitHosts at h
  obtain ⟨hmem, hnonempty⟩ := List.mem_filter.mp h
  obtain ⟨piece, hpiece, rfl⟩ := List.mem_map.mp hmem
  refine ⟨by simpa using hnonempty, ?_, fun hcomma => ?_⟩
  · simp only [Text.trim, String.toList_ofList, Text.stripWhile_stripWhile]
  · -- A piece has no comma, and what is left of it is a part of it.
    unfold Text.trim at hcomma
    rw [String.toList_ofList, String.toList_ofList] at hcomma
    exact Text.not_mem_of_mem_pieces hpiece ((Text.stripWhile_sublist _ _).subset hcomma)

/-- All contact points that are taken from variables can be used, the one that is taken where there
is no variable too. -/
theorem contactPoint_of_read (h : read lookup = .ok s) :
    ∀ host ∈ s.column.hosts, ContactPoint host := by
  obtain ⟨records, -, h⟩ := bind_eq_ok_iff.mp h
  obtain ⟨content, -, h⟩ := bind_eq_ok_iff.mp h
  cases h
  intro host hhost
  cases hlookup : lookup "CASSANDRA_HOSTS" with
  | some text =>
    simp only [hlookup, Option.map_some, Option.getD_some] at hhost
    exact contactPoint_of_mem_splitHosts hhost
  | none =>
    simp only [hlookup, Option.map_none, Option.getD_none] at hhost
    obtain rfl := List.mem_singleton.mp hhost
    exact ⟨by decide, by decide +kernel, by decide⟩

/-- A check that refuses a flaw and what cannot be made finds nothing just if there is neither. -/
theorem check_eq_ok_iff {α : Type} {flawed : Bool} {why : Error} {x : Except Registry.Error α} :
    (do
      if flawed then throw why
      discard <| x.mapError .refused : Except Error Unit) = .ok () ↔
    flawed = false ∧ ∃ a, x = .ok a := by
  cases flawed with
  | true => exact iff_of_false (fun h => nomatch h) fun h => nomatch h.1
  | false =>
    cases x with
    | error e => exact iff_of_false (fun h => nomatch h) fun ⟨_, _, h⟩ => nomatch h
    | ok a => exact iff_of_true rfl ⟨rfl, a, rfl⟩

theorem validateRecords_eq_ok_iff : s.validateRecords = .ok () ↔
    (s.records = .column → s.column.hosts ≠ [] ∧ ∃ name, s.column.keyspaceName = .ok name) ∧
    (s.records = .relational → ∃ d, Dialect.ofUrl s.databaseUrl = .ok d) := by
  unfold validateRecords
  cases s.records with
  | embedded => simp
  | column =>
    simp only [check_eq_ok_iff, List.isEmpty_eq_false_iff, forall_const, reduceCtorEq,
      false_implies, and_true]
  | relational =>
    -- An empty address names no engine.
    have hempty : Dialect.ofUrl "" = .error (.invalidRequest (.databaseUrl "")) := rfl
    simp only [check_eq_ok_iff, forall_const, reduceCtorEq, false_implies, true_and]
    refine and_iff_right_of_imp ?_
    rintro ⟨d, hd⟩
    rw [Bool.eq_false_iff]
    intro h
    rw [String.isEmpty_iff.mp h, hempty] at hd
    exact nomatch hd

theorem validate_eq_ok_iff : s.validate = .ok () ↔ s.validateRecords = .ok () ∧
    (s.content = .bucket → ∃ c, s.bucket.toConfig = .ok c) := by
  unfold validate
  rw [bind_eq_ok_iff]
  have hcontent : (if s.content = .bucket then discard s.bucket.toConfig else pure ()) =
      (.ok () : Except Error Unit) ↔ (s.content = .bucket → ∃ c, s.bucket.toConfig = .ok c) := by
    by_cases hk : s.content = .bucket
    · rw [if_pos hk]
      cases s.bucket.toConfig with
      | error e => exact iff_of_false (fun h => nomatch h) fun h => nomatch (h hk).choose_spec
      | ok c => exact iff_of_true rfl fun _ => ⟨c, rfl⟩
    · rw [if_neg hk]
      exact iff_of_true rfl fun h => absurd h hk
  constructor
  · rintro ⟨⟨⟩, hrecords, hrest⟩
    exact ⟨hrecords, hcontent.mp hrest⟩
  · rintro ⟨hrecords, hrest⟩
    exact ⟨(), hrecords, hcontent.mpr hrest⟩

/-- What was taken from variables is found right just if the chosen kinds of storage can work with
it. -/
theorem validate_iff_workable (hread : read lookup = .ok s) :
    s.validate = .ok () ↔ s.Workable := by
  rw [validate_eq_ok_iff, validateRecords_eq_ok_iff]
  constructor
  · rintro ⟨⟨hcolumn, hrelational⟩, hbucket⟩
    refine ⟨fun hk => ?_, hrelational, fun hk => ?_⟩
    · obtain ⟨hhosts, name, hname⟩ := hcolumn hk
      obtain ⟨-, hsize, hplain⟩ := Column.Config.keyspaceName_eq_ok_iff.mp hname
      exact ⟨hhosts, contactPoint_of_read hread, name, hname,
        (Content.length_le_utf8ByteSize name).trans hsize, hplain⟩
    · obtain ⟨c, hc⟩ := hbucket hk
      exact ⟨c, hc, nonempty_of_toConfig hc⟩
  · intro h
    refine ⟨⟨fun hk => ?_, h.relational⟩, fun hk => ?_⟩
    · obtain ⟨hhosts, -, name, hname, -⟩ := h.column hk
      exact ⟨hhosts, name, hname⟩
    · obtain ⟨c, hc, -⟩ := h.bucket hk
      exact ⟨c, hc⟩

/-- **Just the settings that can work are accepted.** -/
theorem ofLookup_eq_ok_iff : ofLookup lookup = .ok s ↔ read lookup = .ok s ∧ s.Workable := by
  unfold ofLookup
  simp only [bind_eq_ok_iff]
  constructor
  · rintro ⟨s', hread, ⟨⟩, hvalid, hs⟩
    cases hs
    exact ⟨hread, (validate_iff_workable hread).mp hvalid⟩
  · rintro ⟨hread, hworks⟩
    exact ⟨s, hread, (), (validate_iff_workable hread).mpr hworks, rfl⟩

/-! ### Variables of other kinds of storage -/

/-- The variables of a kind of storage of records. -/
def RecordBackend.variables : RecordBackend → List String
  | .embedded => ["LFS_DATA_DIR"]
  | .column => ["CASSANDRA_HOSTS", "CASSANDRA_KEYSPACE", "LFS_ENV", "CASSANDRA_USERNAME",
      "CASSANDRA_PASSWORD"]
  | .relational => ["SQL_URL", "SQL_MAX_CONNECTIONS"]

/-- The variables of a kind of storage of content. -/
def ContentBackend.variables : ContentBackend → List String
  | .filesystem => ["LFS_CONTENT_PATH"]
  | .bucket => ["S3_ENDPOINT", "S3_REGION", "S3_BUCKET", "S3_ACCESS_KEY_ID",
      "S3_SECRET_ACCESS_KEY", "S3_ACL"]

/-- The variables that choose the kinds of storage, and those of the kinds that they choose. A name
that no kind has chooses none. -/
def chosenVariables (lookup : Lookup) : List String :=
  let records := readBackend recordBackend? lookup "LFS_META_BACKEND" "redb"
  let content := readBackend contentBackend? lookup "LFS_CONTENT_BACKEND" "filesystem"
  ["LFS_META_BACKEND", "LFS_CONTENT_BACKEND"] ++
    (records.toOption.elim [] RecordBackend.variables ++
      content.toOption.elim [] ContentBackend.variables)

/-- Two settings choose the same kinds of storage and give them the same. -/
structure Alike (s t : Settings) : Prop where
  records : s.records = t.records
  content : s.content = t.content
  embedded : s.records = .embedded → s.dataDir = t.dataDir
  column : s.records = .column → s.column = t.column
  relational : s.records = .relational →
    s.databaseUrl = t.databaseUrl ∧ s.maxConnections = t.maxConnections
  filesystem : s.content = .filesystem → s.contentPath = t.contentPath
  bucket : s.content = .bucket → s.bucket = t.bucket

/-- Two sets of variables come to settings that are alike, or are refused with one error. -/
inductive AlikeOutcomes : Except Error Settings → Except Error Settings → Prop
  /-- Both are accepted. -/
  | accepted {s t : Settings} (h : Alike s t) : AlikeOutcomes (.ok s) (.ok t)
  /-- Both are refused. -/
  | refused (e : Error) : AlikeOutcomes (.error e) (.error e)

/-- Settings that are alike are checked alike. -/
theorem Alike.validate_eq (h : Alike s t) : s.validate = t.validate := by
  have hrecords : s.validateRecords = t.validateRecords := by
    unfold validateRecords
    rw [← h.records]
    cases hk : s.records with
    | embedded => rfl
    | column => simp only [h.column hk]
    | relational => simp only [(h.relational hk).1]
  have hbucket : (if s.content = .bucket then discard s.bucket.toConfig else pure ()) =
      (if t.content = .bucket then discard t.bucket.toConfig else pure () :
        Except Error Unit) := by
    rw [← h.content]
    split
    · next hk => rw [h.bucket hk]
    · rfl
  unfold validate
  rw [hrecords, hbucket]

/-- **Settings are taken alike from variables that agree where they are chosen.** -/
theorem read_alike (h : ∀ v ∈ chosenVariables l, l v = m v) : AlikeOutcomes (read l) (read m) := by
  have hrecords : readBackend recordBackend? m "LFS_META_BACKEND" "redb" =
      readBackend recordBackend? l "LFS_META_BACKEND" "redb" := by
    unfold readBackend
    rw [h "LFS_META_BACKEND" (by simp [chosenVariables])]
  have hcontent : readBackend contentBackend? m "LFS_CONTENT_BACKEND" "filesystem" =
      readBackend contentBackend? l "LFS_CONTENT_BACKEND" "filesystem" := by
    unfold readBackend
    rw [h "LFS_CONTENT_BACKEND" (by simp [chosenVariables])]
  unfold chosenVariables at h
  unfold read
  rw [hrecords, hcontent]
  cases hr : readBackend recordBackend? l "LFS_META_BACKEND" "redb" with
  | error e => exact .refused e
  | ok records =>
    cases hc : readBackend contentBackend? l "LFS_CONTENT_BACKEND" "filesystem" with
    | error e => exact .refused e
    | ok content =>
      rw [hr, hc] at h
      have hgiven := (List.forall_mem_append.mp h).2
      obtain ⟨hrecordsGiven, hcontentGiven⟩ := List.forall_mem_append.mp hgiven
      refine .accepted ⟨rfl, rfl, ?_, ?_, ?_, ?_, ?_⟩
      · rintro rfl
        rw [hrecordsGiven "LFS_DATA_DIR" (by decide)]
      · rintro rfl
        rw [hrecordsGiven "CASSANDRA_HOSTS" (by decide),
          hrecordsGiven "CASSANDRA_KEYSPACE" (by decide), hrecordsGiven "LFS_ENV" (by decide),
          hrecordsGiven "CASSANDRA_USERNAME" (by decide),
          hrecordsGiven "CASSANDRA_PASSWORD" (by decide)]
      · rintro rfl
        rw [hrecordsGiven "SQL_URL" (by decide), hrecordsGiven "SQL_MAX_CONNECTIONS" (by decide)]
        exact ⟨rfl, rfl⟩
      · rintro rfl
        rw [hcontentGiven "LFS_CONTENT_PATH" (by decide)]
      · rintro rfl
        rw [hcontentGiven "S3_ENDPOINT" (by decide), hcontentGiven "S3_REGION" (by decide),
          hcontentGiven "S3_BUCKET" (by decide), hcontentGiven "S3_ACCESS_KEY_ID" (by decide),
          hcontentGiven "S3_SECRET_ACCESS_KEY" (by decide), hcontentGiven "S3_ACL" (by decide)]

/-- **What is made of variables depends on those of the chosen kinds of storage alone.** -/
theorem ofLookup_alike (h : ∀ v ∈ chosenVariables l, l v = m v) :
    AlikeOutcomes (ofLookup l) (ofLookup m) := by
  have hread := read_alike h
  unfold ofLookup
  generalize read l = x at hread ⊢
  generalize read m = y at hread ⊢
  cases hread with
  | refused e => exact .refused e
  | @accepted s t halike =>
    show AlikeOutcomes (s.validate >>= fun _ => .ok s) (t.validate >>= fun _ => .ok t)
    rw [halike.validate_eq]
    cases t.validate with
    | error e => exact .refused e
    | ok _ => exact .accepted halike

/-- Of outcomes that are alike both or none is an acceptance. -/
theorem AlikeOutcomes.accepts_iff {x y : Except Error Settings} (h : AlikeOutcomes x y) :
    (∃ s, x = .ok s) ↔ ∃ t, y = .ok t := by
  cases h with
  | @accepted s t _ => exact iff_of_true ⟨s, rfl⟩ ⟨t, rfl⟩
  | refused e => exact iff_of_false (fun ⟨_, h⟩ => nomatch h) fun ⟨_, h⟩ => nomatch h

/-- **Just the settings that can work are accepted, whatever is said of other kinds of storage.**
Variables that agree where they choose kinds of storage, and on what these are given, are accepted
or refused alike. -/
theorem accepted_settings :
    (∀ lookup s, ofLookup lookup = .ok s ↔ read lookup = .ok s ∧ s.Workable) ∧
    ∀ l m, (∀ v ∈ chosenVariables l, l v = m v) →
      ((∃ s, ofLookup l = .ok s) ↔ ∃ t, ofLookup m = .ok t) ∧
      AlikeOutcomes (ofLookup l) (ofLookup m) := by
  refine ⟨fun lookup s => ofLookup_eq_ok_iff, fun l m hagree => ?_⟩
  have halike := ofLookup_alike hagree
  exact ⟨halike.accepts_iff, halike⟩

/-- The variables of a cluster and a bucket. -/
def clustered : Lookup := fun name =>
  [("LFS_META_BACKEND", "Cassandra"), ("CASSANDRA_HOSTS", " a:9042,, b:9042 "),
    ("LFS_ENV", "test"), ("LFS_CONTENT_BACKEND", "S3"), ("S3_BUCKET", "lfs"),
    ("S3_ACCESS_KEY_ID", "id"), ("S3_SECRET_ACCESS_KEY", "secret")].lookup name

/-- The same variables with the address of a database that no engine has. -/
def strayed : Lookup := fun name =>
  if name = "SQL_URL" then some "postgres://db/lfs" else clustered name

/-- An address that would be refused of a database is not looked at in a cluster. -/
theorem stray_address_accepted :
    (∀ v ∈ chosenVariables clustered, clustered v = strayed v) ∧
    (∃ s, ofLookup strayed = .ok s ∧ s.Workable) ∧
    (ofLookup fun name => if name = "LFS_META_BACKEND" then some "sql" else strayed name) =
      .error (.refused (.invalidRequest (.databaseUrl "postgres://db/lfs"))) := by
  have hagree : ∀ v ∈ chosenVariables clustered, clustered v = strayed v := by decide +kernel
  have hclustered : ∃ s, ofLookup clustered = .ok s := ⟨_, rfl⟩
  obtain ⟨s, hs⟩ := (accepted_settings.2 clustered strayed hagree).1.mp hclustered
  exact ⟨hagree, ⟨s, hs, ((accepted_settings.1 strayed s).mp hs).2⟩, rfl⟩

end Settings

end Depot
