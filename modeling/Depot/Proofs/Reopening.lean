import Depot.Backend
import Depot.Disk
import Depot.Proofs.Files.Tree

/-!
# Databases that are opened again

A database is opened at an address, and what is opened there later depends on what its file keeps in
between. That a file keeps what has been written is assumed of the disk; opening the database again
gives then what it was, and nothing of a database that is in no file.

Headlines
* **`Disk.Keeps`**: what is assumed of a disk; **`Disk.keeps_of_open`**: it holds of a database that
  has just been opened.
* **`Disk.Keeps.open_again`**: opening again gives back the tables.
-/

namespace Depot

open Files (Path Tree)
open Registry (Error)

namespace Disk

/-- Where a database is opened. -/
inductive Address where
  /-- An embedded database in a directory. -/
  | directory (dir : Path)
  /-- A relational database. -/
  | location (l : Relational.Location)

/-- Opens the database at an address. -/
def openBackend (d : Disk) : Address → Except Error Backend × Disk
  | .directory dir =>
    let (opened, d) := d.openEmbedded dir
    (opened.map .embedded, d)
  | .location l =>
    let (opened, d) := d.openRelational l
    (opened.map .relational, d)

/-- **What is assumed of a disk**: what has been written to the database at an address is in its file,
which is still where it was. Of a database that is in no file nothing is kept. -/
inductive Keeps (d : Disk) : Address → Backend → Prop
  /-- The directory of an embedded database is there, and its file has the tables. -/
  | embedded {dir : Path} {e : Embedded.Database} (there : d.files.look dir = .ok .directory)
    (kept : d.embedded.get? (embeddedPath dir) = some (.tables e.tables)) :
    Keeps d (.directory dir) (.embedded e)
  /-- The file of a relational database has the tables. -/
  | relational {l : Relational.Location} {name : String} {r : Relational.Database}
    (file : l.file = some name) (lasting : r.lasting = true)
    (kept : d.relational.get? (Path.ofString name) = some r.tables) :
    Keeps d (.location l) (.relational r)
  /-- A relational database is in no file. -/
  | memory {l : Relational.Location} {r : Relational.Database} (file : l.file = none)
    (fleeting : r.lasting = false) : Keeps d (.location l) (.relational r)

variable {d : Disk} {a : Address} {b : Backend}

/-- What is put in a directory leaves the directory. -/
theorem look_putEmbedded {dir : Path} (h : d.files.look dir = .ok .directory)
    (f : Embedded.File) :
    (d.putEmbedded (embeddedPath dir) f).files.look dir = .ok .directory := by
  refine Tree.look_put_of_not_isPrefix (fun hstarts => ?_) h
  have hle := hstarts.length_le
  unfold embeddedPath at hle
  rw [List.length_append, List.length_singleton] at hle
  omega

theorem keeps_openEmbedded {dir : Path} {e : Embedded.Database}
    (h : (d.openEmbedded dir).1 = .ok e) :
    (d.openEmbedded dir).2.Keeps (.directory dir) (.embedded e) := by
  have hdirs := @Tree.look_makeDirs d.files dir
  unfold openEmbedded at h ⊢
  generalize d.files.makeDirs dir = made at h hdirs ⊢
  obtain ⟨outcome, files⟩ := made
  cases outcome with
  | error fault => exact nomatch h
  | ok _ =>
    have hthere : files.look dir = .ok .directory := hdirs rfl
    simp only at h ⊢
    cases hfile : d.embedded.get? (embeddedPath dir) with
    | some file =>
      rw [hfile] at h
      cases file with
      | mistyped => exact nomatch h
      | tables t =>
        obtain rfl := Except.ok.inj h
        exact .embedded hthere hfile
    | none =>
      rw [hfile] at h
      simp only at h ⊢
      split at h
      · obtain rfl := Except.ok.inj h
        exact .embedded (look_putEmbedded (d := { d with files := files }) hthere _)
          ((Table.get?_insert ..).trans (if_pos rfl))
      · obtain rfl := Except.ok.inj h
        exact .embedded (look_putEmbedded (d := { d with files := files }) hthere _)
          ((Table.get?_insert ..).trans (if_pos rfl))
      · exact nomatch h

theorem keeps_openRelational {l : Relational.Location} {r : Relational.Database}
    (h : (d.openRelational l).1 = .ok r) :
    (d.openRelational l).2.Keeps (.location l) (.relational r) := by
  unfold openRelational at h ⊢
  cases hfile : l.file with
  | none =>
    rw [hfile] at h
    obtain rfl := Except.ok.inj h
    exact .memory hfile rfl
  | some name =>
    rw [hfile] at h
    have hmade : (d.putRelational (Path.ofString name) {}).Keeps (.location l) (.relational {}) :=
      .relational hfile rfl ((Table.get?_insert ..).trans (if_pos rfl))
    simp only at h ⊢
    split at h
    · next heq =>
      obtain rfl := Except.ok.inj h
      exact .relational hfile rfl heq
    · split at h
      · next hcreate =>
        obtain rfl := Except.ok.inj h
        rw [if_pos hcreate]
        exact hmade
      · exact nomatch h
    · split at h
      · exact nomatch h
      · next hwrite =>
        obtain rfl := Except.ok.inj h
        rw [if_neg hwrite]
        exact hmade
    · exact nomatch h

/-- **A database that has just been opened is kept.** -/
theorem keeps_of_open (h : (d.openBackend a).1 = .ok b) : (d.openBackend a).2.Keeps a b := by
  cases a with
  | directory dir =>
    have hkeeps := @keeps_openEmbedded d dir
    simp only [openBackend] at h ⊢
    generalize d.openEmbedded dir = opening at h hkeeps ⊢
    obtain ⟨opened, d'⟩ := opening
    cases opened with
    | error e => exact nomatch h
    | ok e =>
      obtain rfl := Except.ok.inj h
      exact hkeeps rfl
  | location l =>
    have hkeeps := @keeps_openRelational d l
    simp only [openBackend] at h ⊢
    generalize d.openRelational l = opening at h hkeeps ⊢
    obtain ⟨opened, d'⟩ := opening
    cases opened with
    | error e => exact nomatch h
    | ok r =>
      obtain rfl := Except.ok.inj h
      exact hkeeps rfl

/-- **Opening again gives back the tables**, those of a database in a file. -/
theorem Keeps.open_again (h : d.Keeps a b) : (d.openBackend a).1 = .ok b.reopen := by
  cases h with
  | embedded there kept =>
    unfold openBackend openEmbedded
    simp only [Tree.makeDirs_of_look there, kept]
    rfl
  | @relational l name r file lasting kept =>
    obtain ⟨tables, closed, _⟩ := r
    obtain rfl := lasting
    unfold openBackend openRelational
    simp only [file, kept]
    rfl
  | @memory l r file fleeting =>
    obtain ⟨tables, closed, _⟩ := r
    obtain rfl := fleeting
    unfold openBackend openRelational
    simp only [file]
    rfl

end Disk

end Depot
