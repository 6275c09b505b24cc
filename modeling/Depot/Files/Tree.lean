import Depot.Bytes.Basic
import Depot.Table
import Depot.Text.Cut

/-!
# File trees

Directories and files below a root, and the file operations that stores are written in. A path is
walked from the root: every name but the last one has to be that of a directory. Neither a name nor
a whole path may be too long.

Headlines
* `Tree.perform` says what each operation replies and what it leaves; `Tree.step` that this comes
  about if the system takes the paths that it is given.
-/

namespace Depot.Files

/-- A path from the root, as names. -/
abbrev Path := List String

/-- Why a file operation failed. -/
inductive Fault where
  /-- There is no such file. -/
  | notFound
  /-- There is such a file already. -/
  | exists
  /-- A name on the way is that of a file. -/
  | notDirectory
  /-- The path is that of a directory. -/
  | isDirectory
  /-- A name is longer than 255 bytes, or a path than the system takes. -/
  | nameTooLong
  /-- The bytes to store could not be read to their end. -/
  | broken (text : String)
deriving DecidableEq, Repr

/-- Wording of a fault: the system's own, with its number. -/
def Fault.message : Fault → String
  | .notFound => "No such file or directory (os error 2)"
  | .exists => "File exists (os error 17)"
  | .notDirectory => "Not a directory (os error 20)"
  | .isDirectory => "Is a directory (os error 21)"
  | .nameTooLong => "File name too long (os error 36)"
  | .broken text => text

/-- What stands at a path. -/
inductive Entry where
  /-- A directory. -/
  | directory
  /-- A file and its bytes. -/
  | file (bytes : Bytes)
deriving DecidableEq, Repr

/-- A tree: what stands at each path below the root. -/
structure Tree where
  /-- The entries. -/
  entries : Table Path Entry := ∅
  /-- The length that a directory shows, in which file systems differ: often that of one block. -/
  directoryLength : Nat := 4096
deriving DecidableEq

/-- What a look at a path shows. -/
inductive Status where
  /-- A directory, which has a length as well. -/
  | directory (length : Nat)
  /-- A file of some length. -/
  | file (length : Nat)
deriving DecidableEq, Repr

/-- The length that is shown. -/
def Status.length : Status → Nat
  | .directory length => length
  | .file length => length

/-- Whether a name is too long. -/
def tooLong (name : String) : Bool := name.utf8ByteSize > 255

/-- The bytes of a path as the system is given it, with a slash before each name. -/
def Path.size : Path → Nat
  | [] => 0
  | name :: rest => name.utf8ByteSize + 1 + Path.size rest

/-- The system takes the path: it has less than 4096 bytes. -/
def Path.Fits (p : Path) : Prop := Path.size p < 4096

instance (p : Path) : Decidable (Path.Fits p) := inferInstanceAs (Decidable (_ < _))

/-- The path of a text: the names between slashes, without empty ones and dots; two dots go up. -/
def Path.ofString (s : String) : Path :=
  ((Text.pieces '/' s.toList).map String.ofList).foldl
    (fun p name =>
      if name = "" ∨ name = "." then p else if name = ".." then p.dropLast else p ++ [name]) []

/-- The names of a path with slashes between them. -/
def Path.render (p : Path) : String := String.intercalate "/" p

namespace Tree

/-- Walks on from what stands at `place`. -/
def walkFrom (t : Tree) (place : Path) (entry : Entry) : Path → Except Fault Entry
  | [] => .ok entry
  | name :: rest =>
    match entry with
    | .file _ => .error .notDirectory
    | .directory =>
      if tooLong name then .error .nameTooLong
      else
        match t.entries.get? (place ++ [name]) with
        | some next => t.walkFrom (place ++ [name]) next rest
        | none => .error .notFound

/-- What stands at a path. -/
def look (t : Tree) (p : Path) : Except Fault Entry := t.walkFrom [] .directory p

/-- What stands at a path where something may be made: nothing or an entry of a directory that
is there. -/
def lookForNew (t : Tree) (p : Path) : Except Fault (Option Entry) :=
  match t.look p.dropLast with
  | .error e => .error e
  | .ok (.file _) => .error .notDirectory
  | .ok .directory =>
    if p.getLast?.any tooLong then .error .nameTooLong else .ok (t.entries.get? p)

/-- Puts an entry at a path. -/
def put (t : Tree) (p : Path) (e : Entry) : Tree := { t with entries := t.entries.insert p e }

/-- Takes the entry at a path away. -/
def erase (t : Tree) (p : Path) : Tree := { t with entries := t.entries.erase p }

/-- Makes the directories on a path from `place` on. Those made before a failure stay. -/
def makeDirsFrom (t : Tree) (place : Path) : Path → Except Fault Unit × Tree
  | [] => (.ok (), t)
  | name :: rest =>
    let p := place ++ [name]
    if tooLong name then (.error .nameTooLong, t)
    else
      match t.entries.get? p with
      | some .directory => t.makeDirsFrom p rest
      | some (.file _) => (.error (if rest.isEmpty then .exists else .notDirectory), t)
      | none => (t.put p .directory).makeDirsFrom p rest

/-- Makes the directories on a path. -/
def makeDirs (t : Tree) (p : Path) : Except Fault Unit × Tree := t.makeDirsFrom [] p

/-- Makes an empty file where nothing stands. -/
def createNew (t : Tree) (p : Path) : Except Fault Unit × Tree :=
  match t.lookForNew p with
  | .error e => (.error e, t)
  | .ok (some _) => (.error .exists, t)
  | .ok none => (.ok (), t.put p (.file []))

/-- Adds bytes at the end of a file. -/
def append (t : Tree) (p : Path) (b : Bytes) : Except Fault Unit × Tree :=
  match t.look p with
  | .error e => (.error e, t)
  | .ok .directory => (.error .isDirectory, t)
  | .ok (.file old) => (.ok (), t.put p (.file (old ++ b)))

/-- Moves a file, in the stead of one at its new path. -/
def rename (t : Tree) (source target : Path) : Except Fault Unit × Tree :=
  match t.look source, t.lookForNew target with
  | .error e, _ => (.error e, t)
  | _, .error e => (.error e, t)
  | .ok .directory, _ => (.error .isDirectory, t)
  | .ok (.file _), .ok (some .directory) => (.error .isDirectory, t)
  | .ok (.file b), .ok _ => (.ok (), (t.erase source).put target (.file b))

/-- Removes a file. -/
def remove (t : Tree) (p : Path) : Except Fault Unit × Tree :=
  match t.look p with
  | .error e => (.error e, t)
  | .ok .directory => (.error .isDirectory, t)
  | .ok (.file _) => (.ok (), t.erase p)

/-- What a look at a path shows. -/
def status (t : Tree) (p : Path) : Except Fault Status :=
  (t.look p).map fun
    | .directory => .directory t.directoryLength
    | .file b => .file b.length

/-- The bytes of a file. -/
def read (t : Tree) (p : Path) : Except Fault Bytes :=
  match t.look p with
  | .error e => .error e
  | .ok .directory => .error .isDirectory
  | .ok (.file b) => .ok b

/-- Writes a file, with the directories above it, in the stead of one that is there. -/
def write (t : Tree) (p : Path) (b : Bytes) : Except Fault Unit × Tree :=
  match t.makeDirs p.dropLast with
  | (.error e, t) => (.error e, t)
  | (.ok (), t) =>
    match t.lookForNew p with
    | .error e => (.error e, t)
    | .ok (some .directory) => (.error .isDirectory, t)
    | .ok _ => (.ok (), t.put p (.file b))

/-- Removes what stands at a path and below it. -/
def removeAll (t : Tree) (p : Path) : Except Fault Unit × Tree :=
  match t.look p with
  | .error e => (.error e, t)
  | .ok _ =>
    let below := t.entries.keys.filter fun q => p.isPrefixOf q
    (.ok (), { t with entries := below.foldl Table.erase t.entries })

/-- The paths below a path, as texts in ascending order; those of directories end in a slash. -/
def listing (t : Tree) (base : Path) : List String :=
  let below := t.entries.entries.filterMap fun (p, e) =>
    if base.isPrefixOf p ∧ base.length < p.length then
      some (Path.render (p.drop base.length) ++ if e = .directory then "/" else "")
    else none
  below.mergeSort fun a b => (compare a b).isLE

end Tree

/-- A file operation. -/
inductive Call where
  /-- Make the directories on a path. -/
  | makeDirs (p : Path)
  /-- Make an empty file where nothing stands. -/
  | createNew (p : Path)
  /-- Add bytes at the end of a file. -/
  | append (p : Path) (b : Bytes)
  /-- Move a file, in the stead of one at its new path. -/
  | rename (source target : Path)
  /-- Remove a file. -/
  | remove (p : Path)
  /-- Look at a path. -/
  | status (p : Path)
  /-- Read a file. -/
  | read (p : Path)
deriving DecidableEq, Repr

/-- What a successful file operation answers. -/
@[reducible] def Call.Answer : Call → Type
  | .makeDirs _ => Unit
  | .createNew _ => Unit
  | .append _ _ => Unit
  | .rename _ _ => Unit
  | .remove _ => Unit
  | .status _ => Status
  | .read _ => Bytes

/-- What a file operation replies: its answer, or why it failed. -/
@[reducible] def Call.Reply (c : Call) : Type := Except Fault c.Answer

/-- The paths that the system is given with a file operation. Bytes are added to a file that is open
already. -/
def Call.paths : Call → List Path
  | .makeDirs p => [p]
  | .createNew p => [p]
  | .append _ _ => []
  | .rename source target => [source, target]
  | .remove p => [p]
  | .status p => [p]
  | .read p => [p]

/-- The system takes the paths of a file operation. -/
def Call.Fits (c : Call) : Prop := ∀ p ∈ c.paths, Path.Fits p

instance (c : Call) : Decidable c.Fits := inferInstanceAs (Decidable (∀ p ∈ c.paths, Path.Fits p))

/-- What a file operation replies whose paths the system takes, and the tree after it. -/
def Tree.perform (t : Tree) : (c : Call) → c.Reply × Tree
  | .makeDirs p => t.makeDirs p
  | .createNew p => t.createNew p
  | .append p b => t.append p b
  | .rename source target => t.rename source target
  | .remove p => t.remove p
  | .status p => (t.status p, t)
  | .read p => (t.read p, t)

/-- What a file operation replies, and the tree after it. -/
def Tree.step (t : Tree) (c : Call) : c.Reply × Tree :=
  if c.Fits then t.perform c else (.error .nameTooLong, t)

end Depot.Files
