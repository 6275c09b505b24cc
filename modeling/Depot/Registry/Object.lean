import Depot.Table

/-!
# Objects, projects and users

What a registry records: objects by their content's digest, projects with the objects committed to
them, and the users who may ask.
-/

namespace Depot.Registry

/-- A recorded object. -/
structure Object where
  /-- The digest of its content. -/
  oid : String
  /-- The length of its content. -/
  size : Int
  /-- The projects it belongs to. -/
  projects : List String
  /-- Whether it is committed; until then it is pending. -/
  existing : Bool
deriving DecidableEq, Repr

/-- A named group of objects. -/
structure Project where
  /-- Its name. -/
  name : String
  /-- The objects committed to it. -/
  oids : List String
deriving DecidableEq, Repr

/-- An account of the registry's own password table. -/
structure User where
  /-- Its name. -/
  name : String
deriving DecidableEq, Repr

/-- Whether a text is a digest: 64 lower-case hexadecimal digits. -/
def isDigest (oid : String) : Bool :=
  oid.toList.length == 64 &&
    oid.toList.all fun c => ('0' ≤ c && c ≤ '9') || ('a' ≤ c && c ≤ 'f')

/-- The position of a member not beyond the wanted one, found by halving: of the `size` members from
`base`, each half is left unless its first member lies beyond. -/
def halve (l : Array String) (wanted : String) (base : Nat) (size : Nat) : Nat :=
  if size > 1 then
    let half := size / 2
    let middle := base + half
    let base' := if compare (l.getD middle "") wanted = .gt then base else middle
    halve l wanted base' (size - half)
  else base
termination_by size

/-- Where a name is in a list, or the position at which it can be put. -/
def search (l : List String) (wanted : String) : Except Nat Nat :=
  if l.isEmpty then .error 0
  else
    let a := l.toArray
    let base := halve a wanted 0 a.size
    match compare (a.getD base "") wanted with
    | .eq => .ok base
    | .lt => .error (base + 1)
    | .gt => .error base

/-- Adds an object id at the position that a binary search gives, and tells whether it was absent.
In an ascending list that position keeps the order. -/
def insertOid (l : List String) (oid : String) : Bool × List String :=
  match search l oid with
  | .ok _ => (false, l)
  | .error i => (true, l.take i ++ oid :: l.drop i)

/-- A project without objects. -/
def Project.empty (name : String) : Project := ⟨name, []⟩

/-- Adds an object to a project that does not hold it yet. -/
def Project.insert (p : Project) (oid : String) : Project := ⟨p.name, (insertOid p.oids oid).2⟩

/-- A list of names in ascending order. -/
def sortNames (names : List String) : List String :=
  names.mergeSort fun a b => (compare a b).isLE

end Depot.Registry
