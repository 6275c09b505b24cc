import Depot.Content.Body
import Depot.Content.Key
import Depot.Program

/-!
# Content in files

Each object's content is a file below a base directory. An upload goes to a file of its own beside
the final one and takes its place once the content proves to be the object's, so that nobody reads
bytes that were not checked.
-/

namespace Depot.Files

open Content (Body Digest)
open Registry (Object)

/-- A computation over file operations that may fail. -/
abbrev Action (α : Type) := ExceptT Content.Error (Program Call Call.Reply) α

/-- A file operation whose failure `wrap` turns into that of the computation. -/
def operation (c : Call) (wrap : Fault → Content.Error := .io) : Action c.Answer :=
  ExceptT.mk ((Program.perform c).bind fun r => .done (r.mapError wrap))

/-- The failure to open the file of an object. -/
def openFailure (oid : String) : Fault → Content.Error
  | .notFound => .notFound oid
  | fault => .io fault

/-- The directory and the file name of an object. -/
def locate (base : Path) (oid : String) : Path := base ++ Content.keyParts oid

/-- The path of an upload: that of the object with a name of its own at the end. -/
def stagingPath (path : Path) (token : String) : Path :=
  path.dropLast ++ [path.getLast?.getD "" ++ "." ++ token ++ ".tmp"]

/-- Adds the reads of a body to a file. -/
def appendAll (p : Path) : List Bytes → Action Unit
  | [] => return ()
  | b :: rest => do
    operation (.append p b)
    appendAll p rest

/-- Writes an upload to its own file and moves that into place if it is the object's content. -/
def writeStaged (staging path : Path) (o : Object) (body : Body) : Action Unit := do
  operation (.createNew staging)
  appendAll staging body.reads
  match body.measure with
  | .error text => throw (.io (.broken text))
  | .ok digest =>
    digest.check o
    operation (.rename staging path)

/-- Stores the content of an object. The file of an upload that fails is removed. -/
def put (base : Path) (token : String) (o : Object) (body : Body) : Action Unit := do
  Content.checkOid o.oid
  let path := locate base o.oid
  operation (.makeDirs path.dropLast)
  let staging := stagingPath path token
  ExceptT.mk <| (writeStaged staging path o body).run.bind fun
    | .ok () => .done (.ok ())
    | .error e => (Program.perform (Call.remove staging)).bind fun _ => .done (.error e)

/-- The content of an object. -/
def get (base : Path) (oid : String) : Action Bytes := do
  Content.checkOid oid
  operation (.read (locate base oid)) (openFailure oid)

/-- Whether there is a file for an object. -/
def exists? (base : Path) (oid : String) : Program Call Call.Reply Bool :=
  match Content.checkOid oid with
  | .error _ => .done false
  | .ok () => (Program.perform (Call.status (locate base oid))).bind fun
    | .ok (.file _) => .done true
    | _ => .done false

/-- Compares the file of an object with it: its length before its bytes are read. -/
def verify (base : Path) (o : Object) : Action Unit := do
  Content.checkOid o.oid
  let path := locate base o.oid
  let length := (← operation (.status path) (openFailure o.oid)).length
  if (length : Int) ≠ o.size then throw (.sizeMismatch o.size length)
  (Digest.of (← operation (.read path) (openFailure o.oid))).check o

/-- Makes the base directory. -/
def openBase (base : Path) : Action Unit := operation (.makeDirs base)

end Depot.Files
