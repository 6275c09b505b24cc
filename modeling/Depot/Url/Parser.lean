import Depot.Url.Host

/-!
# URLs

Reading a URL the way browsers do: white space around it and line breaks in it do not count, known
schemes give their host and their path a meaning, dots in the path are resolved, and characters that
a part may not have are escaped.

Headlines
* `Url.parse` reads a URL, `Url.render` writes it.
-/

namespace Depot

/-- A URL in its parts, each as it is written. -/
structure Url where
  /-- The scheme, in lower case. -/
  scheme : String
  /-- The user before the host. -/
  user : String := ""
  /-- The password before the host. -/
  password : Option String := none
  /-- The host, if there is one. -/
  host : Option String := none
  /-- The port, if it is not the scheme's own. -/
  port : Option Nat := none
  /-- The path. -/
  path : String := ""
  /-- The query. -/
  query : Option String := none
  /-- The fragment. -/
  fragment : Option String := none
deriving DecidableEq, Repr

namespace Url

/-- The port of a scheme whose hosts have a meaning; a file has none. -/
def knownPort? : String → Option (Option Nat)
  | "http" | "ws" => some (some 80)
  | "https" | "wss" => some (some 443)
  | "ftp" => some (some 21)
  | "file" => some none
  | _ => none

/-- Whether a scheme gives hosts and paths a meaning. -/
def isSpecial (scheme : String) : Bool := (knownPort? scheme).isSome

/-- The characters that count: not those up to the space at both ends, nor tabs and line breaks. -/
def significant (s : String) : List Char :=
  (Text.stripWhile (·.toNat ≤ 0x20) s.toList).filter fun c => !"\t\n\r".toList.contains c

/-- The scheme and what follows its colon. -/
def splitScheme? (text : List Char) : Option (String × List Char) := do
  let (name, rest) ← Text.cut ':' text
  let first ← name.head?
  if first.isAlpha && name.all fun c => c.isAlphanum || "+-.".toList.contains c then
    some (String.ofList (name.map Char.toLower), rest)
  else none

/-- Whether a character ends the part of a URL that names a host. -/
def endsAuthority (special : Bool) (c : Char) : Bool :=
  c == '/' || c == '?' || c == '#' || (special && c == '\\')

/-- Characters that a user or a password may have. -/
def inUserinfo (c : Char) : Bool :=
  isNoControl c && !" \"<>`#?\x7b\x7d/:;=@[\\]^|".toList.contains c

/-- Characters that a path may have. -/
def inPath (c : Char) : Bool := isNoControl c && !" \"<>`#?\x7b\x7d".toList.contains c

/-- Characters that a query may have. -/
def inQuery (special : Bool) (c : Char) : Bool :=
  isNoControl c && !" \"#<>".toList.contains c && !(special && c == '\'')

/-- Characters that a fragment may have. -/
def inFragment (c : Char) : Bool := isNoControl c && !" \"<>`".toList.contains c

/-- A part with all but the allowed characters escaped. -/
def escaped (allowed : Char → Bool) (part : List Char) : String :=
  Percent.encodeWith allowed (String.ofList part)

/-- The parts of a text around the last occurrence of a character. -/
def cutLast (sep : Char) (l : List Char) : Option (List Char × List Char) :=
  (Text.cut sep l.reverse).map fun (after, before) => (before.reverse, after.reverse)

/-- The parts of a host and a port around the first colon outside brackets. -/
def cutPort (inside : Bool) : List Char → List Char × Option (List Char)
  | [] => ([], none)
  | c :: rest =>
    if c == ':' && !inside then ([], some rest)
    else
      let inside := if c == '[' then true else if c == ']' then false else inside
      let (host, port) := cutPort inside rest
      (c :: host, port)

/-- Reads a port. -/
def parsePort (text : List Char) : Except Error (Option Nat) :=
  if text.isEmpty then .ok none
  else if !text.all Char.isDigit then .error .badPort
  else
    match numberOf? 10 text with
    | some n => if n < 65536 then .ok (some n) else .error .badPort
    | none => .error .badPort

/-- Reads the part of a URL that names a host, with what precedes it and the port after it. -/
def parseAuthority (u : Url) (text : List Char) : Except Error Url := do
  let special := isSpecial u.scheme
  let (userinfo, rest) := match cutLast '@' text with
    | some (before, after) => (some before, after)
    | none => (none, text)
  let u := match userinfo with
    | none => u
    | some info =>
      match Text.cut ':' info with
      | none => { u with user := escaped inUserinfo info }
      | some (user, password) =>
        { u with
          user := escaped inUserinfo user
          password := if password.isEmpty then none else some (escaped inUserinfo password) }
  let (hostText, portText) := cutPort false rest
  if special && hostText.isEmpty then throw .emptyHost
  let host ← if special then parseHost hostText else parseOpaqueHost hostText
  if host.isEmpty && (portText.isSome || userinfo.any (!·.isEmpty)) then throw .emptyHost
  let port ← match portText with
    | some t => parsePort t
    | none => .ok none
  let known := (knownPort? u.scheme).join
  return { u with host := some host, port := if port = known then none else port }

/-- Whether a segment means the directory above. -/
def isUp (segment : List Char) : Bool :=
  ["..", ".%2e", "%2e.", "%2e%2e"].contains (String.ofList (segment.map Char.toLower))

/-- Whether a segment means the directory itself. -/
def isHere (segment : List Char) : Bool :=
  [".", "%2e"].contains (String.ofList (segment.map Char.toLower))

/-- Resolves dots: `done` holds the segments before, the last one first. -/
def resolve (done : List String) : List (List Char) → List String
  | [] => done.reverse
  | [last] =>
    if isUp last then ("" :: done.drop 1).reverse
    else if isHere last then ("" :: done).reverse
    else (escaped inPath last :: done).reverse
  | s :: rest =>
    if isUp s then resolve (done.drop 1) rest
    else if isHere s then resolve done rest
    else resolve (escaped inPath s :: done) rest

/-- A path that starts at a root, from the text after its first slash. -/
def rootedPath (special : Bool) (text : List Char) : String :=
  let text := if special then text.map fun c => if c == '\\' then '/' else c else text
  "/" ++ String.intercalate "/" (resolve [] (Text.pieces '/' text))

/-- Whether a character is a slash for a scheme. -/
def isSlash (special : Bool) (c : Char) : Bool := c == '/' || (special && c == '\\')

/-- The path after a host: known schemes always have one. -/
def pathAfterHost (special : Bool) : List Char → String
  | [] => if special then "/" else ""
  | c :: rest => if isSlash special c then rootedPath special rest else rootedPath special (c :: rest)

/-- Reads host and path after the slashes that announce a host. -/
def parseWithHost (u : Url) (text : List Char) : Except Error Url := do
  let special := isSpecial u.scheme
  let authority := text.takeWhile fun c => !endsAuthority special c
  let path := text.dropWhile fun c => !endsAuthority special c
  return { ← parseAuthority u authority with path := pathAfterHost special path }

/-- Reads the rest of a file's URL. Its host may be empty, and one that means this machine is. -/
def parseFile (u : Url) (text : List Char) : Except Error Url :=
  match text with
  | a :: b :: rest =>
    if isSlash true a && isSlash true b then do
      let name := rest.takeWhile fun c => !isSlash true c
      let path := pathAfterHost true (rest.dropWhile fun c => !isSlash true c)
      let host ← if name.isEmpty then .ok "" else parseHost name
      let host := if host = "localhost" then "" else host
      return { u with host := some host, path := path }
    else .ok { u with host := some "", path := pathAfterHost true text }
  | _ => .ok { u with host := some "", path := pathAfterHost true text }

/-- Reads what stands between the scheme and the query. -/
def parseBody (u : Url) (text : List Char) : Except Error Url :=
  if u.scheme = "file" then parseFile u text
  else if isSpecial u.scheme then parseWithHost u (text.dropWhile (isSlash true))
  else
    match text with
    | '/' :: '/' :: rest => parseWithHost u rest
    | '/' :: rest => .ok { u with path := rootedPath false rest }
    | _ => .ok { u with path := escaped isNoControl text }

/-- Reads a URL. -/
def parse (s : String) : Except Error Url :=
  match splitScheme? (significant s) with
  | none => .error .relative
  | some (scheme, rest) => do
    let (rest, fragment) := match Text.cut '#' rest with
      | some (before, after) => (before, some after)
      | none => (rest, none)
    let (body, query) := match Text.cut '?' rest with
      | some (before, after) => (before, some after)
      | none => (rest, none)
    let u ← parseBody { scheme := scheme } body
    return { u with
      query := query.map (escaped (inQuery (isSpecial scheme)))
      fragment := fragment.map (escaped inFragment) }

/-- User and password before a host. -/
def userinfo (u : Url) : String :=
  if u.user.isEmpty && u.password.isNone then ""
  else u.user ++ (u.password.elim "" (":" ++ ·)) ++ "@"

/-- Host and port as a request names them. -/
def hostHeader (u : Url) : String :=
  u.host.getD "" ++ (u.port.elim "" fun p => s!":{p}")

/-- Path and query as a request sends them. -/
def target (u : Url) : String := u.path ++ (u.query.elim "" ("?" ++ ·))

/-- The written form of a URL. -/
def render (u : Url) : String :=
  u.scheme ++ ":" ++ (if u.host.isSome then "//" ++ u.userinfo ++ u.hostHeader else "") ++
    u.target ++ (u.fragment.elim "" ("#" ++ ·))

end Url

end Depot
