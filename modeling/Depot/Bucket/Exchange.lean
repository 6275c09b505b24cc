import Depot.Bucket.Signature
import Depot.Text.Decimal

/-!
# Requests and responses

What a bucket store sends, the message that comes back, and what a client makes of that: which
messages are no answer at all, and where the body ends.

Headlines
* `receive` reads a message as the response to a request.
-/

namespace Depot.Bucket

/-- What a request asks for. -/
inductive Method where
  /-- The headers only. -/
  | head
  /-- The content. -/
  | get
  /-- To store content. -/
  | put
  /-- To remove content. -/
  | delete
deriving DecidableEq, Repr

/-- The name of a method. -/
def Method.name : Method → String
  | .head => "HEAD"
  | .get => "GET"
  | .put => "PUT"
  | .delete => "DELETE"

/-- A request. -/
structure Request where
  /-- What it asks for. -/
  method : Method
  /-- The address. -/
  url : Url
  /-- The headers, in the order they are sent in. -/
  headers : Headers
  /-- The body, if there is one. -/
  body : Option Bytes := none
deriving DecidableEq, Repr

/-- Whether a character may stand in the value of a header. -/
def inHeader (c : Char) : Bool := c == '\t' || (0x20 ≤ c.toNat && c != '\x7f')

/-- Whether a request can be sent at all: by its scheme, and by what its headers say. -/
def Request.canBeSent (r : Request) : Bool :=
  (r.url.scheme == "http" || r.url.scheme == "https") &&
    r.headers.all fun (_, value) => value.toList.all inHeader

/-- The value of a header. -/
def Request.header? (r : Request) (name : String) : Option String :=
  (r.headers.find? fun h => h.1 == name).map Prod.snd

/-- An answer as it is sent. -/
structure Message where
  /-- The status. -/
  status : Nat
  /-- What the header says about the length of the body, if it says anything. -/
  length : Option String
  /-- The bytes that follow the headers. -/
  body : Bytes
deriving DecidableEq, Repr

/-- An answer as it is read. -/
structure Response where
  /-- The status. -/
  status : Nat
  /-- What the header says about the length of the body, if it says anything. -/
  length : Option String
  /-- The body, unless it broke off. -/
  body : Option Bytes
deriving DecidableEq, Repr

/-- Whether a status is a success. -/
def isSuccess (status : Nat) : Bool := 200 ≤ status && status < 300

/-- Whether a status ends an exchange: those below 200 announce another one, but for the change of
protocols. -/
def isFinal (status : Nat) : Bool := status == 101 || (200 ≤ status && status < 1000)

/-- Whether a status goes without a body. -/
def isBodiless (status : Nat) : Bool := status == 101 || status == 204 || status == 304

/-- The longest body that a header can announce. -/
def longestBody : Nat := 0xfffffffffffffffd

/-- Whether a character may stand around the value of a header. -/
def isPadding (c : Char) : Bool := c == ' ' || c == '\t'

/-- The length that a header announces: digits, or the same digits several times with commas
between them. -/
def announced? (text : String) : Option Nat := do
  let parts := (Text.pieces ',' text.toList).map (Text.stripWhile Text.isBlank)
  let lengths ← parts.mapM Text.digits?
  let first ← lengths.head?
  if lengths.all (· == first) && first ≤ longestBody then some first else none

/-- The body of an answer, from the bytes that follow its headers: as many as announced, or all of
them. The outer layer is missing if what is announced is no length, the inner one if there are too
few bytes. -/
def bodyOf? (length : Option String) (bytes : Bytes) : Option (Option Bytes) :=
  match length with
  | none => some (some bytes)
  | some text =>
    (announced? text).map fun n => if n ≤ bytes.length then some (bytes.take n) else none

/-- Reads a message as the response to a request; none if it is no answer. -/
def receive (method : Method) (m : Message) : Option Response :=
  if !isFinal m.status then none
  else
    let length := m.length.map fun text => String.ofList (Text.stripWhile isPadding text.toList)
    if method = .head ∨ isBodiless m.status then some ⟨m.status, length, some []⟩
    else (bodyOf? length m.body).map fun body => ⟨m.status, length, body⟩

/-- The text of a body; none of one that broke off. -/
def Response.text (r : Response) : String := (r.body.map Bytes.lossyText).getD ""

/-- The reasons that go with statuses. -/
def reasons : List (Nat × String) :=
  [(100, "Continue"), (101, "Switching Protocols"), (102, "Processing"), (200, "OK"),
   (201, "Created"), (202, "Accepted"), (203, "Non Authoritative Information"),
   (204, "No Content"), (205, "Reset Content"), (206, "Partial Content"), (207, "Multi-Status"),
   (208, "Already Reported"), (226, "IM Used"), (300, "Multiple Choices"),
   (301, "Moved Permanently"), (302, "Found"), (303, "See Other"), (304, "Not Modified"),
   (305, "Use Proxy"), (307, "Temporary Redirect"), (308, "Permanent Redirect"),
   (400, "Bad Request"), (401, "Unauthorized"), (402, "Payment Required"), (403, "Forbidden"),
   (404, "Not Found"), (405, "Method Not Allowed"), (406, "Not Acceptable"),
   (407, "Proxy Authentication Required"), (408, "Request Timeout"), (409, "Conflict"),
   (410, "Gone"), (411, "Length Required"), (412, "Precondition Failed"),
   (413, "Payload Too Large"), (414, "URI Too Long"), (415, "Unsupported Media Type"),
   (416, "Range Not Satisfiable"), (417, "Expectation Failed"), (418, "I'm a teapot"),
   (421, "Misdirected Request"), (422, "Unprocessable Entity"), (423, "Locked"),
   (424, "Failed Dependency"), (425, "Too Early"), (426, "Upgrade Required"),
   (428, "Precondition Required"), (429, "Too Many Requests"),
   (431, "Request Header Fields Too Large"), (451, "Unavailable For Legal Reasons"),
   (500, "Internal Server Error"), (501, "Not Implemented"), (502, "Bad Gateway"),
   (503, "Service Unavailable"), (504, "Gateway Timeout"), (505, "HTTP Version Not Supported"),
   (506, "Variant Also Negotiates"), (507, "Insufficient Storage"), (508, "Loop Detected"),
   (510, "Not Extended"), (511, "Network Authentication Required")]

/-- A status with its reason. -/
def statusText (status : Nat) : String :=
  s!"{status} " ++ (reasons.lookup status).getD "<unknown status code>"

end Depot.Bucket
