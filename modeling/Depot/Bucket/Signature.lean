import Depot.Calendar
import Depot.Digest.Hmac
import Depot.Text.Blank
import Depot.Url.Query

/-!
# Signed requests

Signature version 4: a request is written in a canonical form that does not depend on the order of
its headers and of its query, and signed with a key that is derived from the secret for a day, a
region and a service. The host is signed but left to the client to send.
-/

namespace Depot.Bucket

/-- Header names with values. -/
abbrev Headers := List (String × String)

/-- Who signs, and for which region. -/
structure Signer where
  /-- The public name of the key. -/
  accessKeyId : String
  /-- The secret of the key. -/
  secretAccessKey : String
  /-- The region. -/
  region : String
deriving DecidableEq, Repr

/-- The service that requests are signed for. -/
def service : String := "s3"

/-- The key for a day, a region and a service. -/
def signingKey (secret date region service : String) : Bytes :=
  [date, region, service, "aws4_request"].foldl (fun key part => Hmac.sign key (Bytes.utf8 part))
    (Bytes.utf8 ("AWS4" ++ secret))

/-- Headers as they are signed: names in lower case, values trimmed, in ascending order. -/
def canonicalHeaders (headers : Headers) (host : String) : Headers :=
  Text.sortPairs
    (headers.map (fun (name, value) => (Text.lower name, Text.trim value)) ++ [("host", host)])

/-- The names of headers with semicolons between them. -/
def headerNames (headers : Headers) : String := String.intercalate ";" (headers.map Prod.fst)

/-- The canonical form of a request. -/
def canonicalRequest (method : String) (url : Url) (signed : Headers) (payloadHash : String) :
    String :=
  String.intercalate "\n"
    [method, url.canonicalPath, url.canonicalQuery,
      String.join (signed.map fun (name, value) => name ++ ":" ++ value ++ "\n"),
      headerNames signed, payloadHash]

namespace Signer

/-- The day, region and service that a signature is for. -/
def scope (s : Signer) (date : String) : String :=
  s!"{date}/{s.region}/{service}/aws4_request"

/-- The text that is signed. -/
def stringToSign (s : Signer) (now : Calendar) (canonical : String) : String :=
  String.intercalate "\n"
    ["AWS4-HMAC-SHA256", now.stampText, s.scope now.dateText,
      Sha256.hexDigest (Bytes.utf8 canonical)]

/-- The signature of a canonical request. -/
def signature (s : Signer) (now : Calendar) (canonical : String) : String :=
  let key := signingKey s.secretAccessKey now.dateText s.region service
  Hex.encode (Hmac.sign key (Bytes.utf8 (s.stringToSign now canonical)))

/-- The value of the authorization header. -/
def authorization (s : Signer) (now : Calendar) (signed : Headers) (canonical : String) : String :=
  s!"AWS4-HMAC-SHA256 Credential={s.accessKeyId}/{s.scope now.dateText}, " ++
    s!"SignedHeaders={headerNames signed}, Signature={s.signature now canonical}"

/-- The headers to send with a request: the given ones, the date and the authorization. -/
def sign (s : Signer) (method : String) (url : Url) (headers : Headers) (payloadHash : String)
    (now : Calendar) : Headers :=
  let headers := headers ++ [("x-amz-date", now.stampText)]
  let signed := canonicalHeaders headers url.hostHeader
  headers ++
    [("authorization", s.authorization now signed (canonicalRequest method url signed payloadHash))]

end Signer

/-- Whether a text is a method: letters, digits and some marks. -/
def isMethod (text : String) : Bool :=
  !text.isEmpty && text.toList.all fun c => c.isAlphanum || "!#$%&'*+-.^_`|~".toList.contains c

/-- Why a request cannot be signed. -/
inductive SignError where
  /-- The address is no URL. -/
  | url (e : Url.Error)
  /-- The method is no token. -/
  | method
  /-- The time has no date. -/
  | time
deriving DecidableEq, Repr

/-- Wording of an error. -/
def SignError.message : SignError → String
  | .url e => e.message
  | .method => "invalid HTTP method"
  | .time => "timestamp out of range"

/-- Signs a request given by its texts and a time in seconds since the start of 1970. -/
def signText (s : Signer) (method url : String) (headers : Headers) (payloadHash : String)
    (seconds : Int) : Except SignError Headers := do
  let url ← (Url.parse url).mapError .url
  if !isMethod method then throw .method
  match Calendar.ofSeconds? seconds with
  | some now => return s.sign method url headers payloadHash now
  | none => throw .time

end Depot.Bucket
