import Depot.Bytes.Percent
import Depot.Url.Address
import Depot.Url.Domain

/-!
# Hosts of URLs

The written forms of a host: a domain name, an IPv4 address in any of its spellings, an IPv6 address
between brackets, or, for schemes that give hosts no meaning, any text without separators. Reading
gives the one form under which a host is shown.
-/

namespace Depot.Url

/-- Why a text is no URL. -/
inductive Error where
  /-- There is no scheme. -/
  | relative
  /-- The host is missing. -/
  | emptyHost
  /-- The host is no domain name. -/
  | badDomain
  /-- The port is no number below 65536. -/
  | badPort
  /-- The host is a wrong IPv4 address. -/
  | badIpv4
  /-- The host is a wrong IPv6 address. -/
  | badIpv6
  /-- The host has a character that no host may have. -/
  | badHostChar
deriving DecidableEq, Repr

/-- Wording of an error. -/
def Error.message : Error → String
  | .relative => "relative URL without a base"
  | .emptyHost => "empty host"
  | .badDomain => "invalid international domain name"
  | .badPort => "invalid port number"
  | .badIpv4 => "invalid IPv4 address"
  | .badIpv6 => "invalid IPv6 address"
  | .badHostChar => "invalid domain character"

/-- Reads an address between brackets. -/
def bracketed (text : List Char) : Except Error String :=
  match text.getLast?, ipv6? (text.drop 1).dropLast with
  | some ']', some groups => .ok (renderIpv6 groups)
  | _, _ => .error .badIpv6

/-- Reads a host that is an address or a domain name. -/
def parseHost (text : List Char) : Except Error String :=
  if text.head? = some '[' then bracketed text
  else
    match domain? (Bytes.lossyText (Percent.decode (Bytes.utf8 (String.ofList text)))) with
    | none => .error .badDomain
    | some "" => .error .emptyHost
    | some name =>
      if endsInNumber name.toList then
        match ipv4? name.toList with
        | some n => .ok (renderIpv4 n)
        | none => .error .badIpv4
      else .ok name

/-- Whether a host without meaning may not have a character. -/
def isForbiddenInHost (c : Char) : Bool := "\x00\t\n\r #/:<>?@[\\]^|".toList.contains c

/-- Whether a character is no control. -/
def isNoControl (c : Char) : Bool := 0x20 ≤ c.toNat && c.toNat < 0x7f

/-- Reads a host to which its scheme gives no meaning. -/
def parseOpaqueHost (text : List Char) : Except Error String :=
  if text.head? = some '[' then bracketed text
  else if text.any isForbiddenInHost then .error .badHostChar
  else .ok (Percent.encodeWith isNoControl (String.ofList text))

end Depot.Url
