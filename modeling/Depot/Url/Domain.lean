import Depot.Text.Case
import Depot.Text.Cut
import Depot.Text.QuotedTable
import Depot.Url.Punycode

/-!
# Domain names

A domain name as it is looked up: in lower case, with labels beyond ASCII encoded. Names in ASCII are
folded as a resolver folds them; of the mapping of other characters only their case, the wide forms
of ASCII and the characters that do not count are followed. Compatibility characters, such as a
ligature or a number in a circle, stay as they are, and an accent is not composed with its letter.
-/

namespace Depot.Url

/-- Characters that stand for a dot, and the wide forms of ASCII characters. -/
def narrow (c : Char) : Char :=
  if c = '。' ∨ c = '．' ∨ c = '｡' then '.'
  else if 0xff01 ≤ c.toNat ∧ c.toNat ≤ 0xff5e then Char.ofNat (c.toNat - 0xfee0)
  else c

/-- Ranges of characters that a domain name may hold but that do not count: a soft hyphen, joints
without width, and choices of a glyph. -/
def silentRanges : List (Nat × Nat) :=
  [(0xad, 0xad), (0x34f, 0x34f), (0x180b, 0x180d), (0x200b, 0x200b), (0x2060, 0x2060),
   (0x2064, 0x2064), (0xfe00, 0xfe0f), (0xfeff, 0xfeff), (0xe0100, 0xe01ef)]

/-- What a character comes to in a domain name. Beyond ASCII this is a part of Unicode's mapping of
domain names: no compatibility character is taken apart, and nothing is composed. -/
def foldChar (c : Char) : List Char :=
  if Text.inRanges silentRanges c.toNat then []
  else if c = 'İ' then ['i', '\u0307']
  else [Text.lowerChar (narrow c)]

/-- Whether a domain name may not have a character: a control, white space, one of private use, or
one that means something elsewhere in a URL. -/
def isForbiddenInDomain (c : Char) : Bool :=
  c.toNat ≤ 0x20 || Text.inRanges [(0x7f, 0x9f), (0xe000, 0xf8ff), (0xf0000, 0x10ffff)] c.toNat ||
    Text.isBlank c || c == '\ufffd' || "%#/:<>?@[\\]^|".toList.contains c

/-- A label in ASCII. One that is encoded already has to be the encoding of a label that needs it,
and a label cannot start with a character that has no glyph of its own. -/
def asciiLabel? (label : List Char) : Option (List Char) :=
  match label with
  | 'x' :: 'n' :: '-' :: '-' :: code => do
    let plain ← Punycode.decode? code
    if plain.all Punycode.isBasic || plain.any (fun c => foldChar c != [c] || isForbiddenInDomain c)
    then none
    else if Punycode.encode plain = code then some label else none
  | _ =>
    if label.all Punycode.isBasic then some label
    else if label.head?.any fun c => Text.inRanges Text.numberedRanges c.toNat then none
    else some ("xn--".toList ++ Punycode.encode label)

/-- A domain name in ASCII and lower case. One beyond ASCII is folded only as far as `foldChar` goes. -/
def domain? (name : String) : Option String :=
  let chars := name.toList.flatMap foldChar
  if chars.any isForbiddenInDomain then none
  else ((Text.pieces '.' chars).mapM asciiLabel?).map fun labels =>
    String.intercalate "." (labels.map String.ofList)

end Depot.Url
