import Depot.Text.Pairs
import Depot.Url.Parser

/-!
# Queries

A query as pairs of names and values, and its canonical form: the pairs escaped and in order.
-/

namespace Depot.Url

/-- A name or a value of a query: plus signs are spaces, escapes are resolved, and what is not UTF-8
is replaced. -/
def formText (part : Bytes) : String :=
  Bytes.lossyText (Percent.decode (part.map fun b => if b = 0x2b then 0x20 else b))

/-- A pair: name and value around the first equals sign. -/
def formPair (part : List Char) : String × String :=
  let (name, value) := (Text.cut '=' part).getD (part, [])
  (formText (Bytes.utf8 (String.ofList name)), formText (Bytes.utf8 (String.ofList value)))

/-- The pairs of a query, without empty ones. -/
def formPairs (query : String) : List (String × String) :=
  ((Text.pieces '&' query.toList).filter fun p => !p.isEmpty).map formPair

/-- The pairs of a URL's query. -/
def queryPairs (u : Url) : List (String × String) := (u.query.map formPairs).getD []

/-- Pairs as a query. -/
def joinPairs (pairs : List (String × String)) : String :=
  String.intercalate "&" (pairs.map fun p => p.1 ++ "=" ++ p.2)

/-- The query of a URL with its pairs escaped and in ascending order. -/
def canonicalQuery (u : Url) : String :=
  joinPairs (Text.sortPairs (u.queryPairs.map fun p => (Percent.encode p.1, Percent.encode p.2)))

/-- The path of a URL, a slash if it is empty. -/
def canonicalPath (u : Url) : String := if u.path.isEmpty then "/" else u.path

end Depot.Url
