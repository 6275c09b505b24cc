/-!
# Pairs of texts in order
-/

namespace Depot.Text

/-- Whether a pair may precede another: by the first text, then by the second. -/
def pairLe (p q : String × String) : Bool :=
  ((compare p.1 q.1).then (compare p.2 q.2)).isLE

/-- Pairs in ascending order. -/
def sortPairs (pairs : List (String × String)) : List (String × String) := pairs.mergeSort pairLe

end Depot.Text
