import Std.Data.ExtTreeMap

/-!
# Node names

A node is addressed by a namespace and a name in it. Listings of nodes are ordered by namespace
first and by name within it, both octet by octet.
-/

namespace DiscoveryGraph

/-- Namespace and name of a node. -/
structure NodeName where
  /-- The namespace, such as `/` or `/robot1`. -/
  ns : String
  name : String
deriving DecidableEq

namespace NodeName

/-- Node names are ordered by namespace, then by name. -/
instance : Ord NodeName := ⟨compareLex (compareOn ns) (compareOn name)⟩

instance : Std.TransOrd NodeName :=
  inferInstanceAs (Std.TransCmp (compareLex (compareOn ns) (compareOn name)))

instance : Std.LawfulEqOrd NodeName where
  eq_of_compare {a b} h := by
    have hab := Ordering.then_eq_eq.mp h
    have hns : a.ns = b.ns := Std.LawfulEqOrd.eq_of_compare hab.1
    have hname : a.name = b.name := Std.LawfulEqOrd.eq_of_compare hab.2
    cases a
    cases b
    simp_all

/-- Namespace and name are joined by a slash, unless the namespace ends with one. -/
def text (node : NodeName) : String :=
  if node.ns.toList.getLast? = some '/' then node.ns ++ node.name
  else node.ns ++ "/" ++ node.name

end NodeName

end DiscoveryGraph
