import DiscoveryGraph.Gid

/-!
# Endpoints

An endpoint is a reader or a writer that discovery has announced. The two kinds have separate
identifier spaces: one identifier may name a reader and a writer at once, so everything that is
recorded about an endpoint is recorded under its kind together with its identifier.
-/

namespace DiscoveryGraph

/-- The side of a topic on which an endpoint stands. -/
inductive EndpointKind where
  | reader
  | writer
deriving DecidableEq, Ord

namespace EndpointKind

/-- The word for the kind in running text. -/
def text : EndpointKind → String
  | reader => "reader"
  | writer => "writer"

/-- The name of the kind as a case of its type, as stored settings and listings spell it. -/
def caseName : EndpointKind → String
  | reader => "Reader"
  | writer => "Writer"

instance : Std.TransOrd EndpointKind where
  eq_swap {a b} := by cases a <;> cases b <;> rfl
  isLE_trans {a b c} := by cases a <;> cases b <;> cases c <;> decide

instance : Std.LawfulEqOrd EndpointKind where
  eq_of_compare {a b} := by cases a <;> cases b <;> decide

end EndpointKind

/-- What an endpoint is known by: its kind and its identifier. -/
structure EndpointId where
  kind : EndpointKind
  gid : Gid
deriving DecidableEq

namespace EndpointId

/-- Readers come before writers, and each kind is ordered by identifier. -/
instance : Ord EndpointId := ⟨compareLex (compareOn kind) (compareOn gid)⟩

instance : Std.TransOrd EndpointId :=
  inferInstanceAs (Std.TransCmp (compareLex (compareOn kind) (compareOn gid)))

instance : Std.LawfulEqOrd EndpointId where
  eq_of_compare {a b} h := by
    have hab := Ordering.then_eq_eq.mp h
    have hkind : a.kind = b.kind := Std.LawfulEqOrd.eq_of_compare hab.1
    have hgid : a.gid = b.gid := Std.LawfulEqOrd.eq_of_compare hab.2
    cases a
    cases b
    simp_all

/-- Kind and identifier, as messages name an endpoint. -/
def text (id : EndpointId) : String :=
  s!"{id.kind.text} {id.gid.text}"

end EndpointId

/-- The slot of the arena that holds a node. -/
abbrev NodeKey := Nat

/-- What discovery reports of an endpoint, and the node it is associated with. -/
structure Endpoint where
  /-- The topic name as the transport carries it. -/
  topic : String
  /-- The type name as the transport carries it. -/
  type : String
  /-- The node that the endpoint belongs to, when that is known. -/
  link : Option NodeKey
deriving DecidableEq

namespace Endpoint

/-- A newly announced endpoint belongs to no node yet. -/
def announced (topic type : String) : Endpoint :=
  { topic, type, link := none }

/-- Whether the endpoint belongs to a node. -/
def isAssociated (endpoint : Endpoint) : Bool :=
  endpoint.link.isSome

/-- The endpoint without its node. -/
def unlinked (endpoint : Endpoint) : Endpoint :=
  { endpoint with link := none }

/-- The endpoint as part of the node in slot `key`. -/
def linked (endpoint : Endpoint) (key : NodeKey) : Endpoint :=
  { endpoint with link := some key }

end Endpoint

end DiscoveryGraph
