import Std.Data.ExtTreeMap
import Std.Data.ExtTreeSet
import DiscoveryGraph.Bytes

/-!
# Global identifiers

A participant or an endpoint is known by 24 octets that nothing interprets. Identifiers are
compared octet by octet, and shown in hexadecimal.

* `ofBytes?_toBytes`: the octets of an identifier give it back.
* `ofBytes?_isSome`, `ofLeading?_isSome`: which octet sequences are, or can be filled up to, one.
-/

namespace DiscoveryGraph

/-- How many octets an identifier has. -/
abbrev gidWidth : Nat := 24

/-- An opaque identifier of a participant or an endpoint. -/
structure Gid where
  /-- The octets, in the order in which they are compared and shown. -/
  octets : Vector UInt8 gidWidth
deriving DecidableEq

namespace Gid

/-- The octets as a list. -/
def toBytes (gid : Gid) : Bytes :=
  gid.octets.toList

/-- The identifier with exactly these octets, if there are 24 of them. -/
def ofBytes? (bs : Bytes) : Option Gid :=
  if h : bs.length = gidWidth then some ⟨⟨bs.toArray, by simpa using h⟩⟩ else none

/-- The identifier that starts with these octets and is filled up with zeros, if there are at
most 24 of them. -/
def ofLeading? (bs : Bytes) : Option Gid :=
  ofBytes? (bs ++ List.replicate (gidWidth - bs.length) 0)

/-- The identifier of zeros only. -/
def zero : Gid :=
  ⟨Vector.replicate gidWidth 0⟩

instance : Inhabited Gid := ⟨zero⟩

/-- An identifier is shown as 48 lowercase hexadecimal digits. -/
def text (gid : Gid) : String :=
  gid.toBytes.hex

/-- The spelling of an identifier inside a structural listing. -/
def outline (gid : Gid) : String :=
  s!"Gid({gid.text})"

/-- Identifiers are ordered octet by octet. -/
instance : Ord Gid := ⟨compareOn octets⟩

instance : Std.TransOrd Gid :=
  inferInstanceAs (Std.TransCmp (compareOn octets))

instance : Std.LawfulEqOrd Gid where
  eq_of_compare {a b} h := by
    obtain ⟨a⟩ := a
    obtain ⟨b⟩ := b
    exact congrArg Gid.mk (Std.LawfulEqOrd.eq_of_compare (h : compare a b = .eq))

@[simp] theorem length_toBytes (gid : Gid) : gid.toBytes.length = gidWidth := by
  simp [toBytes]

@[simp] theorem ofBytes?_toBytes (gid : Gid) : ofBytes? gid.toBytes = some gid := by
  rw [ofBytes?, dif_pos (length_toBytes gid)]
  rfl

theorem ofBytes?_isSome (bs : Bytes) : (ofBytes? bs).isSome ↔ bs.length = gidWidth := by
  rw [ofBytes?]
  split <;> simp_all

theorem toBytes_of_ofBytes? {bs : Bytes} {gid : Gid} (h : ofBytes? bs = some gid) :
    gid.toBytes = bs := by
  rw [ofBytes?] at h
  split at h
  · cases h
    simp [toBytes, Vector.toList]
  · cases h

theorem ofLeading?_isSome (bs : Bytes) : (ofLeading? bs).isSome ↔ bs.length ≤ gidWidth := by
  rw [ofLeading?, ofBytes?_isSome]
  simp
  omega

end Gid

end DiscoveryGraph
