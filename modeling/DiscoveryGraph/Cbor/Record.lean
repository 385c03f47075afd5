import DiscoveryGraph.Cbor.Reader
import DiscoveryGraph.Field

/-!
# Records in CBOR

A record is a map whose keys name its fields, in any order. Keys that name no field are skipped
together with their values. No field may be there twice, and none may be missing.
-/

namespace DiscoveryGraph.Cbor.Reader

/-- The value of a mismatch-checked step. -/
def checked {α : Type} : Except Mismatch α → Reader α
  | .ok value => return value
  | .error cause => reject cause

/-- One entry of a record. -/
def entry {σ : Type} (fields : List (Field Reader σ)) (depth : Nat) (draft : σ) : Reader σ := do
  let name ← key
  match fields.find? fun field => Bytes.ofText field.name = name with
  | none => do
    ignored depth
    return draft
  | some field =>
    if field.present draft then reject (.duplicateField field.name) else field.read draft

/-- A record, read into a draft that is completed at the end. -/
def record {σ α : Type} (fields : Nat → List (Field Reader σ)) (blank : σ)
    (finish : σ → Except Mismatch α) (depth : Nat) : Reader α := do
  match ← untagged with
  | (_, .map length) =>
    deeper (fun depth => do
      checked (finish (← content length (entry (fields depth) depth) blank))) depth
  | (_, head) => unexpected head "map"

end DiscoveryGraph.Cbor.Reader
