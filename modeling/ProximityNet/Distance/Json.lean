import ProximityNet.Distance.Basic
import ProximityNet.Distance.NodePair
import ProximityNet.Node.Json

/-!
# Distances and pairs in JSON texts

The unlimited distance is `null`.  A pair is read as it stands, whichever of its nodes is larger.
-/

namespace ProximityNet

namespace Distance

def toJson (d : Distance) : Json := if d.isUnlimited then .null else .float d.value

def ofJson? : Json → Option Distance
  | .null => some unlimited
  | v => v.asFloat?.bind ofFloat?

end Distance

namespace NodePair

def toJson (p : NodePair) : Json := .record [("low", p.low.toJson), ("high", p.high.toJson)]

def ofJson? (v : Json) : Option NodePair := do
  let f ← v.fields? ["low", "high"]
  let low ← f.required? "low" NodeId.ofJson?
  let high ← f.required? "high" NodeId.ofJson?
  some ⟨low, high⟩

end NodePair

/-- The distance in a field; it is unlimited when a record written by name leaves it out. -/
def Json.Fields.distance? (f : Json.Fields) (name : String) : Option Distance :=
  match f.get? name with
  | some v => Distance.ofJson? v
  | none => if f.named then some .unlimited else none

end ProximityNet
