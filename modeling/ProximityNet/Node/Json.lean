import ProximityNet.Json.Fields
import ProximityNet.Node.Basic

/-!
# Nodes in JSON texts

Ids are numbers, kinds and roles are names, and interfaces, endpoints and nodes are records.
-/

namespace ProximityNet

namespace NodeId

def toJson (id : NodeId) : Json := .natural id.toNat

def ofJson? (v : Json) : Option NodeId := (v.asNatural? 4294967296).map ofNat

end NodeId

namespace InterfaceKind

def toJson (kind : InterfaceKind) : Json := .text kind.name

def ofJson? (form : Json.ChoiceForm) : Json → Option InterfaceKind := Json.choice? form name all

end InterfaceKind

namespace Interface

def toJson (i : Interface) : Json :=
  .record [("kind", i.kind.toJson), ("nr_host_interface", .natural i.number.toNat)]

def ofJson? (form : Json.ChoiceForm) (v : Json) : Option Interface := do
  let f ← v.fields? ["kind", "nr_host_interface"]
  let kind ← f.required? "kind" (InterfaceKind.ofJson? form)
  let number ← f.required? "nr_host_interface" (Json.asNatural? 65536)
  some ⟨kind, UInt16.ofNat number⟩

end Interface

namespace Endpoint

def toJson (e : Endpoint) : Json :=
  .record [("node", e.node.toJson), ("interface", e.interface.toJson)]

def ofJson? (form : Json.ChoiceForm) (v : Json) : Option Endpoint := do
  let f ← v.fields? ["node", "interface"]
  let node ← f.required? "node" NodeId.ofJson?
  let interface ← f.required? "interface" (Interface.ofJson? form)
  some ⟨node, interface⟩

end Endpoint

namespace Role

def toJson (role : Role) : Json := .text role.name

def ofJson? : Json → Option Role := Json.choice? .plain name [emulation, central, management]

end Role

namespace Node

def toJson (n : Node) : Json :=
  .record [("id", n.id.toJson), ("role", n.role.toJson),
    ("interfaces", .array (n.interfaces.map Interface.toJson))]

def ofJson? (v : Json) : Option Node := do
  let f ← v.fields? ["id", "role", "interfaces"]
  let id ← f.required? "id" NodeId.ofJson?
  let role ← f.required? "role" Role.ofJson?
  let interfaces ← f.required? "interfaces" (Json.asList? (Interface.ofJson? .plain))
  some ⟨id, role, interfaces⟩

end Node

end ProximityNet
