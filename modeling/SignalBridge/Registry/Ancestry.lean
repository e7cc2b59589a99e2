import SignalBridge.Registry.Basic

namespace SignalBridge.Registry

/-- Whether the chain from `name` comes to the root class in fewer than `steps` steps. -/
def reachesRoot (r : Registry) : (steps : Nat) → (name : String) → Bool
  | 0, _ => false
  | steps + 1, name =>
    name = rootClass ||
      match (r.find? name).bind MetaClass.base with
      | some base => r.reachesRoot steps base
      | none => false

/-- Whether a class is the root class or derives from it. A chain that meets no class twice has at
most one step for each class, so one that needs more runs in a circle. -/
def isObjectClass (r : Registry) (name : String) : Bool :=
  r.reachesRoot (r.size + 1) name

end SignalBridge.Registry
