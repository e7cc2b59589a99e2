import SignalBridge.Registry.Basic

/-!
The declared classes in an order in which every base comes before the classes that derive from it.
Classes whose bases run in a circle come last, as they stand in the registry.
-/

namespace SignalBridge.Registry

/-- Whether a class may follow the classes `placed`: it has no base, its base is one of them, or
its base is not another declared class. -/
def mayFollow (r : Registry) (placed : List String) (c : MetaClass) : Bool :=
  match c.base with
  | none => true
  | some base =>
    base ∈ placed || base = c.name || !(r.find? base).any MetaClass.isDeclared

/-- One pass over the classes that wait: those it places, and those that wait on. A class that is
placed counts for the ones after it. -/
def placePass (r : Registry) : (placed : List String) → List MetaClass →
    List MetaClass × List MetaClass
  | _, [] => ([], [])
  | placed, c :: cs =>
    if r.mayFollow placed c then
      let (ready, waiting) := r.placePass (c.name :: placed) cs
      (c :: ready, waiting)
    else
      let (ready, waiting) := r.placePass placed cs
      (ready, c :: waiting)

theorem length_placePass (r : Registry) (placed : List String) (cs : List MetaClass) :
    (r.placePass placed cs).1.length + (r.placePass placed cs).2.length = cs.length := by
  induction cs generalizing placed with
  | nil => rfl
  | cons c cs ih =>
    unfold placePass
    split
    · have := ih (c.name :: placed)
      simp only [List.length_cons]
      omega
    · have := ih placed
      simp only [List.length_cons]
      omega

/-- Passes until one places nothing; what waits then comes last. -/
def place (r : Registry) (placed : List String) (waiting : List MetaClass) : List MetaClass :=
  let pass := r.placePass placed waiting
  if _ : pass.1 = [] then pass.2
  else pass.1 ++ r.place (pass.1.map MetaClass.name ++ placed) pass.2
termination_by waiting.length
decreasing_by
  have total := r.length_placePass placed waiting
  have some := List.length_pos_iff.mpr ‹_›
  change (r.placePass placed waiting).2.length < waiting.length
  change 0 < (r.placePass placed waiting).1.length at some
  omega

def basesFirst (r : Registry) : List MetaClass :=
  r.place [] r.declared

end SignalBridge.Registry
