import Mathlib.Data.List.Nodup
import Mathlib.Data.List.Perm.Basic
import SignalBridge.Artifact.Header
import SignalBridge.Bridge.HostFunction

namespace SignalBridge

open List (Perm)

/-- The functions that the header declares for a class. -/
def BoundClass.headerNames (c : BoundClass) : List String :=
  c.declarations.map Declaration.name

/-- The functions that the Go file defines for a class. -/
def BoundClass.hostNames (c : BoundClass) : List String :=
  c.hostFunctions.map HostFunction.name

/-- A C function of a class. -/
def underscored (owner stem : String) : String :=
  owner ++ "_" ++ stem

/-- A constructor is numbered from the second on. -/
def createName (owner : String) (built : Nat) : String :=
  if built = 0 then "New" ++ owner else "New" ++ owner ++ toString (built + 1)

def deleteName (owner : String) : String :=
  "Destroy" ++ owner

/-- What stands for the two functions that connect and disconnect a handler. -/
def linkStems (stem : String) : List String :=
  ["Connect" ++ stem, "Disconnect" ++ stem]

/-! What stands for the members of a list in the names of their functions, sorted by kind. -/

namespace Member

/-- The signals and slots, as Go exports them. -/
def exportedNames (ms : List Member) : List String :=
  (ms.filter (!·.category.isInherited)).map fun m => exportedName m.name

def signalNames (ms : List Member) : List String :=
  (ms.filter (·.category = .signal)).map fun m => exportedName m.name

/-- The constructors; `built` is how many come before. -/
def createNames (owner : String) (built : Nat) (ms : List Member) : List String :=
  (List.range' built (ms.countP (·.category = .constructor))).map (createName owner)

def deleteNames (owner : String) (ms : List Member) : List String :=
  (ms.filter (·.category = .destructor)).map fun _ => deleteName owner

variable (owner : String) (built : Nat) (m : Member) (ms : List Member)

@[simp] theorem exportedNames_cons : exportedNames (m :: ms) =
    if m.category.isInherited then exportedNames ms
    else exportedName m.name :: exportedNames ms := by
  cases h : m.category.isInherited <;> simp [exportedNames, h]

@[simp] theorem signalNames_cons : signalNames (m :: ms) =
    if m.category = .signal then exportedName m.name :: signalNames ms else signalNames ms := by
  by_cases h : m.category = .signal <;> simp [signalNames, h]

@[simp] theorem createNames_cons : createNames owner built (m :: ms) =
    if m.category = .constructor then createName owner built :: createNames owner (built + 1) ms
    else createNames owner built ms := by
  by_cases h : m.category = .constructor <;> simp [createNames, h, List.range'_succ]

@[simp] theorem deleteNames_cons : deleteNames owner (m :: ms) =
    if m.category = .destructor then deleteName owner :: deleteNames owner ms
    else deleteNames owner ms := by
  by_cases h : m.category = .destructor <;> simp [deleteNames, h]

theorem suffix_eq : m.suffix owner built =
    match m.category with
    | .constructor => createName owner built
    | .destructor => deleteName owner
    | .signal | .slot => exportedName m.name := by
  cases hk : m.category <;> simp [suffix, hk, createName, deleteName, toString]

end Member

open Member

namespace Binding

variable (b : Binding)

theorem wrapperName_eq : b.wrapperName = underscored b.owner b.suffix := by
  simp [wrapperName, underscored, toString]

theorem callbackName_eq : b.callbackName = underscored ("callback" ++ b.owner) b.suffix := by
  simp [callbackName, underscored, toString, String.append_assoc]

theorem connect_eq (owner stem : String) :
    s!"{owner}_Connect{stem}" = underscored owner ("Connect" ++ stem) := by
  apply String.toList_injective
  simp [underscored, toString]

theorem disconnect_eq (owner stem : String) :
    s!"{owner}_Disconnect{stem}" = underscored owner ("Disconnect" ++ stem) := by
  apply String.toList_injective
  simp [underscored, toString]

theorem connectName_eq : b.connectName = underscored b.owner ("Connect" ++ b.suffix) :=
  connect_eq b.owner b.suffix

theorem disconnectName_eq : b.disconnectName = underscored b.owner ("Disconnect" ++ b.suffix) :=
  disconnect_eq b.owner b.suffix

/-- The C functions of a member. -/
theorem map_declarationName : b.declarations.map Declaration.name =
    ((if b.isSignal then linkStems b.suffix else []) ++ [b.suffix]).map (underscored b.owner) := by
  cases hk : b.member.category with
  | signal =>
    simp only [declarations, isSignal, hk, b.wrapperName_eq, connect_eq, disconnect_eq]
    simp [linkStems]
  | slot | constructor | destructor =>
    simp [declarations, isSignal, hk, b.wrapperName_eq]

/-- The Go functions of a member. -/
theorem map_hostName : b.hostFunctions.map HostFunction.name =
    match b.member.category with
    | .constructor => [b.suffix]
    | .destructor => [b.suffix, underscored ("callback" ++ b.owner) b.suffix]
    | .signal | .slot =>
      (linkStems b.suffix ++ [b.suffix]).map (underscored b.owner) ++
        [underscored ("callback" ++ b.owner) b.suffix] := by
  cases hk : b.member.category with
  | constructor => simp [hostFunctions, hk, createFunction]
  | destructor => simp [hostFunctions, hk, deleteFunction, forgetFunction, b.callbackName_eq]
  | signal | slot =>
    simp [hostFunctions, hk, connectFunction, disconnectFunction, callFunction, callbackFunction,
      linkStems, b.wrapperName_eq, b.callbackName_eq, b.connectName_eq, b.disconnectName_eq]

end Binding

section Sorting

variable (r : Registry) (owner : String) (built : Nat) (ms : List Member)

-- Both are by induction on the members: every name stands as often on either side.

theorem headerNames_perm :
    Perm ((r.bindAll owner built ms).flatMap fun b => b.declarations.map Declaration.name)
      ((exportedNames ms ++ ((signalNames ms).flatMap linkStems ++
        (createNames owner built ms ++ deleteNames owner ms))).map (underscored owner)) := by
  induction ms generalizing built with
  | nil => exact .refl []
  | cons m ms ih =>
    rw [Registry.bindAll, List.flatMap_cons, Binding.map_declarationName, List.perm_iff_count]
    intro name
    have h := List.perm_iff_count.mp (ih (if m.category = .constructor then built + 1 else built))
      name
    cases hk : m.category with
    | constructor | destructor | signal | slot =>
      simp [hk, Registry.bind, Binding.isSignal, suffix_eq, Category.isInherited, linkStems,
        List.count_cons, -List.map_map] at h ⊢
      omega

theorem hostNames_perm :
    Perm ((r.bindAll owner built ms).flatMap fun b => b.hostFunctions.map HostFunction.name)
      ((exportedNames ms ++ (exportedNames ms).flatMap linkStems).map (underscored owner) ++
        ((exportedNames ms ++ deleteNames owner ms).map (underscored ("callback" ++ owner)) ++
          (createNames owner built ms ++ deleteNames owner ms))) := by
  induction ms generalizing built with
  | nil => exact .refl []
  | cons m ms ih =>
    rw [Registry.bindAll, List.flatMap_cons, Binding.map_hostName, List.perm_iff_count]
    intro name
    have h := List.perm_iff_count.mp (ih (if m.category = .constructor then built + 1 else built))
      name
    cases hk : m.category with
    | constructor | destructor | signal | slot =>
      simp [hk, Registry.bind, suffix_eq, Category.isInherited, linkStems,
        List.count_cons, -List.map_map] at h ⊢
      omega

theorem boundClass_headerNames_perm (c : MetaClass) :
    Perm (r.boundClass c).headerNames
      ((exportedNames c.members ++ ((signalNames c.members).flatMap linkStems ++
        (createNames c.name 0 c.members ++ deleteNames c.name c.members))).map
          (underscored c.name)) := by
  rw [BoundClass.headerNames, BoundClass.declarations, List.map_flatMap]
  exact headerNames_perm r c.name 0 c.members

theorem boundClass_hostNames_perm (c : MetaClass) :
    Perm (r.boundClass c).hostNames
      ((exportedNames c.members ++ (exportedNames c.members).flatMap linkStems).map
          (underscored c.name) ++
        ((exportedNames c.members ++ deleteNames c.name c.members).map
            (underscored ("callback" ++ c.name)) ++
          (createNames c.name 0 c.members ++ deleteNames c.name c.members))) := by
  rw [BoundClass.hostNames, BoundClass.hostFunctions, List.map_flatMap]
  exact hostNames_perm r c.name 0 c.members

end Sorting

end SignalBridge
