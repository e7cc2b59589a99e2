import SignalBridge.NativeType
import SignalBridge.Proofs.Keyed

namespace SignalBridge.Registry

variable {r r₁ r₂ : Registry} {c d : MetaClass} {name : String}

theorem eq_of_classes (h : r₁.classes = r₂.classes) : r₁ = r₂ := by
  cases r₁
  cases r₂
  cases h
  rfl

theorem eq_of_name_eq (hc : c ∈ r.classes) (hd : d ∈ r.classes) (h : c.name = d.name) : c = d :=
  List.inj_on_of_nodup_map r.names_nodup hc hd h

theorem find?_eq_some_iff : r.find? name = some c ↔ c ∈ r.classes ∧ c.name = name :=
  Keyed.find?_eq_some_iff r.names_nodup

theorem find?_of_mem (h : c ∈ r.classes) : r.find? c.name = some c :=
  find?_eq_some_iff.mpr ⟨h, rfl⟩

theorem find?_eq_none_iff : r.find? name = none ↔ name ∉ r.names :=
  Keyed.find?_eq_none_iff

theorem find?_mapMembers (r : Registry) (f : MetaClass → List Member) (name : String) :
    (r.mapMembers f).find? name = (r.find? name).map fun c => { c with members := f c } := by
  simp only [find?, mapMembers, List.find?_map]
  rfl

theorem find?_insert (r : Registry) (c : MetaClass) (name : String) :
    (r.insert c).find? name = if c.name = name then some c else r.find? name :=
  Keyed.find?_put c r.classes name

theorem names_insert (r : Registry) (c : MetaClass) :
    (r.insert c).names = if c.name ∈ r.names then r.names else r.names ++ [c.name] :=
  Keyed.map_key_put MetaClass.name c r.classes

theorem names_erase (r : Registry) (name : String) :
    (r.erase name).names = r.names.filter (· ≠ name) := by
  rw [names, names, List.filter_map]
  rfl

@[simp] theorem names_mapMembers (r : Registry) (f : MetaClass → List Member) :
    (r.mapMembers f).names = r.names := by
  simp [names, mapMembers]

theorem mapMembers_mapMembers (r : Registry) (f g : MetaClass → List Member) :
    (r.mapMembers f).mapMembers g = r.mapMembers fun c => g { c with members := f c } := by
  apply eq_of_classes
  simp [mapMembers]

theorem mapMembers_congr {f g : MetaClass → List Member} (h : ∀ c ∈ r.classes, f c = g c) :
    r.mapMembers f = r.mapMembers g := by
  apply eq_of_classes
  exact List.map_congr_left fun c hc => by rw [h c hc]

theorem mapMembers_members (r : Registry) : r.mapMembers MetaClass.members = r :=
  eq_of_classes (List.map_id r.classes)

theorem mem_declared_iff : c ∈ r.declared ↔ c ∈ r.classes ∧ c.isDeclared := by
  simp [declared, inModule, MetaClass.isDeclared]

/-- The names of the declared classes. -/
def declaredNames (r : Registry) : List String :=
  r.declared.map MetaClass.name

theorem mem_declaredNames_iff :
    name ∈ r.declaredNames ↔ ∃ c, r.find? name = some c ∧ c.isDeclared := by
  simp only [declaredNames, List.mem_map, mem_declared_iff, find?_eq_some_iff]
  constructor
  · rintro ⟨c, ⟨hc, hd⟩, hn⟩
    exact ⟨c, ⟨hc, hn⟩, hd⟩
  · rintro ⟨c, ⟨hc, hn⟩, hd⟩
    exact ⟨c, ⟨hc, hd⟩, hn⟩

theorem nodup_declaredNames (r : Registry) : r.declaredNames.Nodup :=
  r.names_nodup.sublist (List.filter_sublist.map _)

@[simp] theorem declaredNames_mapMembers (r : Registry) (f : MetaClass → List Member) :
    (r.mapMembers f).declaredNames = r.declaredNames := by
  simp only [declaredNames, declared, inModule, mapMembers, List.filter_map, List.map_map]
  rfl

/-- Registries that answer every look-up alike hold the same classes. -/
theorem perm_of_find?_eq (h : ∀ name, r₁.find? name = r₂.find? name) :
    r₁.classes.Perm r₂.classes := by
  rw [List.perm_ext_iff_of_nodup (r₁.names_nodup.of_map _) (r₂.names_nodup.of_map _)]
  intro c
  have := h c.name
  constructor
  · intro hc
    rw [find?_of_mem hc] at this
    exact (find?_eq_some_iff.mp this.symm).1
  · intro hc
    rw [find?_of_mem hc] at this
    exact (find?_eq_some_iff.mp this).1

/-- Only bases decide where a base chain goes. -/
theorem reachesRoot_congr
    (h : ∀ name, (r₁.find? name).bind MetaClass.base = (r₂.find? name).bind MetaClass.base)
    (steps : Nat) (name : String) : r₁.reachesRoot steps name = r₂.reachesRoot steps name := by
  induction steps generalizing name with
  | zero => rfl
  | succ steps ih =>
    rw [reachesRoot, reachesRoot, h]
    cases (r₂.find? name).bind MetaClass.base with
    | none => rfl
    | some base => simp only [ih base]

section Permuted

variable (h : r₁.classes.Perm r₂.classes)
include h

theorem find?_perm (name : String) : r₁.find? name = r₂.find? name :=
  Keyed.find?_perm h r₁.names_nodup name

theorem size_perm : r₁.size = r₂.size :=
  h.length_eq

theorem contains_perm (name : String) : r₁.contains name = r₂.contains name := by
  rw [contains, contains, find?_perm h]

theorem declared_perm : r₁.declared.Perm r₂.declared :=
  h.filter _

theorem isObjectClass_perm (name : String) : r₁.isObjectClass name = r₂.isObjectClass name := by
  have hbase : ∀ name, (r₁.find? name).bind MetaClass.base = (r₂.find? name).bind MetaClass.base := by
    intro name
    rw [find?_perm h]
  rw [isObjectClass, isObjectClass, size_perm h, reachesRoot_congr hbase]

theorem nativeType_perm (hostType : String) : r₁.nativeType hostType = r₂.nativeType hostType := by
  simp only [nativeType, contains_perm h, isObjectClass_perm h]

theorem filter_perm {p q : MetaClass → Bool} (hpq : ∀ c, p c = q c) :
    (r₁.filter p).classes.Perm (r₂.filter q).classes := by
  rw [show p = q from funext hpq]
  exact h.filter q

theorem mapMembers_perm {f g : MetaClass → List Member} (hf : ∀ c ∈ r₁.classes, f c = g c) :
    (r₁.mapMembers f).classes.Perm (r₂.mapMembers g).classes := by
  rw [mapMembers_congr hf]
  exact h.map _

end Permuted

end SignalBridge.Registry
