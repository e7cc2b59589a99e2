import SignalBridge.Proofs.Registry.Declaration
import SignalBridge.Proofs.Registry.Heirs

namespace SignalBridge.Registry

open Source (StructDecl SourceFile)

section Permuted

variable {r₁ r₂ : Registry} (h : r₁.classes.Perm r₂.classes)
include h

theorem resolve_signature_perm (es : List Signature.Entry) :
    Signature.resolve r₁ es = Signature.resolve r₂ es := by
  have hfrom : ∀ i, Signature.resolveFrom r₁ i es = Signature.resolveFrom r₂ i es := by
    induction es with
    | nil => intro i; rfl
    | cons e es ih =>
      intro i
      cases e with
      | named name type => simp only [Signature.resolveFrom, ih]
      | single word => simp only [Signature.resolveFrom, ih, nativeType_perm h]
  rw [Signature.resolve, Signature.resolve, hfrom]

theorem fieldMember?_perm (owner tag typeText : String) :
    r₁.fieldMember? owner tag typeText = r₂.fieldMember? owner tag typeText := by
  unfold fieldMember?
  rw [funext (resolve_signature_perm h)]

theorem members_perm (s : StructDecl) : s.members r₁ = s.members r₂ := by
  simp only [StructDecl.members, fieldMember?_perm h]

theorem mapMember_perm (m : Member) : r₁.mapMember m = r₂.mapMember m := by
  simp only [mapMember, nativeType_perm h]

theorem mapTypes_perm : r₁.mapTypes.classes.Perm r₂.mapTypes.classes :=
  mapMembers_perm h fun c _ => by rw [funext (mapMember_perm h)]

theorem unmappedCount_perm : r₁.unmappedCount = r₂.unmappedCount := by
  simp only [unmappedCount, nativeType_perm h]
  exact (((declared_perm h).flatMap_right _).flatMap_right _).countP_eq _

theorem prune_perm : r₁.prune.classes.Perm r₂.prune.classes :=
  filter_perm h fun c => by rw [isObjectClass_perm h]

theorem strays_perm : r₁.strays.Perm r₂.strays := by
  simp only [strays, isObjectClass_perm h]
  exact (declared_perm h).filter _

/-- Resolution does not look at the order of the classes. -/
theorem resolve_perm (hp : r₁.Plain) :
    r₁.resolve.registry.classes.Perm r₂.resolve.registry.classes ∧
      r₁.resolve.added = r₂.resolve.added ∧ r₁.resolve.pruned.Perm r₂.resolve.pruned := by
  obtain ⟨hclasses, hadded⟩ := propagate_perm h hp
  exact ⟨prune_perm hclasses, hadded, (strays_perm hclasses).map _⟩

end Permuted

section Declared

variable {r registered r₁ r₂ : Registry} {structs structs₁ structs₂ : List StructDecl}

theorem find?_declare_perm (hp : structs₁.Perm structs₂) (h₁ : r.declare structs₁ = .ok r₁)
    (h₂ : r.declare structs₂ = .ok r₂) (name : String) : r₁.find? name = r₂.find? name := by
  rw [find?_declare h₁, find?_declare h₂,
    Keyed.find?_perm hp (declare_ok_iff.mp ⟨r₁, h₁⟩).1]

theorem attach_perm (hp : structs₁.Perm structs₂) (h₁ : r.declare structs₁ = .ok r₁)
    (h₂ : r.declare structs₂ = .ok r₂) :
    (r₁.attach structs₁).classes.Perm (r₂.attach structs₂).classes := by
  have hr := perm_of_find?_eq (find?_declare_perm hp h₁ h₂)
  apply perm_of_find?_eq
  intro name
  rw [find?_attach h₁, find?_attach h₂, Keyed.find?_perm hp (declare_ok_iff.mp ⟨r₁, h₁⟩).1]
  simp only [members_perm hr]

/-- Where no class was declared before, the declared classes are those of the structs, and structs
declare signals and slots. -/
theorem plain_attach (hr : r.declared = []) (h : r.declare structs = .ok registered) :
    (registered.attach structs).Plain := by
  intro c hc m hm
  obtain ⟨hmem, hd⟩ := mem_declared_iff.mp hc
  have hf := find?_of_mem hmem
  rw [find?_attach h, Option.or_eq_some_iff] at hf
  rcases hf with hf | ⟨-, hf⟩
  · obtain ⟨s, -, rfl⟩ := Option.map_eq_some_iff.mp hf
    rcases category_of_mem_members hm with hk | hk <;> rw [hk] <;> rfl
  · have : c ∈ r.declared := mem_declared_iff.mpr ⟨(find?_eq_some_iff.mp hf).1, hd⟩
    simp [hr] at this

theorem Plain.mapTypes (h : r.Plain) : r.mapTypes.Plain := by
  intro c hc m hm
  obtain ⟨hmem, hd⟩ := mem_declared_iff.mp hc
  obtain ⟨c₀, hc₀, rfl⟩ := List.mem_map.mp hmem
  have hd₀ : c₀.isDeclared := hd
  simp only [if_pos hd₀] at hm
  obtain ⟨n, hn, rfl⟩ := List.mem_map.mp hm
  exact h c₀ (mem_declared_iff.mpr ⟨hc₀, hd₀⟩) n hn

end Declared

/-- Source files may come in any order: either none can be built, or all lead to the same classes,
the same counts and the same classes dropped. -/
theorem build_of_perm {r : Registry} {files₁ files₂ : List SourceFile} (hr : r.declared = [])
    (hp : files₁.Perm files₂) :
    (∃ d₁ d₂, r.build files₁ = .error d₁ ∧ r.build files₂ = .error d₂) ∨
    ∃ r₁ r₂ names₁ names₂, r.build files₁ = .ok (r₁, names₁) ∧ r.build files₂ = .ok (r₂, names₂) ∧
      r₁.unmappedCount = r₂.unmappedCount ∧
      r₁.mapTypes.resolve.registry.names.Perm r₂.mapTypes.resolve.registry.names ∧
      (∀ name, r₁.mapTypes.resolve.registry.find? name =
        r₂.mapTypes.resolve.registry.find? name) ∧
      r₁.mapTypes.resolve.added = r₂.mapTypes.resolve.added ∧
      r₁.mapTypes.resolve.pruned.Perm r₂.mapTypes.resolve.pruned := by
  have hs : (files₁.flatMap SourceFile.structs).Perm (files₂.flatMap SourceFile.structs) :=
    hp.flatMap_right _
  have hok : (∃ r', r.declare (files₁.flatMap SourceFile.structs) = .ok r') ↔
      ∃ r', r.declare (files₂.flatMap SourceFile.structs) = .ok r' := by
    simp only [declare_ok_iff, (hs.map StructDecl.name).nodup_iff, hs.mem_iff]
  cases h₁ : r.declare (files₁.flatMap SourceFile.structs) with
  | error d₁ =>
    cases h₂ : r.declare (files₂.flatMap SourceFile.structs) with
    | error d₂ =>
      refine .inl ⟨d₁, d₂, ?_, ?_⟩
      · rw [build, h₁]; rfl
      · rw [build, h₂]; rfl
    | ok r₂ =>
      obtain ⟨r₁, h⟩ := hok.mpr ⟨r₂, h₂⟩
      rw [h₁] at h
      cases h
  | ok r₁ =>
    obtain ⟨r₂, h₂⟩ := hok.mp ⟨r₁, h₁⟩
    have hbuilt := attach_perm hs h₁ h₂
    obtain ⟨hclasses, hadded, hpruned⟩ :=
      resolve_perm (mapTypes_perm hbuilt) (plain_attach hr h₁).mapTypes
    exact .inr ⟨_, _, _, _, build_ok_iff.mpr ⟨r₁, h₁, rfl, rfl⟩,
      build_ok_iff.mpr ⟨r₂, h₂, rfl, rfl⟩,
      unmappedCount_perm hbuilt, hclasses.map _, find?_perm hclasses, hadded, hpruned⟩

def fileOf (s : StructDecl) : SourceFile :=
  ⟨none, [⟨s.name, .struct s.fields, ⟨0, 0⟩⟩]⟩

/-- A struct that embeds another one and declares a signal with a parameter of that type. -/
def rowFile : SourceFile :=
  fileOf ⟨"Row", [⟨[], "*Cell", none, ⟨0, 0⟩⟩,
    ⟨["_"], "func(from, to *Cell)", some "\x60signal:moved\x60", ⟨0, 0⟩⟩]⟩

def cellFile : SourceFile :=
  fileOf ⟨"Cell", [⟨[], "core.QObject", none, ⟨0, 0⟩⟩]⟩

theorem build_of_perm_rowFirst : ∃ r₁ r₂ names₁ names₂,
    empty.build [rowFile, cellFile] = .ok (r₁, names₁) ∧
    empty.build [cellFile, rowFile] = .ok (r₂, names₂) ∧
    ∀ name, r₁.mapTypes.resolve.registry.find? name = r₂.mapTypes.resolve.registry.find? name := by
  rcases build_of_perm (r := empty) rfl (List.Perm.swap cellFile rowFile []) with
    ⟨d, -, h, -⟩ | ⟨r₁, r₂, names₁, names₂, h₁, h₂, -, -, hfind, -⟩
  · cases h
  · exact ⟨r₁, r₂, names₁, names₂, h₁, h₂, hfind⟩

end SignalBridge.Registry
