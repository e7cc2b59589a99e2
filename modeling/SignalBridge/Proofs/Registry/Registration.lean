import SignalBridge.Proofs.Host.Class
import SignalBridge.Proofs.Registry.MappingPass

/-!
Structs become classes in two passes: all of them are registered with their bases, then each in turn
gets its members. The first struct whose name is taken when its turn comes makes the build fail;
without one, the classes are those of the structs, in place of library classes of their names or
behind all others, and the members of each are read as if all at once (`build_registers_structs`).
-/

namespace SignalBridge.Registry

open Source (Field SourceFile StructDecl)

variable {r r' : Registry} {structs before early : List StructDecl} {s t : StructDecl}
  {name : String}

section FirstPass

/-- The registry with the structs' classes, none with members yet. -/
def register (r : Registry) (structs : List StructDecl) : Registry :=
  structs.foldl (fun r s => r.insert s.shell) r

/-- The name is that of a declared class or of a struct registered before. -/
def Taken (r : Registry) (before : List StructDecl) (name : String) : Prop :=
  (∃ c ∈ r.classes, c.name = name ∧ c.moduleName = mainModule) ∨
    name ∈ before.map StructDecl.name

/-- No struct's name is taken when its turn comes. -/
def AllFree (r : Registry) (structs : List StructDecl) : Prop :=
  ∀ early t late, structs = early ++ t :: late → ¬r.Taken early t.name

theorem taken_iff : r.Taken before name ↔
    (r.find? name).any MetaClass.isDeclared ∨ name ∈ before.map StructDecl.name := by
  have hdeclared : (∃ c ∈ r.classes, c.name = name ∧ c.moduleName = mainModule) ↔
      (r.find? name).any MetaClass.isDeclared := by
    rw [Option.any_eq_true]
    simp only [find?_eq_some_iff, MetaClass.isDeclared, decide_eq_true_eq, and_assoc]
  rw [Taken, hdeclared]

theorem taken_insert_shell : (r.insert s.shell).Taken early name ↔ r.Taken (s :: early) name := by
  rw [taken_iff, taken_iff, find?_insert_shell, List.map_cons, List.mem_cons]
  by_cases h : s.name = name
  · simp [h]
  · simp [h, Ne.symm h]

theorem allFree_cons : r.AllFree (s :: structs) ↔
    ¬r.Taken [] s.name ∧ (r.insert s.shell).AllFree structs := by
  constructor
  · intro h
    refine ⟨h [] s structs rfl, ?_⟩
    rintro early t late rfl
    rw [taken_insert_shell]
    exact h (s :: early) t late rfl
  · rintro ⟨hs, h⟩ early t late he
    rcases List.cons_eq_append_iff.mp he with ⟨rfl, hcons⟩ | ⟨early', rfl, rfl⟩
    · obtain ⟨rfl, -⟩ := List.cons.inj hcons
      exact hs
    · rw [← taken_insert_shell]
      exact h early' t late rfl

/-- Registration goes as far as names are free. -/
theorem declare_cases (r : Registry) (structs : List StructDecl) :
    (r.AllFree structs ∧ r.declare structs = .ok (r.register structs)) ∨
      ∃ before s after, structs = before ++ s :: after ∧ r.AllFree before ∧
        r.Taken before s.name ∧ r.declare structs = .error ⟨s.name, r.register before⟩ := by
  induction structs generalizing r with
  | nil => exact .inl ⟨fun early t late h => by simp at h, rfl⟩
  | cons s ss ih =>
    have htaken : r.Taken [] s.name ↔ (r.find? s.name).any MetaClass.isDeclared := by
      simp [taken_iff]
    unfold declare
    split
    · rename_i h
      exact .inr ⟨[], s, ss, rfl, fun early t late h => by simp at h, htaken.mpr h, rfl⟩
    · rename_i h
      have hfree : ¬r.Taken [] s.name := fun ht => h (htaken.mp ht)
      rcases ih (r.insert s.shell) with ⟨hall, hok⟩ | ⟨before, t, after, rfl, hall, ht, herr⟩
      · exact .inl ⟨allFree_cons.mpr ⟨hfree, hall⟩, hok⟩
      · exact .inr ⟨s :: before, t, after, rfl, allFree_cons.mpr ⟨hfree, hall⟩,
          taken_insert_shell.mp ht, herr⟩

theorem declare_ok_iff_allFree :
    r.declare structs = .ok r' ↔ r.AllFree structs ∧ r' = r.register structs := by
  rcases r.declare_cases structs with ⟨hall, hok⟩ | ⟨before, s, after, rfl, -, ht, herr⟩
  · simp [hok, hall, eq_comm]
  · rw [herr]
    constructor
    · nofun
    · rintro ⟨hall, -⟩
      exact absurd ht (hall before s after rfl)

theorem declare_error_iff {d : DuplicateClass} : r.declare structs = .error d ↔
    ∃ before s after, structs = before ++ s :: after ∧ r.AllFree before ∧
      r.Taken before s.name ∧ d = ⟨s.name, r.register before⟩ := by
  rcases r.declare_cases structs with ⟨hall, hok⟩ | ⟨before, s, after, rfl, hb, ht, herr⟩
  · rw [hok]
    constructor
    · nofun
    · rintro ⟨before, s, after, rfl, -, ht, -⟩
      exact absurd ht (hall before s after rfl)
  · rw [herr]
    constructor
    · rintro ⟨⟩
      exact ⟨before, s, after, rfl, hb, ht, rfl⟩
    · -- Of two structs with taken names one comes first, and then the other's are not all free.
      rintro ⟨before', s', after', he, hb', ht', rfl⟩
      rcases List.append_eq_append_iff.mp he with ⟨mid, rfl, h⟩ | ⟨mid, rfl, h⟩
      · cases mid with
        | nil =>
          obtain ⟨rfl, -⟩ := List.cons.inj h
          simp
        | cons u us =>
          obtain ⟨rfl, -⟩ := List.cons.inj h
          exact absurd ht (hb' before s us rfl)
      · cases mid with
        | nil =>
          obtain ⟨rfl, -⟩ := List.cons.inj h
          simp
        | cons u us =>
          obtain ⟨rfl, -⟩ := List.cons.inj h
          exact absurd ht' (hb before' s' us rfl)

/-- New names come behind the others, in the order of the structs. -/
theorem names_register (h : (structs.map StructDecl.name).Nodup) :
    (r.register structs).names =
      r.names ++ (structs.map StructDecl.name).filter (· ∉ r.names) := by
  induction structs generalizing r with
  | nil => simp [register]
  | cons s ss ih =>
    rw [List.map_cons, List.nodup_cons] at h
    have hnames : (r.insert s.shell).names =
        if s.name ∈ r.names then r.names else r.names ++ [s.name] := r.names_insert s.shell
    have hregister : (r.register (s :: ss)).names =
        (r.insert s.shell).names ++
          (ss.map StructDecl.name).filter (· ∉ (r.insert s.shell).names) := ih h.2
    rw [hregister, hnames, List.map_cons]
    split
    · rename_i hs
      rw [List.filter_cons_of_neg (by simpa using hs)]
    · rename_i hs
      have hrest : (ss.map StructDecl.name).filter (· ∉ r.names ++ [s.name]) =
          (ss.map StructDecl.name).filter (· ∉ r.names) := by
        refine List.filter_congr fun n hn => ?_
        have hne : n ≠ s.name := fun he => h.1 (he ▸ hn)
        simp [hne]
      rw [List.filter_cons_of_pos (by simpa using hs), hrest, List.append_assoc,
        List.singleton_append]

end FirstPass

section SecondPass

variable (f : MetaClass → List Member)

theorem parameter_mapMembers (r : Registry) (i : Nat) (shared : Option String)
    (e : Signature.Entry) : e.parameter (r.mapMembers f) i shared = e.parameter r i shared := by
  cases e with
  | named name type => rfl
  | single word => simp only [Signature.Entry.parameter, nativeType_mapMembers]

theorem fieldMember?_mapMembers (r : Registry) (owner tag typeText : String) :
    (r.mapMembers f).fieldMember? owner tag typeText = r.fieldMember? owner tag typeText := by
  have hresolve : Signature.resolve (r.mapMembers f) = Signature.resolve r := by
    funext es
    refine List.ext_getElem? fun i => ?_
    simp only [Signature.getElem?_resolve, parameter_mapMembers]
  rw [fieldMember?, fieldMember?, hresolve]

theorem members_mapMembers (r : Registry) (s : StructDecl) :
    s.members (r.mapMembers f) = s.members r := by
  simp only [StructDecl.members, fieldMember?_mapMembers]

/-- The members of a struct, read over the registry as it is by then, go to the class of its
name. -/
def attachOne (r : Registry) (s : StructDecl) : Registry :=
  r.addMembers s.name (s.members r)

/-- The structs' members are read as over the registry before, though each struct reads what those
before it left. -/
theorem foldl_attachOne (r : Registry) (structs : List StructDecl) :
    structs.foldl attachOne r = r.attach structs := by
  induction structs generalizing r with
  | nil => simpa [attach] using r.mapMembers_members.symm
  | cons s ss ih =>
    rw [List.foldl_cons, ih, attachOne, addMembers, attach, attach, mapMembers_mapMembers]
    refine mapMembers_congr fun c _ => ?_
    simp only [funext (members_mapMembers _ r)]
    by_cases h : s.name = c.name
    · simp [h]
    · simp [h, Ne.symm h]

end SecondPass

section Build

theorem build_eq_error_iff {files : List SourceFile} {d : DuplicateClass} :
    r.build files = .error d ↔ r.declare (files.flatMap SourceFile.structs) = .error d := by
  rw [build, bind_eq_error_iff]
  simp

theorem build_eq_ok_iff_allFree {files : List SourceFile} {names : List String} :
    r.build files = .ok (r', names) ↔ r.AllFree (files.flatMap SourceFile.structs) ∧
      names = (files.flatMap SourceFile.structs).map StructDecl.name ∧
      r' = (files.flatMap SourceFile.structs).foldl attachOne
        (r.register (files.flatMap SourceFile.structs)) := by
  simp only [build_ok_iff, declare_ok_iff_allFree, foldl_attachOne]
  constructor
  · rintro ⟨registered, ⟨hall, rfl⟩, rfl, rfl⟩
    exact ⟨hall, rfl, rfl⟩
  · rintro ⟨hall, rfl, rfl⟩
    exact ⟨_, ⟨hall, rfl⟩, rfl, rfl⟩

/-- What is found under the names of the structs, and under the others. -/
theorem find?_attached (h : r.AllFree structs) (name : String) :
    (structs.foldl attachOne (r.register structs)).find? name =
      ((structs.find? (·.name = name)).map fun s =>
        { s.shell with members := s.members (r.register structs) }).or (r.find? name) := by
  rw [foldl_attachOne]
  exact find?_attach (declare_ok_iff_allFree.mpr ⟨h, rfl⟩) name

end Build

/-- A build fails at the first struct whose name is that of a declared class or of a struct before,
with the structs up to there registered. Otherwise each struct becomes a declared class in the place
of the library class of its name, or behind all others. Its base is the last type it embeds, without
star and package, and its members are those of its tagged fields with names, in order, read over a
registry that has every struct with its base, although they are read one struct after another and
added as they are read. All other classes stay as they are. -/
theorem build_registers_structs (r : Registry) (files : List SourceFile) :
    let structs := files.flatMap SourceFile.structs
    let registered := r.register structs
    let built := structs.foldl attachOne registered
    (∀ d, r.build files = .error d ↔ ∃ before s after, structs = before ++ s :: after ∧
      r.AllFree before ∧ r.Taken before s.name ∧ d = ⟨s.name, r.register before⟩) ∧
    (∀ result names, r.build files = .ok (result, names) ↔
      r.AllFree structs ∧ names = structs.map StructDecl.name ∧ result = built) ∧
    (r.AllFree structs →
      registered.names = r.names ++ (structs.map StructDecl.name).filter (· ∉ r.names) ∧
      built.names = registered.names ∧
      (∀ s ∈ structs, registered.find? s.name = some s.shell ∧
        built.find? s.name = some {
          name := s.name
          visibility := .publicAccess
          moduleName := mainModule
          base := (s.fields.filter Field.isEmbedded).getLast?.map fun f => embeddedName f.typeText
          members := (s.fields.filter (!·.isEmbedded)).filterMap fun f =>
            f.tagText.bind fun tag => registered.fieldMember? s.name tag f.typeText }) ∧
      ∀ name ∉ structs.map StructDecl.name,
        registered.find? name = r.find? name ∧ built.find? name = r.find? name) ∧
    ∀ b : HostBase, embeddedName (String.ofList b.text) = b.name.name := by
  intro structs registered built
  refine ⟨fun d => build_eq_error_iff.trans declare_error_iff,
    fun _ _ => build_eq_ok_iff_allFree, ?_, HostBase.embeddedName_text⟩
  intro hall
  have hdeclare : r.declare structs = .ok registered := declare_ok_iff_allFree.mpr ⟨hall, rfl⟩
  have hnodup := (declare_ok_iff.mp ⟨registered, hdeclare⟩).1
  have hnames : built.names = registered.names := by
    have hbuilt : built = registered.attach structs := registered.foldl_attachOne structs
    rw [hbuilt, attach, names_mapMembers]
  refine ⟨names_register hnodup, hnames, ?_, ?_⟩
  · intro s hs
    have hfound : structs.find? (·.name = s.name) = some s :=
      (Keyed.find?_eq_some_iff hnodup).mpr ⟨hs, rfl⟩
    constructor
    · rw [find?_declare hdeclare, hfound]
      rfl
    · rw [find?_attached hall, hfound]
      rfl
  · intro name hname
    have hnone : structs.find? (·.name = name) = none := Keyed.find?_eq_none_iff.mpr hname
    constructor
    · rw [find?_declare hdeclare, hnone]
      rfl
    · rw [find?_attached hall, hnone]
      rfl

end SignalBridge.Registry
