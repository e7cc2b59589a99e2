import SignalBridge.Proofs.Member.Layout
import SignalBridge.Proofs.Registry.Declaration
import SignalBridge.Proofs.Source.Layout

/-!
The classes of sources laid out differently (`build_of_sameWords`). They are the same classes with
the same members in order. Layout reaches a class only through the texts of its fields' types: where
these differ in layout only, bases and names of parameters agree as well. A comment before a name is
more than layout, for the text of a type is split at its words (`parameterNames_notedBell`).
-/

namespace SignalBridge

open List (Forall₂)
open Source (Field StructDecl SourceFile Fits SameWord AlikeFields AlikeDecls AlikeFiles)

/-- Fields whose types differ in layout only, as far as a type is looked at: as that of a base, or
as that of a signal or slot. -/
structure RelaidField (f f' : Field) : Prop where
  base : f.isEmbedded → RelaidBase f.typeText f'.typeText
  member : f.isEmbedded = false → f.tag.isSome → RelaidType f.typeText f'.typeText

/-- The fields of the structs of one name differ in layout only. -/
def RelaidStructs (structs structs' : List StructDecl) (name : String) : Prop :=
  Forall₂ (fun s s' => s.name = name → Forall₂ RelaidField s.fields s'.fields) structs structs'

/-- Members that are the same, with parameters of the same names if the types are `relaid`. -/
structure SameMember (relaid : Prop) (m m' : Member) : Prop where
  name : m.name = m'.name
  fullName : m.fullName = m'.fullName
  category : m.category = m'.category
  returnType : m.returnType = m'.returnType
  virtuality : m.virtuality = m'.virtuality
  parameters : relaid → m.parameters.map Parameter.name = m'.parameters.map Parameter.name

/-- Classes that are the same, with the same base if the types of their structs are `relaid`. -/
structure SameClass (relaid : String → Prop) (c c' : MetaClass) : Prop where
  name : c.name = c'.name
  visibility : c.visibility = c'.visibility
  moduleName : c.moduleName = c'.moduleName
  hasBase : c.base.isSome = c'.base.isSome
  base : relaid c.name → c.base = c'.base
  members : Forall₂ (SameMember (relaid c.name)) c.members c'.members

/-- Structs with the same fields, whose types are laid out alike if `relaid` says so. -/
structure SameStruct (relaid : String → Prop) (s s' : StructDecl) : Prop where
  name : s.name = s'.name
  fields : Forall₂ (fun f f' => f.names = f'.names ∧ f.tag = f'.tag ∧
    (relaid s.name → RelaidField f f')) s.fields s'.fields

section Structs

variable {relaid : String → Prop} {structs structs' : List StructDecl} {file file' : SourceFile}

/-- Structs of the same fields, written by the same words. -/
def AlikeStructs (s s' : StructDecl) : Prop :=
  s.name = s'.name ∧ Forall₂ (AlikeFields SameWord) s.fields s'.fields

theorem alike_structs (h : AlikeFiles SameWord file file') :
    Forall₂ AlikeStructs file.structs file'.structs := by
  have htypes := h.types
  unfold SourceFile.structs
  generalize file.types = ds, file'.types = ds' at htypes
  induction htypes with
  | nil => exact .nil
  | @cons d d' _ _ hd _ ih =>
    obtain ⟨name, body, span⟩ := d
    obtain ⟨name', body', span'⟩ := d'
    cases hd.body with
    | struct hf => exact .cons ⟨hd.name, hf⟩ ih
    | other => exact ih

theorem sameStruct_of_alike {s s' : StructDecl} (h : AlikeStructs s s')
    (hr : relaid s.name → Forall₂ RelaidField s.fields s'.fields) : SameStruct relaid s s' := by
  refine ⟨h.1, ?_⟩
  have hf := h.2
  generalize s.fields = fs, s'.fields = fs' at hf hr
  induction hf with
  | nil => exact .nil
  | cons h _ ih =>
    exact .cons ⟨h.names, h.tag, fun hrelaid => (List.forall₂_cons.mp (hr hrelaid)).1⟩
      (ih fun hrelaid => (List.forall₂_cons.mp (hr hrelaid)).2)

theorem sameStructs_of_alike (h : Forall₂ AlikeStructs structs structs')
    (hr : ∀ name, relaid name → RelaidStructs structs structs' name) :
    Forall₂ (SameStruct relaid) structs structs' := by
  induction h with
  | nil => exact .nil
  | cons h _ ih =>
    exact .cons (sameStruct_of_alike h fun hrelaid => (List.forall₂_cons.mp (hr _ hrelaid)).1 rfl)
      (ih fun name hrelaid => (List.forall₂_cons.mp (hr name hrelaid)).2)

end Structs

section Members

variable {relaid : String → Prop} {r r' : Registry} {s s' : StructDecl}

theorem contains_of_names (h : r.names = r'.names) (name : String) :
    r.contains name = r'.contains name := by
  have hmem (r : Registry) : r.contains name ↔ name ∈ r.names := by
    rw [Registry.contains, Option.isSome_iff_ne_none, Ne, Registry.find?_eq_none_iff,
      Decidable.not_not]
  rw [Bool.eq_iff_iff, hmem, hmem, h]

/-- Which types are known is a matter of the names of the classes. -/
theorem isKnown_of_names (h : r.names = r'.names) (type : String) :
    (r.nativeType type).isKnown = (r'.nativeType type).isKnown := by
  unfold Registry.nativeType
  simp only [contains_of_names h]
  split
  · rfl
  · split
    · rfl
    · split <;> simp only [NativeType.isKnown]

theorem sameMember_field {relaid : Prop} (h : r.names = r'.names) (owner tag : String)
    {type type' : String} (hr : relaid → RelaidType type type') :
    Option.Rel (SameMember relaid) (r.fieldMember? owner tag type)
      (r'.fieldMember? owner tag type') := by
  have hnames := fun hrelaid => names_of_relaid (hr hrelaid) (isKnown_of_names h)
  unfold Registry.fieldMember?
  cases Marker.ofTag? tag with
  | none => exact .none
  | some marker =>
    rw [Option.bind_eq_bind, Option.bind_some, Option.bind_eq_bind, Option.bind_some]
    cases isIdentifier marker.name.toList with
    | false => exact .none
    | true => exact .some ⟨rfl, rfl, rfl, rfl, rfl, hnames⟩

theorem isEmbedded_eq {f f' : Field} (h : f.names = f'.names) : f.isEmbedded = f'.isEmbedded := by
  rw [Field.isEmbedded, Field.isEmbedded, h]

theorem sameMembers (h : r.names = r'.names) (hs : SameStruct relaid s s') :
    Forall₂ (SameMember (relaid s.name)) (s.members r) (s'.members r') := by
  have hf := hs.fields
  unfold StructDecl.members
  rw [← hs.name]
  generalize s.fields = fs, s'.fields = fs' at hf
  induction hf with
  | nil => exact .nil
  | @cons f f' _ _ hf _ ih =>
    obtain ⟨hnames, htag, hrelaid⟩ := hf
    cases he : f.isEmbedded with
    | true =>
      have he' := (isEmbedded_eq hnames).symm.trans he
      rw [List.filter_cons_of_neg (by simp [he]), List.filter_cons_of_neg (by simp [he'])]
      exact ih
    | false =>
      have he' := (isEmbedded_eq hnames).symm.trans he
      rw [List.filter_cons_of_pos (by simp [he]), List.filter_cons_of_pos (by simp [he']),
        List.filterMap_cons, List.filterMap_cons, Field.tagText, Field.tagText, ← htag]
      cases ht : f.tag with
      | none => exact ih
      | some literal =>
        have hm := sameMember_field h s.name (String.ofList (Source.Tag.content literal.toList))
          fun hr => (hrelaid hr).member he (ht ▸ rfl)
        simp only [Option.map_some, Option.bind_some]
        generalize r.fieldMember? s.name _ f.typeText = m,
          r'.fieldMember? s.name _ f'.typeText = m' at hm
        cases hm with
        | none => exact ih
        | some hm => exact .cons hm ih

theorem sameBase (hs : SameStruct relaid s s') :
    s.base.isSome = s'.base.isSome ∧ (relaid s.name → s.base = s'.base) := by
  have hembedded : Forall₂ (fun f f' => relaid s.name → RelaidBase f.typeText f'.typeText)
      (s.fields.filter Field.isEmbedded) (s'.fields.filter Field.isEmbedded) := by
    have hf := hs.fields
    generalize s.fields = fs, s'.fields = fs' at hf
    induction hf with
    | nil => exact .nil
    | @cons f f' _ _ hf _ ih =>
      have he' := isEmbedded_eq hf.1
      cases he : f.isEmbedded with
      | true =>
        rw [List.filter_cons_of_pos he, List.filter_cons_of_pos (he'.symm.trans he)]
        exact .cons (fun hr => (hf.2.2 hr).base he) ih
      | false =>
        rw [List.filter_cons_of_neg (by simp [he]), List.filter_cons_of_neg (by simp [← he', he])]
        exact ih
  have hlast := Source.rel_getLast? hembedded
  unfold StructDecl.base
  generalize (s.fields.filter Field.isEmbedded).getLast? = x,
    (s'.fields.filter Field.isEmbedded).getLast? = y at hlast
  cases hlast with
  | none => exact ⟨rfl, fun _ => rfl⟩
  | some h =>
    rw [Option.map_some, Option.map_some, Option.isSome_some, Option.isSome_some]
    exact ⟨rfl, fun hr => by rw [embeddedName_of_relaid (h hr)]⟩

end Members

section Building

variable {relaid : String → Prop} {structs structs' : List StructDecl} {r r' : Registry}

theorem SameClass.refl (c : MetaClass) : SameClass relaid c c where
  name := rfl
  visibility := rfl
  moduleName := rfl
  hasBase := rfl
  base _ := rfl
  members := List.forall₂_same.mpr fun _ _ => ⟨rfl, rfl, rfl, rfl, rfl, fun _ => rfl⟩

theorem names_of_sameClasses (h : Forall₂ (SameClass relaid) r.classes r'.classes) :
    r.names = r'.names := by
  unfold Registry.names
  generalize r.classes = cs, r'.classes = cs' at h
  induction h with
  | nil => rfl
  | cons h _ ih => rw [List.map_cons, List.map_cons, h.name, ih]

theorem sameClass_find? (h : Forall₂ (SameClass relaid) r.classes r'.classes) (name : String) :
    Option.Rel (SameClass relaid) (r.find? name) (r'.find? name) := by
  unfold Registry.find?
  generalize r.classes = cs, r'.classes = cs' at h
  induction h with
  | nil => exact .none
  | cons h _ ih =>
    rw [List.find?_cons, List.find?_cons, ← h.name]
    split
    · exact .some h
    · exact ih

theorem sameClasses_put {c c' : MetaClass} {cs cs' : List MetaClass}
    (hc : SameClass relaid c c') (h : Forall₂ (SameClass relaid) cs cs') :
    Forall₂ (SameClass relaid) (Keyed.put MetaClass.name c cs)
      (Keyed.put MetaClass.name c' cs') := by
  induction h with
  | nil => exact .cons hc .nil
  | cons h hs ih =>
    simp only [Keyed.put, ← h.name, ← hc.name]
    split
    · exact .cons hc hs
    · exact .cons h ih

theorem sameClass_shell {s s' : StructDecl} (h : SameStruct relaid s s') :
    SameClass relaid s.shell s'.shell where
  name := h.name
  visibility := rfl
  moduleName := rfl
  hasBase := (sameBase h).1
  base := (sameBase h).2
  members := .nil

theorem sameClasses_declare (h : Forall₂ (SameStruct relaid) structs structs')
    (hr : Forall₂ (SameClass relaid) r.classes r'.classes) :
    Fits (fun d d' => d.name = d'.name)
      (fun r r' => Forall₂ (SameClass relaid) r.classes r'.classes) (r.declare structs)
      (r'.declare structs') := by
  induction h generalizing r r' with
  | nil => exact .ok hr
  | @cons s s' _ _ hs _ ih =>
    have hdeclared : (r.find? s.name).any MetaClass.isDeclared =
        (r'.find? s'.name).any MetaClass.isDeclared := by
      have hfind := sameClass_find? hr s.name
      rw [← hs.name]
      generalize r.find? s.name = x, r'.find? s.name = y at hfind
      cases hfind with
      | none => rfl
      | some hc => simp [MetaClass.isDeclared, hc.moduleName]
    rw [Registry.declare, Registry.declare, hdeclared]
    split
    · exact .error hs.name
    · exact ih (sameClasses_put (sameClass_shell hs) hr)

theorem sameMembers_named (hn : r.names = r'.names)
    (h : Forall₂ (SameStruct relaid) structs structs') (name : String) :
    Forall₂ (SameMember (relaid name))
      ((structs.filter (·.name = name)).flatMap (StructDecl.members r))
      ((structs'.filter (·.name = name)).flatMap (StructDecl.members r')) := by
  induction h with
  | nil => exact .nil
  | @cons s s' _ _ hs _ ih =>
    by_cases he : s.name = name
    · have he' := hs.name.symm.trans he
      rw [List.filter_cons_of_pos (by simpa using he), List.filter_cons_of_pos (by simpa using he'),
        List.flatMap_cons, List.flatMap_cons]
      exact List.rel_append (he ▸ sameMembers hn hs) ih
    · have he' : s'.name ≠ name := fun h => he (hs.name.trans h)
      rw [List.filter_cons_of_neg (by simpa using he), List.filter_cons_of_neg (by simpa using he')]
      exact ih

theorem sameClasses_attach (h : Forall₂ (SameStruct relaid) structs structs')
    (hr : Forall₂ (SameClass relaid) r.classes r'.classes) :
    Forall₂ (SameClass relaid) (r.attach structs).classes (r'.attach structs').classes := by
  have hn := names_of_sameClasses hr
  unfold Registry.attach Registry.mapMembers
  rw [List.forall₂_map_left_iff, List.forall₂_map_right_iff]
  refine hr.imp fun c c' hc => ?_
  refine ⟨hc.name, hc.visibility, hc.moduleName, hc.hasBase, hc.base, ?_⟩
  simp only [← hc.name]
  exact List.rel_append hc.members (sameMembers_named hn h c.name)

/-- The same names were declared, and the classes are the same. -/
def SameBuild (relaid : String → Prop) (built built' : Registry × List String) : Prop :=
  built.2 = built'.2 ∧ Forall₂ (SameClass relaid) built.1.classes built'.1.classes

theorem sameBuild (r : Registry) {file file' : SourceFile}
    (h : Forall₂ (SameStruct relaid) file.structs file'.structs) :
    Fits (fun d d' => d.name = d'.name) (SameBuild relaid) (r.build [file]) (r.build [file']) := by
  have hr : Forall₂ (SameClass relaid) r.classes r.classes :=
    List.forall₂_same.mpr fun c _ => .refl c
  have hnames : file.structs.map StructDecl.name = file'.structs.map StructDecl.name := by
    rw [← List.forall₂_eq_eq_eq, List.forall₂_map_left_iff, List.forall₂_map_right_iff]
    exact h.imp fun _ _ hs => hs.name
  rw [Registry.build, Registry.build, List.flatMap_singleton, List.flatMap_singleton]
  exact (sameClasses_declare h hr).bind fun _ _ _ hc => .ok ⟨hnames, sameClasses_attach h hc⟩

/-- Sources of the same words both scan or both do not, and what is built of them over a registry is
the same: the classes, and their members in order. The bases and the names of the parameters are
the same in each class whose types differ in layout only. -/
theorem build_of_sameWords {a b : String} {ts us : List Source.Token}
    (ha : Source.tokenize a = .ok ts) (hb : Source.tokenize b = .ok us)
    (h : Forall₂ SameWord ts us) (r : Registry) :
    Fits (fun _ _ => True)
      (fun file file' => Fits (fun d d' => d.name = d'.name)
        (SameBuild (RelaidStructs file.structs file'.structs)) (r.build [file]) (r.build [file']))
      (Source.scan a) (Source.scan b) := by
  have hfits := Source.alike_scan ha hb h
  generalize Source.scan a = x, Source.scan b = y at hfits
  cases hfits with
  | error _ => exact .error trivial
  | ok hfiles => exact .ok (sameBuild r (sameStructs_of_alike (alike_structs hfiles) fun _ h => h))

end Building

section Bell

/-- A struct with one signal. -/
def bellSource : String :=
  "package main\n\ntype Bell struct \x7b\n\tQObject\n" ++
    "\t_ func(times, volume int) \x60signal:\"rung\"\x60\n\x7d\n"

/-- The struct with more white space and with comments, none of them before a parameter's name. -/
def wideBellSource : String :=
  "package main\n\ntype Bell struct \x7b\n\tQObject // the root\n" ++
    "\t_ func( times ,\tvolume /* loud */ int ) \x60signal:\"rung\"\x60\n\x7d\n"

def bellStruct (rungType : String) (span : Source.Span) : StructDecl where
  name := "Bell"
  fields := [⟨[], "QObject", none, ⟨34, 41⟩⟩,
    ⟨["_"], rungType, some "\x60signal:\"rung\"\x60", span⟩]

theorem relaid_bell :
    RelaidType "func(times, volume int)" "func( times ,\tvolume /* loud */ int )" := by
  have htimes : Signature.RelaidEntry "times".toList " times ".toList :=
    @Signature.RelaidEntry.word [] [] [' '] [' '] "times".toList (by decide) (by decide)
  have hvolume : Signature.RelaidEntry " volume int".toList "\tvolume /* loud */ int ".toList :=
    @Signature.RelaidEntry.named [' '] ['\t'] "volume".toList "int".toList
      "/* loud */ int ".toList ' ' ' ' (by decide) (by decide) (by decide) (by decide)
  exact @RelaidType.list "func".toList [] [] _ _ [] [] (.inl rfl) (by decide)
    (.cons htimes (.last hvolume))

theorem exists_build_of_any {source : String} {structs : List StructDecl}
    (h : (Source.scan source).toOption.any fun file =>
      file.structs = structs && (Registry.empty.build [file]).toOption.any fun _ => true) :
    ∃ file built, Source.scan source = .ok file ∧ file.structs = structs ∧
      Registry.empty.build [file] = .ok built := by
  obtain ⟨file, hfile, h⟩ := exists_ok_of_any h
  rw [Bool.and_eq_true, decide_eq_true_iff] at h
  obtain ⟨built, hbuilt, -⟩ := exists_ok_of_any h.2
  exact ⟨file, built, hfile, h.1, hbuilt⟩

theorem build_of_sameWords_bell : ∃ file file' built built',
    Source.scan bellSource = .ok file ∧ Source.scan wideBellSource = .ok file' ∧
    Registry.empty.build [file] = .ok built ∧ Registry.empty.build [file'] = .ok built' ∧
    RelaidStructs file.structs file'.structs "Bell" ∧
    SameBuild (RelaidStructs file.structs file'.structs) built built' := by
  have hwords : (Source.tokenize bellSource).toOption.any fun ts =>
      (Source.tokenize wideBellSource).toOption.any fun us => Forall₂ SameWord ts us := by
    decide +kernel
  obtain ⟨ts, ha, hwords⟩ := exists_ok_of_any hwords
  obtain ⟨us, hb, hwords⟩ := exists_ok_of_any hwords
  have hfits := build_of_sameWords ha hb (of_decide_eq_true hwords) Registry.empty
  obtain ⟨file, built, hfile, hstructs, hbuilt⟩ :=
    @exists_build_of_any bellSource [bellStruct "func(times, volume int)" ⟨43, 84⟩]
      (by decide +kernel)
  obtain ⟨file', built', hfile', hstructs', hbuilt'⟩ :=
    @exists_build_of_any wideBellSource
      [bellStruct "func( times ,\tvolume /* loud */ int )" ⟨55, 110⟩] (by decide +kernel)
  have hrelaid : RelaidStructs file.structs file'.structs "Bell" := by
    rw [hstructs, hstructs']
    refine .cons (fun _ => .cons ⟨fun _ => .same _, nofun⟩ (.cons ⟨nofun, ?_⟩ .nil)) .nil
    exact fun _ _ => relaid_bell
  rw [hfile, hfile'] at hfits
  cases hfits with
  | ok hfits =>
    rw [hbuilt, hbuilt'] at hfits
    cases hfits with
    | ok hsame => exact ⟨file, file', built, built', hfile, hfile', hbuilt, hbuilt', hrelaid, hsame⟩

/-- The same words once more, with a comment before a parameter's name. -/
def notedBellSource : String :=
  "package main\n\ntype Bell struct \x7b\n\tQObject\n" ++
    "\t_ func(/* loud, often */ times, volume int) \x60signal:\"rung\"\x60\n\x7d\n"

/-- For each member of a class, the names of its parameters. -/
def Registry.parameterNames (r : Registry) (name : String) : Option (List (List String)) :=
  (r.find? name).map fun c => c.members.map fun m => m.parameters.map Parameter.name

/-- The words of a comment become parameters. -/
theorem parameterNames_notedBell : ∃ ts us file file' built built',
    Source.tokenize bellSource = .ok ts ∧ Source.tokenize notedBellSource = .ok us ∧
    ts.map (fun t => (t.kind, t.text)) = us.map (fun t => (t.kind, t.text)) ∧
    Source.scan bellSource = .ok file ∧ Source.scan notedBellSource = .ok file' ∧
    Registry.empty.build [file] = .ok built ∧ Registry.empty.build [file'] = .ok built' ∧
    built.1.parameterNames "Bell" = some [["times", "volume"]] ∧
    built'.1.parameterNames "Bell" = some [["/*", "often", "volume"]] := by
  have hrun : (Source.tokenize bellSource).toOption.any fun ts =>
      (Source.tokenize notedBellSource).toOption.any fun us =>
        (Source.scan bellSource).toOption.any fun file =>
          (Source.scan notedBellSource).toOption.any fun file' =>
            (Registry.empty.build [file]).toOption.any fun built =>
              (Registry.empty.build [file']).toOption.any fun built' =>
                ts.map (fun t => (t.kind, t.text)) = us.map (fun t => (t.kind, t.text)) ∧
                built.1.parameterNames "Bell" = some [["times", "volume"]] ∧
                built'.1.parameterNames "Bell" = some [["/*", "often", "volume"]] := by
    decide +kernel
  obtain ⟨ts, hts, hrun⟩ := exists_ok_of_any hrun
  obtain ⟨us, hus, hrun⟩ := exists_ok_of_any hrun
  obtain ⟨file, hfile, hrun⟩ := exists_ok_of_any hrun
  obtain ⟨file', hfile', hrun⟩ := exists_ok_of_any hrun
  obtain ⟨built, hbuilt, hrun⟩ := exists_ok_of_any hrun
  obtain ⟨built', hbuilt', hrun⟩ := exists_ok_of_any hrun
  obtain ⟨hwords, hnames, hnames'⟩ := of_decide_eq_true hrun
  exact ⟨ts, us, file, file', built, built', hts, hus, hwords, hfile, hfile', hbuilt, hbuilt',
    hnames, hnames'⟩

end Bell

end SignalBridge
