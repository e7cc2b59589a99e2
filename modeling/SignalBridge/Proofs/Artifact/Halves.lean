import SignalBridge.Proofs.Artifact.FunctionNames
import SignalBridge.Proofs.Artifact.Printed
import SignalBridge.Proofs.Bridge.Callbacks
import SignalBridge.Proofs.Bridge.WrapperCalls

namespace SignalBridge

open Code (Marked)
open List (Forall₂)

/-- The function that a line of the Go file makes known to C. -/
def exportOf? (line : String) : Option String :=
  (Text.dropWord? "//export ".toList line.toList).map String.ofList

/-- The functions that the lines of the Go file make known to C. -/
def HostFile.exports (file : HostFile) : List String :=
  file.lines.filterMap exportOf?

section Lines

@[simp] theorem exportOf?_export (name : String) : exportOf? ("//export " ++ name) = some name := by
  rw [exportOf?, String.toList_append, Text.dropWord?_append]
  simp

theorem exportOf?_eq_none {line : String} (h : ¬ "//export ".toList <+: line.toList) :
    exportOf? line = none := by
  rw [exportOf?, Text.dropWord?_eq_none h, Option.map_none]

@[simp] theorem filterMap_exportOf?_indent (lines : List String) :
    (Code.indent lines).filterMap exportOf? = [] := by
  rw [Code.indent, List.filterMap_map, List.filterMap_eq_nil_iff]
  intro line hline
  apply exportOf?_eq_none
  simp

theorem filterMap_exportOf?_block {head : String} (body : List String)
    (h : exportOf? (head ++ " \x7b") = none) : (Code.block head body).filterMap exportOf? = [] := by
  have hend : exportOf? "\x7d" = none := by decide
  rw [Code.block, List.filterMap_cons_none h, List.filterMap_append, filterMap_exportOf?_indent,
    List.nil_append, List.filterMap_cons_none hend, List.filterMap_nil]

theorem filterMap_exportOf?_apart (lines : List String) :
    (Code.apart lines).filterMap exportOf? = lines.filterMap exportOf? := by
  have hempty : exportOf? "" = none := by decide
  rw [Code.apart, List.filterMap_cons_none hempty]

theorem filterMap_exportOf?_helper (h : HostHelper) : h.lines.filterMap exportOf? = [] := by
  apply filterMap_exportOf?_block
  apply exportOf?_eq_none
  simp [toString]

theorem filterMap_exportOf?_heading (g : HostFunction) : g.headingLines.filterMap exportOf? =
    if g.isExported then [g.name] else [] := by
  have hremark (text : String) : exportOf? ("// " ++ text) = none := by
    apply exportOf?_eq_none
    simp
  cases hg : g.heading <;> simp [HostFunction.headingLines, HostFunction.isExported, hg, hremark]

theorem filterMap_exportOf?_function (g : HostFunction) : g.lines.filterMap exportOf? =
    if g.isExported then [g.name] else [] := by
  rw [HostFunction.lines, List.filterMap_append, filterMap_exportOf?_heading,
    filterMap_exportOf?_block, List.append_nil]
  apply exportOf?_eq_none
  simp [toString]

theorem filterMap_exportOf?_functions (gs : List HostFunction) :
    (gs.flatMap fun g => Code.apart g.lines).filterMap exportOf? =
      (gs.filter HostFunction.isExported).map HostFunction.name := by
  induction gs with
  | nil => rfl
  | cons g gs ih =>
    rw [List.flatMap_cons, List.filterMap_append, ih, filterMap_exportOf?_apart,
      filterMap_exportOf?_function]
    cases hg : g.isExported <;> simp [hg]

/-- A line that makes a function known stands before each exported function, and nowhere else. -/
theorem HostFile.exports_eq (file : HostFile) : file.exports =
    (file.functions.filter HostFunction.isExported).map HostFunction.name := by
  have hhelpers : (file.helpers.flatMap fun h => Code.apart h.lines).filterMap exportOf? = [] := by
    rw [List.filterMap_flatMap, List.flatMap_eq_nil_iff]
    intro h _
    rw [filterMap_exportOf?_apart, filterMap_exportOf?_helper]
  have htable : (Code.apart handlerTable).filterMap exportOf? = [] := by
    simp [Code.apart, handlerTable, exportOf?, Text.dropWord?]
  rw [exports, lines, List.filterMap_append, List.filterMap_append, List.filterMap_append,
    List.filterMap_append, List.filterMap_append, filterMap_exportOf?_indent, hhelpers, htable,
    filterMap_exportOf?_functions]
  simp [exportOf?, Text.dropWord?, generatedLine, includeLine, headerName, toString]

end Lines

section Classes

variable {r : Registry}

theorem parameters_of_mem_bindAll {owner : String} {built : Nat} {ms : List Member} {b : Binding}
    (h : ∀ m ∈ ms, m.category = .destructor → m.parameters = [])
    (hb : b ∈ r.bindAll owner built ms) (hk : b.member.category = .destructor) :
    b.parameters = [] := by
  obtain ⟨m, hm, built, rfl⟩ := exists_bind_of_mem_bindAll hb
  change m.parameters.mapIdx _ = []
  rw [h m hm hk, List.mapIdx_nil]

/-- The three artifacts of some classes, line by line. -/
structure Registry.Printed (r : Registry) (cs : List MetaClass) (package : String)
    (pkgConfig : List String) : Prop where
  glue : (HostFile.ofClasses package pkgConfig (cs.map r.boundClass)).lines =
    let lists := HostFile.passLists (cs.map r.boundClass)
    HostFile.title package pkgConfig ++ HostFile.importLines lists ++ HostFile.handlerLines ++
      HostFile.listLines lists ++
      cs.flatMap fun c => (r.boundClass c).hostFunctions.flatMap fun g =>
        "" :: g.marked.map Marked.text
  source : NativeSource.lines (r.includes cs) (cs.map r.boundClass) =
    NativeSource.preamble (r.includes cs) (cs.map MetaClass.name) ++
      cs.flatMap (fun c =>
        "" :: (r.boundClass c).native.marked.map Marked.text ++
          (List.zipWith Prototype.definition (r.boundClass c).prototypes
            (r.boundClass c).bodies).flatMap fun lines => "" :: lines) ++
      ["", "#include \"moc_moc.h\""]
  header : headerLines (cs.map r.boundClass) =
    headerTop ++
      cs.flatMap (fun c => "" :: (r.boundClass c).bindings.flatMap fun b =>
        b.prototypes.map fun p => p.text ++ ";") ++
      headerEnd

theorem Registry.printed (r : Registry) (cs : List MetaClass) (package : String)
    (pkgConfig : List String) : r.Printed cs package pkgConfig where
  glue := by
    rw [HostFile.lines_ofClasses, List.flatMap_map, List.flatMap_assoc]
  source := by
    rw [NativeSource.lines_eq, List.flatMap_map]
    simp only [NativeSource.classLines_eq]
    rfl
  header := by
    rw [headerLines_eq, List.flatMap_map]
    simp only [BoundClass.prototypes, List.map_flatMap]

/-- What Go and C++ call of each other in the lines of the artifacts. -/
structure Registry.HalvesFit (r : Registry) (cs : List MetaClass) (package : String)
    (pkgConfig : List String) : Prop where
  /-- The functions that the Go file makes known to C, class by class. -/
  exports : (HostFile.ofClasses package pkgConfig (cs.map r.boundClass)).exports =
    cs.flatMap fun c => (r.boundClass c).exports.map HostFunction.name
  /-- The lines of a class call functions of Go in the bodies of its members only. -/
  callbacks : ∀ c ∈ cs, (r.boundClass c).native.callbacks =
    (r.boundClass c).native.calls.map BodyCall.marked
  /-- These are the functions made known, each called once with what it takes. -/
  arguments : ∀ c ∈ cs, ∃ calls, calls.Perm (r.boundClass c).native.calls ∧
    Forall₂ r.Fits (r.boundClass c).exports calls
  /-- The lines of the functions of a member call the C functions that the header declares for the
  member, with as many arguments as their prototypes have parameters. -/
  wrappers : ∀ c ∈ cs, ∀ b ∈ (r.boundClass c).bindings,
    b.hostFunctions.flatMap HostFunction.wrapperCalls = b.prototypes.map Prototype.call
  /-- The other lines of the Go file call nothing of C. -/
  others : ∀ lists, ∀ line ∈ HostFile.importLines lists ++ HostFile.handlerLines ++
    HostFile.listLines lists, line ≠ "func mocBool(b bool) C.char \x7b" →
      Text.occurs "C.".toList line.toList = false

/-- The artifacts are printed line by line, and where destructors take no parameters, what one half
calls in its lines the other half has, with the arguments that it takes. -/
theorem Registry.halves_fit (r : Registry) (cs : List MetaClass) (package : String)
    (pkgConfig : List String)
    (h : ∀ c ∈ cs, ∀ m ∈ c.members, m.category = .destructor → m.parameters = []) :
    r.Printed cs package pkgConfig ∧ r.HalvesFit cs package pkgConfig := by
  refine ⟨r.printed cs package pkgConfig, ?_⟩
  constructor
  case exports =>
    simp only [HostFile.exports_eq, HostFile.ofClasses, BoundClass.exports, List.flatMap_map,
      List.filter_flatMap, List.map_flatMap]
  case callbacks => exact fun c _ => (r.boundClass c).callbacks_native
  case arguments => exact fun c _ => r.exports_fit c
  case wrappers =>
    intro c hc b hb
    exact b.wrapperCalls_eq (parameters_of_mem_bindAll (h c hc) hb)
  case others => decide +kernel

/-- A class with a member of each kind. -/
def dial : MetaClass :=
  ⟨"Dial", .publicAccess, mainModule, some rootClass,
    [⟨"turned", "Dial::turned", .signal, "void", none,
        [⟨"label", "string", "QString"⟩, ⟨"by", "int", "int"⟩], .nonvirtual⟩,
      ⟨"set", "Dial::set", .slot, "bool", some "bool", [⟨"at", "float64", "qreal"⟩], .nonvirtual⟩,
      ⟨"Dial", "Dial::Dial", .constructor, "void", none, [⟨"parent", "*Dial", "Dial*"⟩],
        .nonvirtual⟩,
      ⟨"~Dial", "Dial::~Dial", .destructor, "void", none, [], .nonvirtual⟩]⟩

def dialRegistry : Registry where
  classes := [dial]
  names_nodup := by decide

theorem halves_fit_dial :
    (∀ c ∈ [dial], ∀ m ∈ c.members, m.category = .destructor → m.parameters = []) ∧
      (HostFile.ofClasses "main" [] [dialRegistry.boundClass dial]).exports =
        ["callbackDial_Turned", "callbackDial_Set", "callbackDial_DestroyDial"] ∧
      "char Dial_Set(void* ptr, double at);" ∈ headerLines [dialRegistry.boundClass dial] ∧
      ∃ calls, calls.Perm (dialRegistry.boundClass dial).native.calls ∧
        Forall₂ dialRegistry.Fits (dialRegistry.boundClass dial).exports calls := by
  have hplain : ∀ c ∈ [dial], ∀ m ∈ c.members, m.category = .destructor → m.parameters = [] := by
    decide
  obtain ⟨hprinted, hfit⟩ := dialRegistry.halves_fit [dial] "main" [] hplain
  refine ⟨hplain, ?_, ?_, hfit.arguments dial List.mem_cons_self⟩
  · exact hfit.exports.trans (by decide)
  · exact hprinted.header ▸ by decide +kernel

end Classes

end SignalBridge
